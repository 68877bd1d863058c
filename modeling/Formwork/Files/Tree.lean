import Formwork.Files.Path
import Formwork.Number.Digits
import Formwork.Text.Quoted

/-!
# Trees of files

A tree tells what stands at each location: a file with its bytes, a folder or nothing.
A path is followed name by name through folders, and access fails at the first name
that is not one. Names and paths have limited lengths. Writing a file makes the folders
on the way to it, unless they are too many.
-/

namespace Formwork.Files

/-- Where something stands: the names from the root on, or from the folder in use on. Only a
location outside of that folder has `..` among its names, and only in front. -/
structure Location where
  rooted : Bool
  names : List String
  deriving DecidableEq, Repr

namespace Location

/-- The folder above. The root is above itself. -/
def parent (l : Location) : Location :=
  if l.rooted || l.names.any (· ≠ "..") then { l with names := l.names.dropLast }
  else { l with names := l.names ++ [".."] }

/-- The location that a name leads to. -/
def enter (l : Location) (name : String) : Location :=
  if Path.stays name then l
  else if name = ".." then l.parent
  else { l with names := l.names ++ [name] }

/-- The location that a spelled path leads to, if all that it passes are folders. -/
def ofSpelling (spelling : String) : Location :=
  (spelledNames spelling).foldl enter ⟨isRooted spelling, []⟩

/-- The first location lies on the way to the second one. -/
def encloses (l m : Location) : Bool :=
  l.rooted == m.rooted && l.names.isPrefixOf m.names && l.names.length < m.names.length

end Location

/-- Why a path cannot be used. -/
inductive Obstacle where
  | missing
  | exists
  | notFolder
  | folder
  | nameTooLong
  /-- Too many folders are missing on the way. -/
  | tooDeep
  deriving DecidableEq, Repr

/-- The number of an obstacle, if it has one. -/
def Obstacle.code? : Obstacle → Option Nat
  | .missing => some 2
  | .exists => some 17
  | .notFolder => some 20
  | .folder => some 21
  | .nameTooLong => some 36
  | .tooDeep => none

/-- The wording of an obstacle. -/
def Obstacle.wording : Obstacle → String
  | .missing => "No such file or directory"
  | .exists => "File exists"
  | .notFolder => "Not a directory"
  | .folder => "Is a directory"
  | .nameTooLong => "File name too long"
  | .tooDeep => "maximum recursion depth exceeded while calling a Python object"

/-- A path that cannot be used. -/
structure AccessError where
  obstacle : Obstacle
  path : Path
  deriving DecidableEq, Repr

/-- The message of a failed access. An obstacle with a number is told with it and with the
path. -/
def AccessError.message (e : AccessError) : String :=
  match e.obstacle.code? with
  | some code =>
    "[Errno " ++ Number.shown code ++ "] " ++ e.obstacle.wording ++ ": "
      ++ Text.quoted e.path.text
  | none => e.obstacle.wording

/-- Files with their bytes, and folders. The folders around a file or a folder need not be
listed. -/
structure Tree where
  files : List (Location × List UInt8)
  folders : List Location
  deriving Repr

namespace Tree

/-- The bytes of the file at a location. -/
def content? (t : Tree) (l : Location) : Option (List UInt8) :=
  t.files.lookup l

/-- A folder stands at the location. -/
def isFolder (t : Tree) (l : Location) : Bool :=
  l.names.all (· = "..") || (t.folders.any fun f => l == f || l.encloses f)
    || t.files.any fun f => l.encloses f.1

/-- The most bytes that a name may have. -/
def nameLimit : Nat := 255

/-- Follows names from a location on. -/
def follow (t : Tree) (l : Location) : List String → Except Obstacle Location
  | [] => .ok l
  | name :: rest =>
    if t.isFolder l then
      if nameLimit < name.utf8ByteSize then .error .nameTooLong else t.follow (l.enter name) rest
    else if (t.content? l).isSome then .error .notFolder
    else .error .missing

/-- The most bytes that a path may have as it is spelled. -/
def pathLimit : Nat := 4095

/-- The location of a path. -/
def locate (t : Tree) (p : Path) : Except AccessError Location :=
  if pathLimit < p.text.utf8ByteSize then .error ⟨.nameTooLong, p⟩
  else (t.follow ⟨p.root ≠ "", []⟩ p.names).mapError fun obstacle => ⟨obstacle, p⟩

/-- The location of a spelled path. -/
def locateSpelling (t : Tree) (spelling : String) : Except Obstacle Location :=
  if spelling = "" then .error .missing
  else if pathLimit < spelling.utf8ByteSize then .error .nameTooLong
  else t.follow ⟨isRooted spelling, []⟩ (spelledNames spelling)

/-- A file stands where the spelled path leads. -/
def hasFile (t : Tree) (spelling : String) : Bool :=
  match t.locateSpelling spelling with
  | .ok l => (t.content? l).isSome && !t.isFolder l
  | .error _ => false

/-- A folder stands where the path leads. -/
def hasFolder (t : Tree) (p : Path) : Bool :=
  match t.locate p with
  | .ok l => t.isFolder l
  | .error _ => false

/-- The bytes of the file that a path leads to. -/
def read (t : Tree) (p : Path) : Except AccessError (List UInt8) := do
  let l ← t.locate p
  if t.isFolder l then .error ⟨.folder, p⟩
  else
    match t.content? l with
    | some bytes => .ok bytes
    | none => .error ⟨.missing, p⟩

/-- Makes a folder where nothing stands. -/
def makeFolder (t : Tree) (p : Path) : Except AccessError Tree := do
  let l ← t.locate p
  if t.isFolder l || (t.content? l).isSome then .error ⟨.exists, p⟩
  else .ok { t with folders := l :: t.folders.filter (!·.encloses l) }

/-- Makes a folder unless one stands there. -/
def settleFolder (t : Tree) (p : Path) : Except AccessError Tree :=
  match t.makeFolder p with
  | .ok t => .ok t
  | .error e => if e.obstacle ≠ .missing && t.hasFolder p then .ok t else .error e

/-- Makes a folder and the folders on the way to it, unless they stand there. Up to as many as
given are looked at from the last one on. If one of them cannot be made, those before it stay. -/
def makeFoldersWithin (t : Tree) (p : Path) : Nat → Tree × Except AccessError Unit
  | 0 => (t, .error ⟨.tooDeep, p⟩)
  | most + 1 =>
    match t.settleFolder p with
    | .ok made => (made, .ok ())
    | .error e =>
      if e.obstacle = .missing && !p.names.isEmpty then
        match t.makeFoldersWithin p.parent most with
        | (way, .ok ()) =>
          match way.settleFolder p with
          | .ok made => (made, .ok ())
          | .error e => (way, .error e)
        | (way, .error e) => (way, .error e)
      else (t, .error e)

/-- The most folders that can be missing on the way. -/
def wayLimit : Nat := 940

/-- Makes a folder and the folders on the way to it, unless they stand there. -/
def makeFolders (t : Tree) (p : Path) : Tree × Except AccessError Unit :=
  t.makeFoldersWithin p wayLimit

/-- Sets the bytes of the file that a path leads to. -/
def write (t : Tree) (p : Path) (bytes : List UInt8) : Except AccessError Tree := do
  let l ← t.locate p
  if t.isFolder l then .error ⟨.folder, p⟩
  else .ok { t with files := (l, bytes) :: t.files.filter (·.1 ≠ l) }

/-- A file that was written holds the bytes. -/
theorem content?_write {t u : Tree} {p : Path} {l : Location} {bytes : List UInt8}
    (located : t.locate p = .ok l) (written : t.write p bytes = .ok u) :
    u.content? l = some bytes := by
  simp only [write, located, bind, Except.bind] at written
  split at written
  · simp at written
  · simp only [Except.ok.injEq] at written
    subst written
    simp [content?]

/-- Writing a file leaves the bytes of all others. -/
theorem content?_write_of_ne {t u : Tree} {p : Path} {l m : Location} {bytes : List UInt8}
    (located : t.locate p = .ok l) (written : t.write p bytes = .ok u) (ne : m ≠ l) :
    u.content? m = t.content? m := by
  simp only [write, located, bind, Except.bind] at written
  split at written
  · simp at written
  · simp only [Except.ok.injEq] at written
    subst written
    have (fs : List (Location × List UInt8)) :
        List.lookup m (fs.filter fun f => !decide (f.1 = l)) = List.lookup m fs := by
      induction fs with
      | nil => rfl
      | cons f fs ih =>
        obtain ⟨k, b⟩ := f
        by_cases hk : k = l
        · subst hk
          simpa [List.lookup_cons, beq_eq_false_iff_ne.mpr ne] using ih
        · by_cases hm : m = k
          · simp [hk, hm]
          · simpa [hk, List.lookup_cons, beq_eq_false_iff_ne.mpr hm] using ih
    simp [content?, List.lookup_cons, beq_eq_false_iff_ne.mpr ne, this]

end Tree

end Formwork.Files
