import Formwork.Text.Pieces

/-!
# Paths

A path leads to a file name by name. A spelling of a path may hold names that stay
where they are; a tidied path has none of them. A path starts at a root, or at the
folder where it is used.
-/

namespace Formwork.Files

/-- A tidied path: what it starts at, empty for the folder where it is used, and its names. -/
structure Path where
  root : String
  names : List String
  deriving DecidableEq, Repr

/-- The names of a spelled path, also those that stay where they are. -/
def spelledNames (spelling : String) : List String :=
  (Text.pieces '/' spelling.toList).map String.ofList

/-- The spelling starts at a root. -/
def isRooted (spelling : String) : Bool :=
  spelling.toList.head? == some '/'

namespace Path

/-- The root that a spelling starts at. Exactly two slashes are a root of their own. -/
def rootOf (spelling : String) : String :=
  match spelling.toList.takeWhile (· == '/') with
  | [] => ""
  | ['/', '/'] => "//"
  | _ => "/"

/-- The name stays where it is. -/
def stays (name : String) : Bool :=
  name = "" || name = "."

/-- The tidied path of a spelling. -/
def tidy (spelling : String) : Path :=
  ⟨rootOf spelling, (spelledNames spelling).filter fun name => !stays name⟩

/-- The text of a path. -/
def text (p : Path) : String :=
  if p.root = "" && p.names.isEmpty then "." else p.root ++ "/".intercalate p.names

/-- The path without its last name. -/
def parent (p : Path) : Path :=
  { p with names := p.names.dropLast }

end Path

end Formwork.Files
