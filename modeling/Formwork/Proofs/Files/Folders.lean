import Formwork.Files.Tree
import Formwork.Proofs.Outcome

/-!
# Trees of files in which folders are made

A path is followed through folders only, so whatever lies around the place where it leads is a
folder. Making folders on the way to a path adds folders where nothing stood, and leaves all files.
A path that led to a file still leads to it, and a file that was written is read back.
-/

namespace Formwork.Files

open Except

namespace Location

variable {l m n : Location}

theorem encloses_iff : l.encloses m = true ↔
    l.rooted = m.rooted ∧ l.names <+: m.names ∧ l.names.length < m.names.length := by
  simp [encloses, and_assoc]

theorem encloses_trans (h : l.encloses m = true) (h' : m.encloses n = true) :
    l.encloses n = true := by
  obtain ⟨hrooted, hbegins, hlength⟩ := encloses_iff.mp h
  obtain ⟨hrooted', hbegins', hlength'⟩ := encloses_iff.mp h'
  exact encloses_iff.mpr
    ⟨hrooted.trans hrooted', hbegins.trans hbegins', Nat.lt_trans hlength hlength'⟩

end Location

namespace Path

theorem utf8ByteSize_intercalate_dropLast (s : String) (names : List String) :
    (s.intercalate names.dropLast).utf8ByteSize ≤ (s.intercalate names).utf8ByteSize := by
  induction names with
  | nil => exact Nat.le_refl _
  | cons name rest ih =>
      cases rest with
      | nil => simp
      | cons next rest =>
          rw [List.dropLast_cons_cons, String.intercalate_cons_cons]
          cases hrest : (next :: rest).dropLast with
          | nil =>
              simp only [String.intercalate_singleton, String.utf8ByteSize_append]
              omega
          | cons last more =>
              rw [hrest] at ih
              rw [String.intercalate_cons_cons]
              simp only [String.utf8ByteSize_append]
              omega

/-- The path of the folder is not too long if the path in it is not. -/
theorem utf8ByteSize_text_parent (p : Path) :
    p.parent.text.utf8ByteSize ≤ max 1 p.text.utf8ByteSize := by
  have hnames := utf8ByteSize_intercalate_dropLast "/" p.names
  unfold text parent
  split
  · exact Nat.le_max_left 1 _
  · rename_i hnamed
    rw [if_neg fun hempty => hnamed (by simp_all)]
    simp only [String.utf8ByteSize_append]
    omega

end Path

namespace Tree

variable {t u v : Tree} {p : Path} {l m : Location} {bytes : List UInt8}

theorem isFolder_iff : t.isFolder l = true ↔ (∀ name ∈ l.names, name = "..") ∨
    (∃ f ∈ t.folders, l = f ∨ l.encloses f = true) ∨ ∃ f ∈ t.files, l.encloses f.1 = true := by
  simp [isFolder, or_assoc]

/-- Whatever lies around the location is a folder. -/
def Reaches (t : Tree) (l : Location) : Prop :=
  ∀ m, m.encloses l = true → t.isFolder m = true

/-- What lies around the last name is the folder before it or lies around that. -/
theorem eq_or_encloses_of_append {name : String}
    (h : m.encloses { l with names := l.names ++ [name] } = true) :
    m = l ∨ m.encloses l = true := by
  obtain ⟨hrooted, hbegins, hlength⟩ := Location.encloses_iff.mp h
  rcases List.prefix_concat_iff.mp hbegins with hwhole | hbegins
  · rw [hwhole] at hlength
    exact absurd hlength (Nat.lt_irrefl _)
  · rcases Nat.lt_or_eq_of_le hbegins.length_le with hlt | heq
    · exact .inr (Location.encloses_iff.mpr ⟨hrooted, hbegins, hlt⟩)
    · left
      cases m
      cases l
      simp only [Location.mk.injEq]
      exact ⟨hrooted, hbegins.eq_of_length heq⟩

/-- A name leads on from a folder that is reached. -/
theorem Reaches.enter (h : t.Reaches l) (hl : t.isFolder l = true) (name : String) :
    t.Reaches (l.enter name) := by
  intro m hm
  unfold Location.enter at hm
  split at hm
  · exact h m hm
  split at hm
  · unfold Location.parent at hm
    obtain ⟨hrooted, hbegins, hlength⟩ := Location.encloses_iff.mp hm
    split at hm
    · rename_i habove
      rw [if_pos habove] at hrooted hbegins hlength
      refine h m (Location.encloses_iff.mpr ⟨hrooted, hbegins.trans (List.dropLast_prefix _), ?_⟩)
      exact Nat.lt_of_lt_of_le hlength (List.dropLast_prefix _).length_le
    · rename_i habove
      rw [if_neg habove] at hbegins
      refine isFolder_iff.mpr (.inl fun name hname => ?_)
      simp only [Bool.or_eq_true, List.any_eq_true, decide_eq_true_eq, not_or, not_exists,
        not_and, ne_eq, not_not] at habove
      rcases List.mem_append.mp (hbegins.subset hname) with hmem | hmem
      · exact habove.2 name hmem
      · exact List.mem_singleton.mp hmem
  · rcases eq_or_encloses_of_append hm with rfl | hm
    · exact hl
    · exact h m hm

theorem Reaches.follow (h : t.Reaches l) {names : List String}
    (hfollow : t.follow l names = .ok m) : t.Reaches m := by
  induction names generalizing l with
  | nil =>
      cases hfollow
      exact h
  | cons name rest ih =>
      unfold Tree.follow at hfollow
      split at hfollow
      · rename_i hl
        split at hfollow
        · cases hfollow
        · exact ih (h.enter hl name) hfollow
      · split at hfollow <;> cases hfollow

theorem locate_eq_ok_iff : t.locate p = .ok l ↔ ¬ pathLimit < p.text.utf8ByteSize ∧
    t.follow ⟨p.root ≠ "", []⟩ p.names = .ok l := by
  unfold locate
  split
  · simp [*]
  · simp [*, mapError_eq_ok_iff]

theorem reaches_of_locate (h : t.locate p = .ok l) : t.Reaches l := by
  have hstart : t.Reaches ⟨p.root ≠ "", []⟩ := by
    intro m hm
    obtain ⟨-, -, hlength⟩ := Location.encloses_iff.mp hm
    cases hlength
  exact hstart.follow (locate_eq_ok_iff.mp h).2

/-- A path leads to the same place in a tree with more folders. -/
theorem follow_mono (hfolders : ∀ l, t.isFolder l = true → u.isFolder l = true)
    {names : List String} (h : t.follow l names = .ok m) : u.follow l names = .ok m := by
  induction names generalizing l with
  | nil => exact h
  | cons name rest ih =>
      unfold Tree.follow at h ⊢
      split at h
      · rename_i hl
        rw [if_pos (hfolders l hl)]
        split at h
        · cases h
        · rename_i hlength
          rw [if_neg hlength]
          exact ih h
      · split at h <;> cases h

theorem locate_mono (hfolders : ∀ l, t.isFolder l = true → u.isFolder l = true)
    (h : t.locate p = .ok l) : u.locate p = .ok l := by
  obtain ⟨hlength, hfollow⟩ := locate_eq_ok_iff.mp h
  exact locate_eq_ok_iff.mpr ⟨hlength, follow_mono hfolders hfollow⟩

theorem read_eq_ok_iff : t.read p = .ok bytes ↔
    ∃ l, t.locate p = .ok l ∧ t.isFolder l = false ∧ t.content? l = some bytes := by
  rw [read, bind_eq_ok_iff]
  refine exists_congr fun l => and_congr_right fun _ => ?_
  cases t.isFolder l with
  | true => simp
  | false => cases t.content? l <;> simp

theorem write_eq_ok_iff : t.write p bytes = .ok u ↔
    ∃ l, t.locate p = .ok l ∧ t.isFolder l = false ∧
      u = { t with files := (l, bytes) :: t.files.filter (·.1 ≠ l) } := by
  rw [write, bind_eq_ok_iff]
  refine exists_congr fun l => and_congr_right fun _ => ?_
  cases t.isFolder l with
  | true => simp
  | false => simp [eq_comm]

/-- The second tree has the files of the first one, and beyond its folders only such where no file
stands. -/
structure Grows (t u : Tree) : Prop where
  content : ∀ l, u.content? l = t.content? l
  folders : ∀ l, t.isFolder l = true → u.isFolder l = true
  bare : ∀ l, (t.content? l).isSome = true → u.isFolder l = true → t.isFolder l = true

theorem Grows.refl (t : Tree) : t.Grows t :=
  ⟨fun _ => rfl, fun _ h => h, fun _ _ h => h⟩

theorem Grows.trans (h : t.Grows u) (h' : u.Grows v) : t.Grows v where
  content l := (h'.content l).trans (h.content l)
  folders l hl := h'.folders l (h.folders l hl)
  bare l hfile hl := h.bare l hfile (h'.bare l (by rw [h.content]; exact hfile) hl)

/-- A file is read as before. -/
theorem Grows.read (h : t.Grows u) (hread : t.read p = .ok bytes) : u.read p = .ok bytes := by
  obtain ⟨l, hl, hfolder, hcontent⟩ := read_eq_ok_iff.mp hread
  refine read_eq_ok_iff.mpr ⟨l, locate_mono h.folders hl, ?_, by rw [h.content, hcontent]⟩
  refine Bool.eq_false_iff.mpr fun hnew => ?_
  rw [h.bare l (by rw [hcontent]; rfl) hnew] at hfolder
  cases hfolder

/-- A folder that is made is the only one that was not there before. -/
theorem isFolder_makeFolder (h : t.makeFolder p = .ok u) :
    u.files = t.files ∧ ∃ l, t.content? l = none ∧
      ∀ m, u.isFolder m = true ↔ t.isFolder m = true ∨ m = l := by
  rw [makeFolder, bind_eq_ok_iff] at h
  obtain ⟨l, hl, h⟩ := h
  split at h
  · cases h
  rename_i hnothing
  cases h
  rw [Bool.not_eq_true, Bool.or_eq_false_iff] at hnothing
  have hcontent : t.content? l = none := by simpa using hnothing.2
  refine ⟨rfl, l, hcontent, fun m => ⟨fun hm => ?_, ?_⟩⟩
  · rcases isFolder_iff.mp hm with hup | ⟨f, hf, hfm⟩ | hfile
    · exact .inl (isFolder_iff.mpr (.inl hup))
    · rcases List.mem_cons.mp hf with rfl | hf
      · rcases hfm with rfl | hencloses
        · exact .inr rfl
        · exact .inl (reaches_of_locate hl m hencloses)
      · exact .inl (isFolder_iff.mpr (.inr (.inl ⟨f, (List.mem_filter.mp hf).1, hfm⟩)))
    · exact .inl (isFolder_iff.mpr (.inr (.inr hfile)))
  · rintro (hm | rfl)
    · rcases isFolder_iff.mp hm with hup | ⟨f, hf, hfm⟩ | hfile
      · exact isFolder_iff.mpr (.inl hup)
      · -- A folder around the new one is no longer listed, but still is one.
        by_cases haround : f.encloses l = true
        · have hencloses : m.encloses l = true := by
            rcases hfm with rfl | hencloses
            · exact haround
            · exact Location.encloses_trans hencloses haround
          exact isFolder_iff.mpr (.inr (.inl ⟨l, List.mem_cons_self, .inr hencloses⟩))
        · have hkept : f ∈ t.folders.filter (!·.encloses l) :=
            List.mem_filter.mpr ⟨hf, by simpa using haround⟩
          exact isFolder_iff.mpr (.inr (.inl ⟨f, List.mem_cons_of_mem _ hkept, hfm⟩))
      · exact isFolder_iff.mpr (.inr (.inr hfile))
    · exact isFolder_iff.mpr (.inr (.inl ⟨m, List.mem_cons_self, .inl rfl⟩))

theorem grows_of_makeFolder (h : t.makeFolder p = .ok u) : t.Grows u := by
  obtain ⟨hfiles, l, hnothing, hfolder⟩ := isFolder_makeFolder h
  refine ⟨fun m => by rw [content?, content?, hfiles], fun m hm => (hfolder m).mpr (.inl hm),
    fun m hfile hm => ?_⟩
  rcases (hfolder m).mp hm with hm | rfl
  · exact hm
  · rw [hnothing] at hfile
    cases hfile

theorem grows_of_settleFolder (h : t.settleFolder p = .ok u) : t.Grows u := by
  unfold settleFolder at h
  split at h
  · rename_i hmake
    cases h
    exact grows_of_makeFolder hmake
  · split at h <;> cases h
    exact .refl t

/-- What is followed to the end leads through a folder before its last name. -/
theorem exists_follow_of_append {names : List String} {name : String}
    (h : t.follow l (names ++ [name]) = .ok m) :
    ∃ n, t.follow l names = .ok n ∧ t.isFolder n = true := by
  induction names generalizing l with
  | nil =>
      rw [List.nil_append, follow] at h
      split at h
      · rename_i hl
        exact ⟨l, rfl, hl⟩
      · split at h <;> cases h
  | cons next rest ih =>
      rw [List.cons_append, follow] at h
      rw [follow]
      split at h
      · rename_i hl
        rw [if_pos hl]
        split at h
        · cases h
        · rename_i hlength
          rw [if_neg hlength]
          exact ih h
      · split at h <;> cases h

/-- The folder of a path that leads somewhere stands already. -/
theorem settleFolder_parent (h : t.locate p = .ok l) : t.settleFolder p.parent = .ok t := by
  obtain ⟨hlength, hfollow⟩ := locate_eq_ok_iff.mp h
  have hparent : ∃ n, t.locate p.parent = .ok n ∧ t.isFolder n = true := by
    have hshort : ¬ pathLimit < p.parent.text.utf8ByteSize := by
      have hsize := p.utf8ByteSize_text_parent
      rw [pathLimit] at hlength ⊢
      omega
    simp only [locate_eq_ok_iff, and_assoc, exists_and_left]
    refine ⟨hshort, ?_⟩
    rcases List.eq_nil_or_concat p.names with hnil | ⟨names, name, hnames⟩
    · refine ⟨⟨p.root ≠ "", []⟩, ?_, isFolder_iff.mpr (.inl (by simp))⟩
      rw [Path.parent, hnil]
      rfl
    · rw [hnames, List.concat_eq_append] at hfollow
      rw [Path.parent, hnames, List.concat_eq_append, List.dropLast_concat]
      exact exists_follow_of_append hfollow
  obtain ⟨n, hn, hfolder⟩ := hparent
  have hmake : t.makeFolder p.parent = .error ⟨.exists, p.parent⟩ := by
    rw [makeFolder, hn]
    simp [bind, Except.bind, hfolder]
  rw [settleFolder, hmake]
  simp [hasFolder, hn, hfolder]

theorem locate_of_settleFolder (h : t.settleFolder p = .ok u) : ∃ l, t.locate p = .ok l := by
  unfold settleFolder at h
  split at h
  · rename_i hmake
    rw [makeFolder, bind_eq_ok_iff] at hmake
    obtain ⟨l, hl, -⟩ := hmake
    exact ⟨l, hl⟩
  · split at h
    · rename_i hstands
      unfold hasFolder at hstands
      cases hl : t.locate p with
      | ok l => exact ⟨l, rfl⟩
      | error e => simp [hl] at hstands
    · cases h

/-- If folders cannot be made, then the last one cannot be made after those that could. -/
theorem settleFolder_of_makeFoldersWithin {most : Nat} {way : Tree} {e : AccessError}
    (h : t.makeFoldersWithin p (most + 1) = (way, .error e)) :
    ∀ made, way.settleFolder p ≠ .ok made := by
  induction most generalizing p e with
  | zero =>
      unfold makeFoldersWithin at h
      split at h
      · cases h
      rename_i hsettle
      split at h
      · simp only [makeFoldersWithin] at h
        cases h
        rw [hsettle]
        nofun
      · cases h
        rw [hsettle]
        nofun
  | succ most ih =>
      unfold makeFoldersWithin at h
      split at h
      · cases h
      rename_i hsettle
      split at h
      · split at h
        · split at h
          · cases h
          · rename_i hagain
            cases h
            rw [hagain]
            nofun
        · -- The folder before the last one is still missing.
          rename_i hway
          cases h
          intro made hmade
          obtain ⟨l, hl⟩ := locate_of_settleFolder hmade
          exact ih hway way (settleFolder_parent hl)
      · cases h
        rw [hsettle]
        nofun

/-- Whether all folders could be made or not, files stay as they were. -/
theorem grows_makeFoldersWithin (t : Tree) (p : Path) (most : Nat) :
    t.Grows (t.makeFoldersWithin p most).1 := by
  induction most generalizing p with
  | zero => exact .refl t
  | succ most ih =>
      have hway := ih p.parent
      unfold makeFoldersWithin
      split
      · rename_i hmade
        exact grows_of_settleFolder hmade
      split
      · split
        · rename_i heq
          rw [heq] at hway
          split
          · rename_i hmade
            exact hway.trans (grows_of_settleFolder hmade)
          · exact hway
        · rename_i heq
          rw [heq] at hway
          exact hway
      · exact .refl t

theorem grows_makeFolders (t : Tree) (p : Path) : t.Grows (t.makeFolders p).1 :=
  grows_makeFoldersWithin t p wayLimit

/-- Where the folder of a path cannot be made, there is nothing to be read. -/
theorem read_of_makeFolders_error {way : Tree} {e : AccessError}
    (h : t.makeFolders p.parent = (way, .error e)) (found : List UInt8) :
    way.read p ≠ .ok found := by
  intro hread
  obtain ⟨l, hl, -⟩ := read_eq_ok_iff.mp hread
  exact settleFolder_of_makeFoldersWithin h way (settleFolder_parent hl)

/-- Whether a file can be written does not depend on what is written. -/
theorem exists_write_iff : (∃ u, t.write p bytes = .ok u) ↔
    ∃ l, t.locate p = .ok l ∧ t.isFolder l = false := by
  simp [write_eq_ok_iff]

/-- Where nothing can be written, there is nothing to be read. -/
theorem read_of_write_error {e : AccessError} (h : t.write p bytes = .error e)
    (found : List UInt8) : t.read p ≠ .ok found := by
  intro hread
  obtain ⟨l, hl, hfolder, -⟩ := read_eq_ok_iff.mp hread
  obtain ⟨u, hwrite⟩ := exists_write_iff.mpr ⟨l, hl, hfolder⟩
  rw [h] at hwrite
  cases hwrite

/-- Writing a file makes no folder and removes none. -/
theorem isFolder_write (h : t.write p bytes = .ok u) (m : Location) :
    u.isFolder m = true ↔ t.isFolder m = true := by
  obtain ⟨l, hl, -, rfl⟩ := write_eq_ok_iff.mp h
  constructor
  · intro hm
    rcases isFolder_iff.mp hm with hup | hfolder | ⟨f, hf, hencloses⟩
    · exact isFolder_iff.mpr (.inl hup)
    · exact isFolder_iff.mpr (.inr (.inl hfolder))
    · rcases List.mem_cons.mp hf with rfl | hf
      · exact reaches_of_locate hl m hencloses
      · exact isFolder_iff.mpr (.inr (.inr ⟨f, (List.mem_filter.mp hf).1, hencloses⟩))
  · intro hm
    rcases isFolder_iff.mp hm with hup | hfolder | ⟨f, hf, hencloses⟩
    · exact isFolder_iff.mpr (.inl hup)
    · exact isFolder_iff.mpr (.inr (.inl hfolder))
    · by_cases hsame : f.1 = l
      · rw [hsame] at hencloses
        exact isFolder_iff.mpr (.inr (.inr ⟨_, List.mem_cons_self, hencloses⟩))
      · have hkept : f ∈ t.files.filter (·.1 ≠ l) :=
          List.mem_filter.mpr ⟨hf, decide_eq_true hsame⟩
        exact isFolder_iff.mpr (.inr (.inr ⟨f, List.mem_cons_of_mem _ hkept, hencloses⟩))

/-- A file that was written is read back, and all other files stay. -/
theorem read_of_write (h : t.write p bytes = .ok u) :
    u.read p = .ok bytes ∧ ∃ l, u.locate p = .ok l ∧ ∀ m, m ≠ l → u.content? m = t.content? m := by
  obtain ⟨l, hl, hfolder, -⟩ := write_eq_ok_iff.mp h
  have hlocate : u.locate p = .ok l := locate_mono (fun m => (isFolder_write h m).mpr) hl
  have hfile : u.isFolder l = false := by
    rw [Bool.eq_false_iff, ne_eq, isFolder_write h l, hfolder]
    decide
  exact ⟨read_eq_ok_iff.mpr ⟨l, hlocate, hfile, content?_write hl h⟩, l, hlocate,
    fun m hm => content?_write_of_ne hl h hm⟩

end Tree

end Formwork.Files
