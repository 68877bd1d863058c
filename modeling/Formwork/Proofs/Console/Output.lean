import Formwork.Console.Transcript
import Formwork.Proofs.Files.Folders
import Formwork.Proofs.Resolution.Written

/-!
# The output of a resolution

A resolution is saved all or nothing. The file is emptied before the text for it is composed, but
by then the table of initial values was shown, and it has every value that the text has. So what
fails, fails before the file is touched, or leaves no file to be touched.

## Main results

* `ended_resolve`: what a call of a resolution leaves of its output, by the status that it ends
  with.
-/

namespace Formwork.Console

open Except Form

/-- The path leads to the same bytes as before, or to no file as before, and all files are as they
were. -/
structure Untouched (files after : Files.Tree) (path : Files.Path) : Prop where
  content : ∀ l, after.content? l = files.content? l
  read : (after.read path).toOption = (files.read path).toOption

/-- The file at the path holds the bytes, and all other files are as they were. -/
structure Written (files after : Files.Tree) (path : Files.Path) (bytes : List UInt8) : Prop where
  read : after.read path = .ok bytes
  others : ∃ l, after.locate path = .ok l ∧ ∀ m, m ≠ l → after.content? m = files.content? m

section Saving

variable {files after : Files.Tree} {path : Files.Path} {r : Resolution}

theorem untouched_self (files : Files.Tree) (path : Files.Path) : Untouched files files path :=
  ⟨fun _ => rfl, rfl⟩

/-- Where only folders were made and no file can be read, there was none to be read before. -/
theorem untouched_of_grows (h : files.Grows after) (hread : ∀ bytes, after.read path ≠ .ok bytes) :
    Untouched files after path where
  content := h.content
  read := by
    cases hafter : after.read path with
    | ok bytes => exact absurd hafter (hread bytes)
    | error e =>
        cases hbefore : files.read path with
        | ok bytes => exact absurd (h.read hbefore) (hread bytes)
        | error e => rfl

variable [Host]

/-- A resolution whose values were shown has a written form. -/
theorem exists_toJson?_of_resolutionLines {options : Options} {initial : Overrides}
    {source : Source} (h : Resolves options initial source r) {showTree : Bool}
    {lines : List String} (hlines : resolutionLines showTree r = (lines, true)) :
    ∃ j, r.toJson? = some j := by
  have hvalues : ∃ members, InitialValues.toMembers? r.values = some members := by
    unfold resolutionLines at hlines
    split at hlines
    · cases hlines
    split at hlines
    · cases hlines
    · rename_i hshown
      obtain ⟨members, hmembers, -⟩ := Option.bind_eq_some_iff.mp hshown
      exact ⟨members, hmembers⟩
  refine h.exists_toJson?_iff.mpr fun key d hd => ?_
  have hmem : (key, InitialValue.date d) ∈ r.values := Entries.mem_of_get? hd
  exact InitialValue.exists_toJson?_iff.mp
    (InitialValues.exists_toMembers?_iff.mp hvalues _ hmem) d rfl

omit [Host] in
/-- A resolution that has a written form is saved in it, or no file is touched. -/
theorem save_cases (files : Files.Tree) (path : Files.Path) {j : Json} (hj : r.toJson? = some j) :
    (∃ after message, save files path r = (after, .error message) ∧ Untouched files after path) ∨
    ∃ after, save files path r = (after, .ok ()) ∧
      Written files after path (fileBytes (j.render Json.indented)) := by
  have hgrows := files.grows_makeFolders path.parent
  unfold save
  split
  · rename_i made e hmade
    rw [hmade] at hgrows
    have hread := Files.Tree.read_of_makeFolders_error hmade
    exact .inl ⟨made, _, rfl, untouched_of_grows hgrows hread⟩
  · rename_i made hmade
    rw [hmade] at hgrows
    split
    · rename_i e hempty
      have hread := Files.Tree.read_of_write_error hempty
      exact .inl ⟨made, _, rfl, untouched_of_grows hgrows hread⟩
    · rename_i emptied hempty
      obtain ⟨written, hwritten⟩ : ∃ written,
          made.write path (fileBytes (j.render Json.indented)) = .ok written :=
        Files.Tree.exists_write_iff.mpr (Files.Tree.exists_write_iff.mp ⟨emptied, hempty⟩)
      obtain ⟨hread, l, hl, hothers⟩ := Files.Tree.read_of_write hwritten
      simp only [hj, hwritten]
      exact .inr ⟨written, rfl, hread, l, hl, fun m hm => (hothers m hm).trans (hgrows.content m)⟩

end Saving

section

variable [Host]

/-- The status that a call ends with, and the files afterwards. Wrong use has a status of its own
and touches no file. -/
def ended (files : Files.Tree) (arguments : List String) : Nat × Files.Tree :=
  match call files arguments with
  | .error _ => (2, files)
  | .ok transcript => (transcript.status, transcript.files)

/-- The texts that a call names are read and resolved. -/
def Resolved (files : Files.Tree) (call : ResolveCall) (r : Resolution) : Prop :=
  ∃ text initial, loadInput files call = .ok (text, initial) ∧
    (resolveSource call.options initial (.text text)).outcome = .ok (.ok r)

/-- What a call of a resolution leaves: its output holds the written form of the resolution if the
status is zero, and is as it was before if not. Without an output no file is touched. -/
structure AllOrNothing (files after : Files.Tree) (call : ResolveCall) (status : Nat) : Prop where
  unnamed : call.output = none → after = files
  failed : status ≠ 0 → ∀ output, call.output = some output → Untouched files after (.tidy output)
  succeeded : status = 0 → ∃ r j, Resolved files call r ∧ r.toJson? = some j ∧
    ∀ output, call.output = some output →
      Written files after (.tidy output) (fileBytes (j.render Json.indented))

section Ending

variable {files : Files.Tree} {call : ResolveCall} {r : Resolution}

theorem allOrNothing_self {status : Nat} (h : status ≠ 0) :
    AllOrNothing files files call status where
  unnamed _ := rfl
  failed _ output _ := untouched_self files (.tidy output)
  succeeded hzero := absurd hzero h

omit [Host] in
theorem obj_of_loadValues {path : Files.Path} {j : Json} (h : loadValues files path = .ok j) :
    ∃ members, j = .obj members := by
  rw [loadValues, bind_eq_ok_iff] at h
  obtain ⟨text, -, h⟩ := h
  rw [bind_eq_ok_iff] at h
  obtain ⟨value, -, h⟩ := h
  cases value with
  | obj members =>
      cases h
      exact ⟨members, rfl⟩
  | _ => cases h

omit [Host] in
/-- The initial values that a call names are members of an object. -/
theorem exists_overrides_of_loadInput {text : String} {initial : Option Json}
    (h : loadInput files call = .ok (text, initial)) :
    ∃ overrides : Overrides, initial = overrides.map .obj := by
  rw [loadInput, bind_eq_ok_iff] at h
  obtain ⟨chars, -, h⟩ := h
  cases hinitial : call.initial with
  | none =>
      rw [hinitial] at h
      cases h
      exact ⟨none, rfl⟩
  | some path =>
      rw [hinitial] at h
      dsimp only at h
      rw [bind_eq_ok_iff] at h
      obtain ⟨loaded, hloaded, h⟩ := h
      cases h
      obtain ⟨values, hvalues, rfl⟩ := map_eq_ok_iff.mp hloaded
      obtain ⟨members, rfl⟩ := obj_of_loadValues hvalues
      exact ⟨some members, rfl⟩

theorem Resolved.exists_toJson? (h : Resolved files call r) {showTree : Bool}
    {lines : List String} (hlines : resolutionLines showTree r = (lines, true)) :
    ∃ j, r.toJson? = some j := by
  obtain ⟨text, initial, hload, hresolve⟩ := h
  obtain ⟨overrides, rfl⟩ := exists_overrides_of_loadInput hload
  exact exists_toJson?_of_resolutionLines (resolves_of_resolveSource hresolve) hlines

theorem allOrNothing_finish (h : Resolved files call r) (initial : Option Json)
    (opening : List String) :
    AllOrNothing files (finish files call initial opening r).files call
      (finish files call initial opening r).status := by
  unfold finish
  split
  · exact allOrNothing_self Nat.one_ne_zero
  · rename_i lines hlines
    obtain ⟨j, hj⟩ := h.exists_toJson? hlines
    split
    · rename_i hnone
      exact ⟨fun _ => rfl, fun hzero => absurd rfl hzero,
        fun _ => ⟨r, j, h, hj, fun output houtput => by rw [hnone] at houtput; cases houtput⟩⟩
    · rename_i output houtput
      have hnamed : ∀ other, call.output = some other → output = other := by
        intro other hother
        rw [houtput] at hother
        exact Option.some.inj hother
      have hunnamed : call.output ≠ none := by
        rw [houtput]
        exact Option.some_ne_none output
      rcases save_cases files (.tidy output) hj with
        ⟨after, message, hsave, huntouched⟩ | ⟨after, hsave, hwritten⟩
      · simp only [hsave]
        refine ⟨fun hnone => absurd hnone hunnamed, fun _ other hother => ?_,
          fun hzero => absurd hzero Nat.one_ne_zero⟩
        rw [← hnamed other hother]
        exact huntouched
      · simp only [hsave]
        refine ⟨fun hnone => absurd hnone hunnamed, fun hzero => absurd rfl hzero,
          fun _ => ⟨r, j, h, hj, fun other hother => ?_⟩⟩
        rw [← hnamed other hother]
        exact hwritten

theorem allOrNothing_resolve (files : Files.Tree) (call : ResolveCall) :
    AllOrNothing files (resolve files call).files call (resolve files call).status := by
  unfold resolve
  split
  · exact allOrNothing_self Nat.one_ne_zero
  · rename_i text initial hload
    split
    · exact allOrNothing_self Nat.one_ne_zero
    · exact allOrNothing_self Nat.one_ne_zero
    · rename_i r hresolve
      exact allOrNothing_finish ⟨text, initial, hload, hresolve⟩ _ _

/-- A call of a resolution is all or nothing on its output, and whatever it shows of the resolution,
with or without the tree, the written form cannot be what is missing after that. -/
theorem ended_resolve (files : Files.Tree) {arguments : List String}
    (h : Command.ofArguments arguments = .ok (.resolve call)) :
    AllOrNothing files (ended files arguments).2 call (ended files arguments).1 ∧
    ∀ r showTree lines, Resolved files call r → resolutionLines showTree r = (lines, true) →
      ∃ j, r.toJson? = some j := by
  refine ⟨?_, fun r showTree lines hr hlines => hr.exists_toJson? hlines⟩
  cases hmissing : (Command.resolve call).missingFile? files with
  | some e =>
      have hcall : Console.call files arguments = .error e := by
        simp only [Console.call, h, bind, Except.bind, hmissing]
      rw [ended, hcall]
      exact allOrNothing_self (Nat.succ_ne_zero 1)
  | none =>
      have hcall : Console.call files arguments = .ok (resolve files call) := by
        simp only [Console.call, h, bind, Except.bind, hmissing]
        rfl
      rw [ended, hcall]
      exact allOrNothing_resolve files call

end Ending

end

/-- A file with a form of the fields. -/
def savingFiles (fields : String) : Files.Tree :=
  ⟨[(⟨false, ["form.json"]⟩, fileBytes ("\x7b\"fields\":[" ++ fields ++ "]\x7d"))], []⟩

/-- A date field whose default has an offset of a whole day from UTC. -/
def savingDate : String :=
  "\x7b\"name\":\"d\",\"type\":\"date\",\"defaultValue\":\"1/1 1:0+24:0\"\x7d"

/-- The arguments of a resolution with an output in a folder that is not there. -/
def savingArguments : List String :=
  ["resolve", "--schema", "form.json", "--output", "out/resolved.json"]

/-- What the arguments ask for. -/
def savingCall : ResolveCall :=
  ⟨"form.json", none, some "out/resolved.json", none, true⟩

attribute [local instance] Host.standard in
/-- A form without fields is saved, and one with a date whose offset reaches a day is not, without
a trace. -/
theorem ended_resolve_saving :
    Command.ofArguments savingArguments = .ok (.resolve savingCall) ∧
    (∃ r j, Resolved (savingFiles "") savingCall r ∧ r.toJson? = some j ∧
      Written (savingFiles "") (ended (savingFiles "") savingArguments).2
        (.tidy "out/resolved.json") (fileBytes (j.render Json.indented))) ∧
    Untouched (savingFiles savingDate) (ended (savingFiles savingDate) savingArguments).2
      (.tidy "out/resolved.json") := by
  have hcommand : Command.ofArguments savingArguments = .ok (.resolve savingCall) :=
    toOption_eq_some_iff.mp (by decide +kernel)
  have hzero : (ended (savingFiles "") savingArguments).1 = 0 := by decide +kernel
  have hone : (ended (savingFiles savingDate) savingArguments).1 ≠ 0 := by decide +kernel
  obtain ⟨⟨-, -, hsucceeded⟩, -⟩ := ended_resolve (savingFiles "") hcommand
  obtain ⟨⟨-, hfailed, -⟩, -⟩ := ended_resolve (savingFiles savingDate) hcommand
  obtain ⟨r, j, hr, hj, hwritten⟩ := hsucceeded hzero
  exact ⟨hcommand, ⟨r, j, hr, hj, hwritten _ rfl⟩, hfailed hone _ rfl⟩

end Formwork.Console
