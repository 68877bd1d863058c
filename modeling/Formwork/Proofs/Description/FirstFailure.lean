import Formwork.Proofs.Description.Document
import Formwork.Proofs.Description.Interruption
import Formwork.Proofs.Description.Localization
import Mathlib.Data.Nat.Find
import Mathlib.Order.Bounds.Defs

/-!
# The first failure of a document

The descriptions of a document are verified in order, and the first one that is refused or repeats a
name decides: the document fails as that description does, whatever comes after it. Only a document
without such a description comes to its layout. A failure that does not say where it is gets the
index of its description for a path, so no failure of a field is without one.

## Main results

* `verifyParts_first_failure`: what a document fails for, or the form that it gives.
-/

namespace Formwork

theorem along_ne {path : String} (h : path ≠ "") (way : List Enclosure) : along path way ≠ "" := by
  induction way generalizing path with
  | nil => exact h
  | cons enclosure way ih =>
      rw [along, List.foldl_cons, ← Field.joinPath_of_ne h]
      exact ih (Field.joinPath_ne h enclosure.key)

theorem Failure.path_enclosed (way : List Enclosure) (e : Failure) :
    (e.enclosed way).path = e.path := by
  cases e <;> rfl

namespace Description

open Formwork.Field (verifyAt)

theorem IsOwn.path {path : String} {n : Json} {e : Failure} (h : IsOwn path n e) :
    ∃ suffix, e.path = some (path ++ suffix) := by
  cases h with
  | nesting => exact ⟨"", by rw [String.append_empty]; rfl⟩
  | flaw => exact ⟨_, rfl⟩

variable [Host]

/-- A named description is verified at its name. -/
theorem verifyAt_none {level : Nat} (hlevel : level ≤ 32) {ms : Checked.Members} {name : String}
    (hname : Field.nameOf? ms = some name) :
    verifyAt level none (.obj ms) = verifyAt level (some name) (.obj ms) := by
  rw [Field.verifyAt_eq_verifyNode hlevel, Field.verifyAt_eq_verifyNode hlevel]
  simp only [Field.verifyNode, hname, Option.getD_none, Option.getD_some]

/-- A failure of a description has a path, unless the description does not tell its name. -/
theorem path_of_verify {n : Json} {e : Failure}
    (h : (Field.verify none n).outcome = .error (.failure e)) :
    (∃ path, e.path = some path ∧ path ≠ "") ∨ ∃ f, e = .field f ∧ f.path = none := by
  cases n with
  | obj ms =>
      cases hname : Field.nameOf? ms with
      | none =>
          have hnode : (Field.verify none (.obj ms)).outcome =
              .error (.failure (.field ⟨none, [], "", .noName⟩)) := by
            rw [Field.verify, Field.verifyBelow, Field.verifyNode, hname]
            rfl
          rw [hnode] at h
          cases h
          exact .inr ⟨_, rfl, rfl⟩
      | some name =>
          have hne : name ≠ "" := (Field.nameOf?_eq_some_iff.mp hname).2
          have hname : Field.verify none (.obj ms) = verifyAt 0 (some name) (.obj ms) :=
            verifyAt_none (Nat.zero_le _) hname
          rw [hname] at h
          obtain ⟨way, last, own, -, -, hown, rfl⟩ := exists_leads (Nat.zero_add 33) hne h
          obtain ⟨suffix, hpath⟩ := hown.path
          refine .inl ⟨along name way ++ suffix, (Failure.path_enclosed way own).trans hpath, ?_⟩
          intro hempty
          exact along_ne hne way (String.append_eq_empty_iff.mp hempty).1
  | _ =>
      cases h
      exact .inr ⟨_, rfl, rfl⟩

end Description

namespace Form

open Checked (Members)

variable {index i : Nat} {seen : List String} {n : Json} {nodes before rest : List Json}
  {f : Field} {fields : List Field}

section

variable [Host]

/-- The description gives the field on its own. -/
def Gives (n : Json) (f : Field) : Prop :=
  (Field.verify none n).outcome = .ok f

/-- The description at the index is refused, or the field that it gives has the name of one that
comes before it. -/
def StopsAt (nodes : List Json) (i : Nat) : Prop :=
  ∃ n, nodes[i]? = some n ∧ ((∃ stop, (Field.verify none n).outcome = .error stop) ∨
    ∃ f, Gives n f ∧ ∃ j < i, ∃ m g, nodes[j]? = some m ∧ Gives m g ∧ g.name = f.name)

/-- The document fails as the description at the index does: with its failure, at the index if that
has no path, with its fault, or with the name that it repeats. -/
structure FailsAt (document : Json) (i : Nat) (n : Json) : Prop where
  failure : ∀ own, (Field.verify none n).outcome = .error (.failure own) →
    ∃ e, (verifyParts document).outcome = .error (.failure e) ∧ e.kind = own.kind ∧
      e.message = own.message ∧ e.path = some (own.path.getD ("fields[" ++ Number.shown i ++ "]"))
  fault : ∀ fault, (Field.verify none n).outcome = .error (.fault fault) →
    (verifyParts document).outcome = .error (.fault fault)
  repeated : ∀ f, Gives n f →
    ∃ e, (verifyParts document).outcome = .error (.failure e) ∧ e.kind = "field" ∧
      e.message = "Duplicate field name " ++ f.name ∧ e.path = some f.name

/-- The layout of a document without a failure in its fields decides: the document fails as the
layout does, or gives the form of the fields, each of which is found by its name. -/
structure ComesTo (ms : Members) (fields : List Field) : Prop where
  failure : ∀ flaw, Layout.verify ((Entries.get? ms "layout").getD .null) = .error flaw →
    (verifyParts (.obj ms)).outcome = .error (.failure (.shape flaw none))
  form : ∀ layout, Layout.verify ((Entries.get? ms "layout").getD .null) = .ok layout →
    (verifyParts (.obj ms)).outcome = .ok ⟨fields, layout⟩
  found : ∀ layout, ∀ f ∈ fields, Form.field? ⟨fields, layout⟩ f.name = some f

/-- The first description decides if it is refused. -/
theorem verifyFields_of_error {stop : Stop}
    (h : (Field.verify none n).outcome = .error stop) :
    (verifyFields index seen (n :: rest)).outcome = .error (placed index stop) := by
  rw [verifyFields, Audit.outcome_bind_eq_error_iff, Audit.outcome_mapError, h]
  exact .inl rfl

/-- The first description decides if the name of its field was seen before. -/
theorem verifyFields_of_seen (h : Gives n f) (hseen : f.name ∈ seen) :
    (verifyFields index seen (n :: rest)).outcome =
      .error (.failure (Field.ownFailure f.name f.name .duplicateName)) := by
  rw [verifyFields, Audit.outcome_bind_eq_error_iff]
  refine .inr ⟨f, mapError_eq_ok_iff.mpr h, ?_⟩
  rw [if_pos (List.contains_iff_mem.mpr hseen)]
  rfl

/-- A field with a new name is kept, and the others are verified with this name among those that
were seen. -/
theorem verifyFields_of_gives (h : Gives n f) (hnew : f.name ∉ seen) :
    (verifyFields index seen (n :: rest)).outcome =
      (f :: ·) <$> (verifyFields (index + 1) (f.name :: seen) rest).outcome := by
  have hn : ((Field.verify none n).mapError (placed index)).outcome = .ok f :=
    mapError_eq_ok_iff.mpr h
  rw [verifyFields, Audit.outcome_bind, hn]
  show Audit.outcome (if seen.contains f.name = true then _ else _) = _
  rw [if_neg (by simpa using hnew), Audit.outcome_bind]
  cases (verifyFields (index + 1) (f.name :: seen) rest).outcome <;> rfl

/-- Fields with new names are kept, and the descriptions after them decide. -/
theorem verifyFields_append (h : List.Forall₂ Gives before fields)
    (hnodup : (fields.map Field.name).Nodup) (hnew : ∀ f ∈ fields, f.name ∉ seen) :
    (verifyFields index seen (before ++ rest)).outcome =
      (fields ++ ·) <$> (verifyFields (index + before.length)
        ((fields.map Field.name).reverse ++ seen) rest).outcome := by
  induction h generalizing index seen with
  | nil => simp
  | @cons n f before fields hf _ ih =>
      obtain ⟨hf', hnodup, hnew⟩ := nodup_names_cons_iff.mp ⟨hnodup, hnew⟩
      rw [List.cons_append, verifyFields_of_gives hf hf', ih hnodup hnew, List.length_cons,
        List.map_cons, List.reverse_cons, List.append_assoc, Nat.add_right_comm, Nat.add_assoc,
        Functor.map_map]
      rfl

/-- What a document fails for in its fields, it fails for. -/
theorem verifyParts_of_error (hfields : Entries.get? ms "fields" = some (.arr nodes)) {stop : Stop}
    (h : (verifyFields 0 [] nodes).outcome = .error stop) :
    (verifyParts (.obj ms)).outcome = .error stop := by
  simp only [verifyParts, hfields]
  exact Audit.outcome_bind_eq_error_iff.mpr (.inl h)

/-- After the fields the layout decides. -/
theorem verifyParts_of_ok (hfields : Entries.get? ms "fields" = some (.arr nodes))
    (h : (verifyFields 0 [] nodes).outcome = .ok fields) :
    (verifyParts (.obj ms)).outcome =
      match Layout.verify ((Entries.get? ms "layout").getD .null) with
      | .error flaw => .error (.failure (.shape flaw none))
      | .ok layout => .ok ⟨fields, layout⟩ := by
  simp only [verifyParts, hfields, Audit.outcome_bind, h]
  cases Layout.verify ((Entries.get? ms "layout").getD .null) <;> rfl

/-- A field of descriptions before an index is given by one of them. -/
theorem exists_earlier (h : List.Forall₂ Gives (nodes.take i) fields) {g : Field} (hg : g ∈ fields)
    {name : String} (hname : g.name = name) :
    ∃ j < i, ∃ m g, nodes[j]? = some m ∧ Gives m g ∧ g.name = name := by
  obtain ⟨m, hm, hgives⟩ := exists_left_of_mem h g hg
  obtain ⟨j, hj⟩ := List.mem_iff_getElem?.mp hm
  rw [List.getElem?_take] at hj
  split at hj
  · rename_i hlt
    exact ⟨j, hlt, m, g, hj, hgives, hname⟩
  · cases hj

/-- If a description that gives a field stops the verification, the name is that of a field that
comes before. -/
theorem name_mem_of_stops (h : List.Forall₂ Gives (nodes.take i) fields) (hf : Gives n f)
    (hstops : (∃ stop, (Field.verify none n).outcome = .error stop) ∨
      ∃ f, Gives n f ∧ ∃ j < i, ∃ m g, nodes[j]? = some m ∧ Gives m g ∧ g.name = f.name) :
    f.name ∈ fields.map Field.name := by
  rcases hstops with ⟨stop, hstop⟩ | ⟨f', hf', j, hj, m, g, hm, hg, hname⟩
  · rw [hf] at hstop
    cases hstop
  · obtain rfl : f = f' := Except.ok.inj (hf.symm.trans hf')
    have hmem : m ∈ nodes.take i :=
      List.mem_of_getElem? ((List.getElem?_take_of_lt hj).trans hm)
    obtain ⟨g', hg', hgives⟩ := exists_right_of_mem h m hmem
    obtain rfl : g = g' := Except.ok.inj (hg.symm.trans hgives)
    exact List.mem_map.mpr ⟨g, hg', hname⟩

/-- Descriptions none of which stops the verification give fields with different names. -/
theorem exists_fields_of_not_stopsAt (hi : i ≤ nodes.length) (h : ∀ j < i, ¬ StopsAt nodes j) :
    ∃ fields, List.Forall₂ Gives (nodes.take i) fields ∧ (fields.map Field.name).Nodup := by
  induction i with
  | zero => exact ⟨[], .nil, List.nodup_nil⟩
  | succ i ih =>
      obtain ⟨fields, hall, hnodup⟩ := ih (by omega) fun j hj => h j (by omega)
      have hstops : ¬ StopsAt nodes i := h i (Nat.lt_succ_self i)
      have hn : nodes[i]? = some nodes[i] := List.getElem?_eq_getElem (by omega)
      cases hverify : (Field.verify none nodes[i]).outcome with
      | error stop => exact absurd ⟨_, hn, .inl ⟨stop, hverify⟩⟩ hstops
      | ok f =>
          refine ⟨fields ++ [f], ?_, ?_⟩
          · rw [List.take_succ_eq_append_getElem (by omega)]
            exact List.rel_append hall (.cons hverify .nil)
          · have hnew : f.name ∉ fields.map Field.name := by
              intro hmem
              obtain ⟨g, hg, hname⟩ := List.mem_map.mp hmem
              exact hstops ⟨_, hn, .inr ⟨f, hverify, exists_earlier hall hg hname⟩⟩
            rw [List.map_append, List.map_singleton, (List.perm_append_singleton _ _).nodup_iff]
            exact List.nodup_cons.mpr ⟨hnew, hnodup⟩

/-- A failure of a description is placed: it keeps its kind and message, and gets a path if it has
none. -/
theorem placed_failure {own : Failure}
    (h : (Field.verify none n).outcome = .error (.failure own)) :
    ∃ e, placed i (.failure own) = .failure e ∧ e.kind = own.kind ∧ e.message = own.message ∧
      e.path = some (own.path.getD ("fields[" ++ Number.shown i ++ "]")) := by
  cases own with
  | field f => exact ⟨_, rfl, rfl, rfl, rfl⟩
  | _ =>
      rcases Description.path_of_verify h with ⟨path, hpath, -⟩ | ⟨f, hf, -⟩
      · exact ⟨_, rfl, rfl, rfl, by rw [hpath, Option.getD_some]⟩
      · cases hf

/-- The first description that stops the verification decides. -/
theorem failsAt_of_isLeast (hfields : Entries.get? ms "fields" = some (.arr nodes))
    (h : IsLeast {i | StopsAt nodes i} i) : ∃ n, nodes[i]? = some n ∧ FailsAt (.obj ms) i n := by
  obtain ⟨⟨n, hn, hstops⟩, hleast⟩ := h
  obtain ⟨hi, rfl⟩ := List.getElem?_eq_some_iff.mp hn
  obtain ⟨fields, hall, hnodup⟩ := exists_fields_of_not_stopsAt (Nat.le_of_lt hi)
    fun j hj hstop => absurd (hleast hstop) (Nat.not_le.mpr hj)
  have hlength : (nodes.take i).length = i := List.length_take_of_le (Nat.le_of_lt hi)
  have hrun : (verifyFields 0 [] nodes).outcome = (fields ++ ·) <$> (verifyFields i
      (fields.map Field.name).reverse (nodes[i] :: nodes.drop (i + 1))).outcome := by
    have happend : (verifyFields 0 [] (nodes.take i ++ nodes.drop i)).outcome = _ :=
      verifyFields_append hall hnodup (by simp)
    rwa [List.take_append_drop, hlength, Nat.zero_add, List.append_nil,
      List.drop_eq_getElem_cons hi] at happend
  have herror : ∀ {stop}, (Field.verify none nodes[i]).outcome = .error stop →
      (verifyParts (.obj ms)).outcome = .error (placed i stop) := by
    intro stop hstop
    refine verifyParts_of_error hfields ?_
    rw [hrun, verifyFields_of_error hstop]
    rfl
  refine ⟨_, hn, fun own hown => ?_, fun fault hfault => herror hfault, fun f hf => ?_⟩
  · obtain ⟨e, he, hkept⟩ := placed_failure (i := i) hown
    exact ⟨e, he ▸ herror hown, hkept⟩
  · have hseen : f.name ∈ (fields.map Field.name).reverse :=
      List.mem_reverse.mpr (name_mem_of_stops hall hf hstops)
    refine ⟨.field ⟨some f.name, [], f.name, .duplicateName⟩, verifyParts_of_error hfields ?_,
      rfl, rfl, rfl⟩
    rw [hrun, verifyFields_of_seen hf hseen, Field.ownFailure_of_no_suffix rfl]
    rfl

omit [Host] in
/-- Of fields with different names, each is found by its name. -/
theorem field?_name (hnodup : (fields.map Field.name).Nodup) (layout : Option Layout)
    (hf : f ∈ fields) : Form.field? ⟨fields, layout⟩ f.name = some f := by
  unfold field?
  induction fields with
  | nil => cases hf
  | cons g rest ih =>
      obtain ⟨hg, hnodup⟩ := List.nodup_cons.mp hnodup
      rcases List.mem_cons.mp hf with rfl | hf
      · exact List.find?_cons_of_pos (beq_self_eq_true _)
      · have hne : g.name ≠ f.name := fun h => hg (h ▸ List.mem_map_of_mem hf)
        rw [List.find?_cons_of_neg (by simpa using hne)]
        exact ih hnodup hf

/-- If no description stops the verification, the layout decides. -/
theorem comesTo_of_not_stopsAt (hfields : Entries.get? ms "fields" = some (.arr nodes))
    (h : ∀ i, ¬ StopsAt nodes i) :
    ∃ fields, List.Forall₂ Gives nodes fields ∧ (fields.map Field.name).Nodup ∧
      ComesTo ms fields := by
  obtain ⟨fields, hall, hnodup⟩ := exists_fields_of_not_stopsAt (Nat.le_refl _) fun j _ => h j
  rw [List.take_length] at hall
  have hrun : (verifyFields 0 [] nodes).outcome = .ok fields := by
    have hrun : (verifyFields 0 [] (nodes ++ [])).outcome = _ :=
      verifyFields_append hall hnodup (by simp)
    rw [List.append_nil] at hrun
    rw [hrun, verifyFields]
    exact congrArg Except.ok (List.append_nil fields)
  have hparts := verifyParts_of_ok hfields hrun
  refine ⟨fields, hall, hnodup, fun flaw hflaw => ?_, fun layout hlayout => ?_, ?_⟩
  · rw [hparts, hflaw]
  · rw [hparts, hlayout]
  · exact fun layout f hf => field?_name hnodup layout hf

theorem Gives.name_ne (h : Gives n f) : f.name ≠ "" := by
  obtain ⟨hn, -⟩ := Field.verify_eq_ok_iff.mp h
  cases hn with
  | leaf _ attributes => exact attributes.name_ne
  | array _ attributes => exact attributes.name_ne
  | object _ attributes => exact attributes.name_ne

/-- A failure of a field that a document has at one of its descriptions tells a path. -/
theorem FailsAt.path {document : Json} (h : FailsAt document i n) {e : FieldFailure}
    (he : (verifyParts document).outcome = .error (.failure (.field e))) :
    ∃ path, e.path = some path ∧ path ≠ "" := by
  cases hverify : (Field.verify none n).outcome with
  | ok f =>
      obtain ⟨e', he', -, -, hpath⟩ := h.repeated f hverify
      cases he.symm.trans he'
      exact ⟨_, hpath, Gives.name_ne hverify⟩
  | error stop =>
      cases stop with
      | fault fault => cases he.symm.trans (h.fault fault hverify)
      | failure own =>
          obtain ⟨e', he', -, -, hpath⟩ := h.failure own hverify
          cases he.symm.trans he'
          refine ⟨_, hpath, ?_⟩
          rcases Description.path_of_verify hverify with ⟨path, hown, hne⟩ | ⟨f, rfl, hnone⟩
          · rwa [hown, Option.getD_some]
          · rw [Failure.path, hnone, Option.getD_none]
            simp

/-- A failure of a field that ends the verification of a document tells a path. -/
theorem path_of_verifyParts {document : Json} {e : FieldFailure}
    (h : (verifyParts document).outcome = .error (.failure (.field e))) :
    ∃ path, e.path = some path ∧ path ≠ "" := by
  have hlist : ∃ ms nodes, document = .obj ms ∧
      Entries.get? ms "fields" = some (.arr nodes) := by
    unfold verifyParts at h
    split at h
    · split at h
      · exact ⟨_, _, rfl, by assumption⟩
      · cases h
    · cases h
  obtain ⟨ms, nodes, rfl, hfields⟩ := hlist
  by_cases hstops : ∃ i, StopsAt nodes i
  · classical
    have hleast : IsLeast {i | StopsAt nodes i} (Nat.find hstops) :=
      ⟨Nat.find_spec hstops, fun i hi => Nat.find_min' hstops hi⟩
    obtain ⟨n, -, hfails⟩ := failsAt_of_isLeast hfields hleast
    exact hfails.path h
  · obtain ⟨fields, -, -, hcomes⟩ := comesTo_of_not_stopsAt hfields (not_exists.mp hstops)
    cases hlayout : Layout.verify ((Entries.get? ms "layout").getD .null) with
    | error flaw => cases h.symm.trans (hcomes.failure flaw hlayout)
    | ok layout => cases h.symm.trans (hcomes.form layout hlayout)

/-- A source is refused if it holds no document, and for what the verification of its document
fails for. -/
theorem verify_eq_failure_iff {source : Source} {e : Failure} :
    (verify source).outcome = .ok (.error e) ↔
      (∃ reason, source.load = .error reason ∧ e = .malformed) ∨
        ∃ document, source.load = .ok document ∧
          (verifyDocument document).outcome = .error (.failure e) := by
  have hx : (documentOf source >>= verifyDocument).outcome = .error (.failure e) ↔
      (∃ reason, source.load = .error reason ∧ e = .malformed) ∨
        ∃ document, source.load = .ok document ∧
          (verifyDocument document).outcome = .error (.failure e) := by
    simp only [Audit.outcome_bind_eq_error_iff, outcome_documentOf, mapError_eq_ok_iff,
      mapError_eq_error_iff, Stop.failure.injEq, @eq_comm _ Failure.malformed]
  rw [← hx]
  simp only [verify]
  cases (documentOf source >>= verifyDocument).outcome with
  | ok form => simp
  | error stop => cases stop <;> simp

/-- Only failures of the shape are made of what ends the verification of the parts. -/
theorem verifyDocument_eq_field_iff {document : Json} {e : FieldFailure} :
    (verifyDocument document).outcome = .error (.failure (.field e)) ↔
      (verifyParts document).outcome = .error (.failure (.field e)) := by
  rw [verifyDocument, Audit.outcome_mapError, mapError_eq_error_iff]
  constructor
  · rintro ⟨⟨f⟩ | ⟨_ | _⟩, hstop, h⟩ <;> cases h
    exact hstop
  · exact fun h => ⟨_, h, rfl⟩

/-- A document with a list of fields fails as the first of its descriptions that is refused or
repeats a name does. Without such a description it comes to its layout, and the fields of the form
have different names, by which they are found. So every failure of a field that is reported has a
path. -/
theorem verifyParts_first_failure :
    (∀ ms nodes, Entries.get? ms "fields" = some (.arr nodes) →
      (∀ i, IsLeast {i | StopsAt nodes i} i → ∃ n, nodes[i]? = some n ∧ FailsAt (.obj ms) i n) ∧
      ((∀ i, ¬ StopsAt nodes i) → ∃ fields, List.Forall₂ Gives nodes fields ∧
        (fields.map Field.name).Nodup ∧ ComesTo ms fields)) ∧
    ∀ source e, (verify source).outcome = .ok (.error e) → e.kind = "field" →
      ∃ path, e.path = some path ∧ path ≠ "" := by
  refine ⟨fun ms nodes hfields => ⟨fun i h => failsAt_of_isLeast hfields h,
    fun h => comesTo_of_not_stopsAt hfields h⟩, fun source e h hkind => ?_⟩
  cases e with
  | field e =>
      rcases verify_eq_failure_iff.mp h with ⟨_, -, he⟩ | ⟨document, -, hdocument⟩
      · cases he
      · exact path_of_verifyParts (verifyDocument_eq_field_iff.mp hdocument)
  | _ => simp [Failure.kind] at hkind

end

/-- A description of a text. -/
def noteText : Json :=
  .obj [("name", .str "note"), ("type", .str "string")]

/-- A document with a description without a name, before one that repeats a name and a layout that
is none. -/
def unnamedDocument : Checked.Members :=
  [("fields", .arr [noteText, .obj [("type", .str "string")], noteText]), ("layout", .str "wide")]

/-- The text of the document. -/
def unnamedSource : Source :=
  .text ("\x7b\"fields\": [\x7b\"name\": \"note\", \"type\": \"string\"\x7d, "
    ++ "\x7b\"type\": \"string\"\x7d, \x7b\"name\": \"note\", \"type\": \"string\"\x7d], "
    ++ "\"layout\": \"wide\"\x7d")

attribute [local instance] Host.standard in
/-- The description without a name decides, and the failure is placed by its index. With the first
description alone, the layout does. -/
theorem verifyParts_unnamed :
    IsLeast {i | StopsAt [noteText, .obj [("type", .str "string")], noteText] i} 1 ∧
    (∃ e, (verifyParts (.obj unnamedDocument)).outcome = .error (.failure e) ∧
      e.path = some "fields[1]") ∧
    (verifyParts (.obj [("fields", .arr [noteText]), ("layout", .str "wide")])).outcome =
      .error (.failure (.shape .layoutNotObject none)) ∧
    ∃ e, (verify unnamedSource).outcome = .ok (.error e) ∧ e.kind = "field" ∧
      ∃ path, e.path = some path ∧ path ≠ "" := by
  have hleast : IsLeast {i | StopsAt [noteText, .obj [("type", .str "string")], noteText] i} 1 := by
    refine ⟨⟨_, rfl, .inl ⟨_, rfl⟩⟩, fun i hi => Nat.one_le_iff_ne_zero.mpr ?_⟩
    rintro rfl
    obtain ⟨n, hn, ⟨stop, hstop⟩ | ⟨f, -, j, hj, -⟩⟩ := hi
    · cases hn
      cases hstop
    · exact absurd hj (Nat.not_lt_zero j)
  have hnone : ∀ i, ¬ StopsAt [noteText] i := by
    rintro (_ | i) ⟨n, hn, ⟨stop, hstop⟩ | ⟨f, -, j, hj, -⟩⟩
    · cases hn
      cases hstop
    · exact absurd hj (Nat.not_lt_zero j)
    · cases hn
    · cases hn
  refine ⟨hleast, ?_, ?_, ?_⟩
  · obtain ⟨n, hn, hfails⟩ := (verifyParts_first_failure.1 unnamedDocument _ rfl).1 1 hleast
    cases hn
    obtain ⟨e, he, -, -, hpath⟩ := hfails.failure _ rfl
    exact ⟨e, he, hpath⟩
  · obtain ⟨fields, -, -, hcomes⟩ := (verifyParts_first_failure.1
      [("fields", .arr [noteText]), ("layout", .str "wide")] _ rfl).2 hnone
    exact hcomes.failure _ rfl
  · have hload : unnamedSource.load.toOption = some (.obj unnamedDocument) := by decide +kernel
    have hverify : (verify unnamedSource).outcome =
        .ok (.error (.field ⟨some "fields[1]", [], "", .noName⟩)) :=
      verify_eq_failure_iff.mpr (.inr ⟨_, toOption_eq_some_iff.mp hload, rfl⟩)
    exact ⟨_, hverify, rfl, verifyParts_first_failure.2 _ _ hverify rfl⟩

end Form

end Formwork
