import Formwork.Proofs.Resolution.Authored

/-!
# Flattened defaults

The defaults of a form stand in one flat mapping, whatever objects at the top their fields lie in.
The descriptions in a document emit them one after another. A key keeps the place of its first
emission and has the value of its last one. A date that cannot be completed from the reference is
not emitted at all, so it leaves what was emitted under its key before.

## Main results

* `defaults_of_emissions`: the defaults of a verified form, from what the descriptions in its
  document emit.
-/

namespace Formwork

namespace Description

open Checked (Members)

/-- The default of a checkbox in its older spelling. -/
def checked? (n : Json) : Option Json :=
  match n.member? "defaultChecked" with
  | some (.bool checked) => some (.bool checked)
  | _ => none

/-- The default that a description has: the authored one, or for a checkbox its older spelling. -/
def default? (n : Json) : Option Json :=
  (n.member? "defaultValue").or
    (if n.member? "type" = some (.str FieldType.checkbox.name) then checked? n else none)

variable [Host]

/-- What a description emits: its default as it stands in the document, which is read if it is that
of a date. -/
def emitted? (reference : DateTime) (n : Json) : Option InitialValue :=
  if n.member? "type" = some (.str FieldType.date.name) then
    (default? n).bind fun v => (DateText.parse reference v).toOption.map .date
  else (default? n).map .json

/-- The descriptions that emit for a description at the top, with their keys: those of its
properties for an object, and for all others the description itself under its name. -/
def emitting (n : Json) : List (String × Json) :=
  if n.member? "type" = some (.str FieldType.object.name) then
    match n.member? "properties" with
    | some (.obj nodes) => nodes
    | _ => []
  else
    match n.member? "name" with
    | some (.str name) => [(name, n)]
    | _ => []

/-- The values that the descriptions in a document emit, one after another. -/
def emissions (reference : DateTime) (document : Json) : InitialValues :=
  match document.member? "fields" with
  | some (.arr nodes) =>
    (nodes.flatMap emitting).filterMap fun p => (emitted? reference p.2).map fun v => (p.1, v)
  | _ => []

section Described

variable {level : Nat} {n : Json} {f : Field}

theorem Describes.member?_type_iff (h : Describes level n f) (t : FieldType) :
    n.member? "type" = some (.str t.name) ↔ f.type = t := by
  obtain ⟨ms, rfl, htype⟩ := h.type
  rw [Json.member?_obj, htype, Option.some.injEq, Json.str.injEq]
  exact ⟨FieldType.name_injective, fun heq => heq ▸ rfl⟩

omit [Host] in
theorem checked?_eq_map {ms : Members} {checked : Option Bool}
    (h : Says Truth ms "defaultChecked" checked) : checked? (.obj ms) = checked.map .bool := by
  rw [checked?, Json.member?_obj]
  cases checked with
  | some b =>
      obtain ⟨v, hv, rfl⟩ := h
      rw [hv]
      rfl
  | none =>
      cases hv : Entries.get? ms "defaultChecked" with
      | none => rfl
      | some v =>
          rw [h v hv]
          rfl

/-- The default of a description is the one that counts for its field. -/
theorem Describes.default?_eq (h : Describes level n f) : default? n = f.effectiveDefault := by
  have hcheckbox := h.member?_type_iff .checkbox
  obtain ⟨ms, rfl, -⟩ := h.type
  rw [default?, Json.member?_obj, ← h.default]
  by_cases htype : f.type = .checkbox
  · rw [if_pos (hcheckbox.mpr htype)]
    cases h with
    | @leaf _ ms a l bound attributes payload default =>
        cases l with
        | checkbox checked =>
            rw [checked?_eq_map payload]
            rfl
        | _ => cases htype
    | _ => cases htype
  · rw [if_neg fun heq => htype (hcheckbox.mp heq), Option.or_none]
    cases f with
    | leaf a l d =>
        cases l with
        | checkbox checked => exact absurd rfl htype
        | _ => rfl
    | _ => rfl

/-- A description emits what its field gives. -/
theorem Describes.emitted?_eq (h : Describes level n f) (reference : DateTime) :
    emitted? reference n = f.given? reference := by
  rw [emitted?, h.default?_eq]
  by_cases hdate : f.type = .date
  · rw [if_pos ((h.member?_type_iff .date).mpr hdate)]
    cases f with
    | leaf a l d =>
        cases l with
        | date format showTime => cases d <;> rfl
        | _ => cases hdate
    | _ => cases hdate
  · rw [if_neg fun heq => hdate ((h.member?_type_iff .date).mp heq)]
    have hnone : f.dateDefault = none := by
      cases f with
      | leaf a l d =>
          cases l with
          | date format showTime => exact absurd rfl hdate
          | _ => rfl
      | _ => rfl
    rw [Field.given?_of_no_dateDefault hnone]

/-- The descriptions that emit describe the fields that bind values, in the same order and under
the same keys. -/
theorem Describes.emitting (h : Describes level n f) :
    List.Forall₂ (fun p q => p.1 = q.1 ∧ ∃ level, Describes level p.2 q.2)
      (emitting n) f.bound := by
  have hobject := h.member?_type_iff .object
  have hself (name : String) (hname : n.member? "name" = some (.str name))
      (hne : f.type ≠ .object) : Description.emitting n = [(name, n)] := by
    rw [Description.emitting, if_neg fun heq => hne (hobject.mp heq), hname]
  cases h with
  | @leaf _ ms a l bound attributes payload default =>
      have hne : l.type ≠ .object := by cases l <;> nofun
      rw [hself a.name attributes.name hne]
      exact .cons ⟨rfl, level, .leaf bound attributes payload default⟩ .nil
  | @array _ ms a node items count bound attributes element flat inner length default =>
      rw [hself a.name attributes.name nofun]
      exact .cons ⟨rfl, level, .array bound attributes element flat inner length default⟩ .nil
  | @object _ ms a nodes properties bound attributes element keys named inner default =>
      rw [Description.emitting, if_pos (hobject.mpr rfl), Json.member?_obj, element]
      refine (keys_zip_iff_forall₂.mp ⟨keys, inner⟩).imp fun p q hpq => ?_
      exact ⟨hpq.1, _, hpq.2⟩

end Described

end Description

open Description

namespace Form

section

variable [Host]

/-- The descriptions in the document of a form emit what its fields give. -/
theorem given_eq_emissions {document : Json} {form : Form} (h : DocumentOf document form)
    (reference : DateTime) : form.given reference = emissions reference document := by
  obtain ⟨ms, nodes, rfl, hnodes, hall, -, -⟩ := h
  have hemitting : List.Forall₂ (fun p q => p.1 = q.1 ∧ ∃ level, Describes level p.2 q.2)
      (nodes.flatMap emitting) (form.fields.flatMap Field.bound) :=
    forall₂_flatMap_flatMap hall fun n f _ hn => hn.1.emitting
  rw [given, emissions, Json.member?_obj, hnodes]
  refine (filterMap_congr_of_forall₂ hemitting fun p q hpq => ?_).symm
  obtain ⟨hkey, level, hdescribes⟩ := hpq
  rw [hkey, hdescribes.emitted?_eq reference]

/-- The defaults of a verified form can be extracted with any reference, and are those that the
descriptions in its document emit: a key has the value that is emitted last, and the keys stand in
the order in which they are first emitted. -/
theorem defaults_of_emissions {document : Json} {form : Form}
    (h : (verifyParts document).outcome = .ok form) (reference : DateTime) :
    ∃ values, (form.defaults reference).outcome = .ok values ∧
      (∀ key, Entries.get? values key = Entries.last? (emissions reference document) key) ∧
      Entries.keys values = (Entries.keys (emissions reference document)).eraseDups ∧
      emissions reference document = form.given reference := by
  have hdocument := verifyParts_eq_ok_iff.mp h
  obtain ⟨values, hvalues⟩ := defaults_of_documentOf hdocument reference
  have hgiven := given_eq_emissions hdocument reference
  have hmerge : values = Entries.merge [] (emissions reference document) := by
    rw [← hgiven]
    exact defaults_eq_merge hvalues
  refine ⟨values, hvalues, fun key => ?_, ?_, hgiven.symm⟩
  · rw [hmerge, Entries.get?_merge, Entries.get?_nil, Option.or_none]
  · have hnil : Entries.keys ([] : InitialValues) = [] := rfl
    rw [hmerge, Entries.keys_merge, hnil, List.nil_append, List.removeAll_nil]

end

/-- A form in which an object has properties with the names of two fields after it. -/
def sharingForm : Form :=
  ⟨[.object (.named "info")
      [("day", .leaf (.named "day") (.string ⟨none, none⟩) (some (.str "any"))),
        ("age", .leaf (.named "age") (.number none none none) (some (.int 1)))] none,
    .leaf (.named "agreed") (.checkbox (some true)) (some (.bool false)),
    .leaf (.named "age") (.number none none none) (some (.int 2)),
    .leaf (.named "day") (.date none none) (some (.str "31"))], none⟩

attribute [local instance] Host.standard in
/-- In February the last day of January is left out, and the text before it stays. -/
theorem defaults_sharingForm :
    let february : DateTime := ⟨⟨2023, 2, 1, 0, 0, 0, 0⟩, none, by decide⟩
    (∃ values, (sharingForm.defaults february).outcome = .ok values ∧
      ∀ key, Entries.get? values key =
        Entries.last? (emissions february sharingForm.toJson) key) ∧
    (sharingForm.defaults february).outcome.toOption =
      some [("day", .json (.str "any")), ("age", .json (.int 2)),
        ("agreed", .json (.bool false))] := by
  intro february
  have hverify : (verifyParts sharingForm.toJson).outcome = .ok sharingForm := rfl
  obtain ⟨values, hvalues, hlast, -⟩ := defaults_of_emissions hverify february
  exact ⟨⟨values, hvalues, hlast⟩, by decide +kernel⟩

end Form

end Formwork
