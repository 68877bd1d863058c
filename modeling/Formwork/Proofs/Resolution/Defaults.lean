import Formwork.Proofs.Description.Interruption
import Formwork.Resolution.InitialValue

/-!
# Initial values of verified forms

Each field that binds a value is asked for it in turn. Only the default of a date can
break this off, and what lies in a verified form has no such default.
-/

namespace Formwork

open Description

namespace Field

/-- The default of a date, none for other fields. -/
def dateDefault : Field → Option Json
  | .leaf _ (.date _ _) d => d
  | _ => none

/-- What binds a value for a field at the top lies in the field. -/
theorem mem_nested_of_mem_bound {f : Field} {p : String × Field} (hp : p ∈ f.bound) :
    p.2 ∈ f.nested := by
  cases f with
  | object a properties d =>
      rw [nested, List.mem_cons, mem_nestedIn]
      exact .inr ⟨p, hp, self_mem_nested p.2⟩
  | leaf a l d =>
      cases List.mem_singleton.mp hp
      exact self_mem_nested _
  | array a items count d =>
      cases List.mem_singleton.mp hp
      exact self_mem_nested _

variable [Host]

theorem isDate_of_dateDefault {level : Nat} {n v : Json} {f : Field} (h : Describes level n f)
    (hv : f.dateDefault = some v) : DateText.IsDate v := by
  cases h with
  | @leaf _ ms a l bound attributes payload default =>
      cases l with
      | date format showTime => exact (default v hv).1
      | _ => cases hv
  | _ => cases hv

/-- The default of a date is read. -/
theorem initialValue_of_dateDefault {reference : DateTime} {key : String} {f : Field} {v : Json}
    (hv : f.dateDefault = some v) :
    (f.initialValue reference key).outcome =
      (tryDate reference v).outcome.map fun d => d.map .date := by
  cases f with
  | leaf a l d =>
      cases l with
      | date format showTime =>
          rw [dateDefault] at hv
          simp only [initialValue, effectiveDefault, default, hv, Audit.outcome_bind]
          cases (tryDate reference v).outcome with
          | error e => rfl
          | ok d => cases d <;> rfl
      | _ => cases hv
  | _ => cases hv

/-- Any other default is taken as it is. -/
theorem initialValue_of_no_dateDefault {reference : DateTime} {key : String} {f : Field}
    (hf : f.dateDefault = none) :
    f.initialValue reference key = pure (f.effectiveDefault.map .json) := by
  unfold initialValue
  cases hv : f.effectiveDefault with
  | none => rfl
  | some v =>
      cases f with
      | leaf a l d =>
          cases l with
          | date format showTime =>
              rw [dateDefault] at hf
              rw [effectiveDefault, default, hf] at hv
              · cases hv
              · simp
          | _ => rfl
      | _ => rfl

/-- Asking a field for its value breaks off only at the default of a date. -/
theorem initialValue_eq_error_iff {reference : DateTime} {key : String} {f : Field} {e : Fault} :
    (f.initialValue reference key).outcome = .error e ↔
      e = .imprecise ∧ ∃ v, f.dateDefault = some v ∧ DateText.Stalls v := by
  cases hv : f.dateDefault with
  | none => simp [initialValue_of_no_dateDefault hv]
  | some v =>
      rw [initialValue_of_dateDefault hv]
      simp only [Option.some.injEq, exists_eq_left', ← @tryDate_eq_error_iff _ reference]
      cases (tryDate reference v).outcome <;> simp [Except.map]

end Field

namespace Form

variable [Host]

theorem setDefaults_eq_error {reference : DateTime} {values : InitialValues}
    {bindings : List (String × Field)} {e : Fault}
    (h : (setDefaults reference values bindings).outcome = .error e) :
    ∃ p ∈ bindings, (p.2.initialValue reference p.1).outcome = .error e := by
  induction bindings generalizing values with
  | nil => simp [setDefaults] at h
  | cons p rest ih =>
      obtain ⟨key, f⟩ := p
      rw [setDefaults, Audit.outcome_bind_eq_error_iff] at h
      rcases h with h | ⟨o, -, h⟩
      · exact ⟨(key, f), List.mem_cons_self, h⟩
      · have hrest : ∃ p ∈ rest, (p.2.initialValue reference p.1).outcome = .error e := by
          cases o with
          | none => exact ih h
          | some v => exact ih h
        obtain ⟨q, hq, hvalue⟩ := hrest
        exact ⟨q, List.mem_cons_of_mem _ hq, hvalue⟩

/-- The defaults of a form that a document describes can always be extracted. -/
theorem defaults_of_documentOf {document : Json} {form : Form} (h : DocumentOf document form)
    (reference : DateTime) : ∃ values, (form.defaults reference).outcome = .ok values := by
  cases hd : (form.defaults reference).outcome with
  | ok values => exact ⟨values, rfl⟩
  | error e =>
      simp only [defaults, Audit.outcome_bind_eq_error_iff, Audit.outcome_note,
        Audit.outcome_pure, reduceCtorEq, and_false, exists_false, or_false] at hd
      obtain ⟨p, hp, hvalue⟩ := setDefaults_eq_error hd
      obtain ⟨-, v, hv, hstalls⟩ := Field.initialValue_eq_error_iff.mp hvalue
      obtain ⟨f, hf, hbound⟩ := List.mem_flatMap.mp hp
      obtain ⟨level, inside, hinside⟩ := h.describes hf (Field.mem_nested_of_mem_bound hbound)
      exact absurd (Field.isDate_of_dateDefault hinside hv) (DateText.not_isDate_of_stalls hstalls)

end Form

end Formwork
