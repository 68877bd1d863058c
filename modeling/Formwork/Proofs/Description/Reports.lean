import Formwork.Proofs.Description.Blame

/-!
# Fields that verification reports

Verification reports each field that it accepts, by a record with the path and the type of the
field. The checks of attributes, values and defaults may leave records of their own, but none that
reports a field, so what is reported comes from the levels of a description alone.
-/

namespace Formwork

/-- The path and the type of a field that the record reports. -/
def Record.reported? : Record → Option (String × FieldType)
  | .fieldVerified path type => some (path, type)
  | _ => none

namespace Audit

variable {ε ε' α β : Type}

/-- The paths and types of the fields that a computation reports, in order. -/
def reported (x : Audit ε α) : List (String × FieldType) :=
  x.records.filterMap Record.reported?

/-- The computation reports no field. -/
def Quiet (x : Audit ε α) : Prop :=
  x.reported = []

@[simp] theorem quiet_pure (a : α) : (pure a : Audit ε α).Quiet := rfl

@[simp] theorem reported_mapError (f : ε → ε') (x : Audit ε α) :
    (x.mapError f).reported = x.reported := rfl

theorem reported_bind_of_ok {x : Audit ε α} {a : α} (h : x.outcome = .ok a)
    (f : α → Audit ε β) : (x >>= f).reported = x.reported ++ (f a).reported := by
  rw [reported, records_bind_of_ok h, List.filterMap_append]
  rfl

/-- Steps that report no field report none together. -/
theorem Quiet.bind {x : Audit ε α} {f : α → Audit ε β} (hx : x.Quiet) (hf : ∀ a, (f a).Quiet) :
    (x >>= f).Quiet := by
  cases h : x.outcome with
  | ok a => rw [Quiet, reported_bind_of_ok h, hx, hf a, List.append_nil]
  | error e => rwa [Quiet, reported, records_bind_of_error h]

/-- After a step that reports no field, what is reported is what the next step reports. -/
theorem Quiet.reported_bind {x : Audit ε α} (hx : x.Quiet) {a : α} (h : x.outcome = .ok a)
    (f : α → Audit ε β) : (x >>= f).reported = (f a).reported := by
  rw [reported_bind_of_ok h, hx, List.nil_append]

end Audit

open Audit (Quiet)

variable [Host]

theorem quiet_tryDate (reference : DateTime) (v : Json) : (tryDate reference v).Quiet := by
  unfold tryDate
  split <;> rfl

namespace Field

open Checked (Members)

theorem quiet_leaf_check (l : Leaf) (v : Json) : (l.check v).Quiet := by
  cases l with
  | date format showTime => exact (quiet_tryDate _ _).bind fun _ => Audit.quiet_pure _
  | select options mode => cases mode <;> cases v <;> rfl
  | radio options => rfl
  | _ => cases v <;> rfl

theorem quiet_checkInner (f : Field) (v : Json) : (f.checkInner v).Quiet := by
  cases f with
  | leaf a l d => exact quiet_leaf_check l v
  | _ => rfl

theorem quiet_checkEntries (properties : List (String × Field)) (es : List (String × Json)) :
    (checkEntries properties es).Quiet := by
  induction es with
  | nil => rfl
  | cons e rest ih =>
      rw [checkEntries]
      split
      · rfl
      · refine (quiet_checkInner _ _).bind fun m => ?_
        cases m with
        | none => exact ih
        | some m => rfl

theorem quiet_checkElements (items : Field) (index : Nat) (vs : List Json) :
    (checkElements items index vs).Quiet := by
  induction vs generalizing index with
  | nil => rfl
  | cons v rest ih =>
      refine (quiet_checkInner _ _).bind fun m => ?_
      cases m with
      | none => exact ih (index + 1)
      | some m => rfl

theorem quiet_check (f : Field) (v : Json) : (f.check v).Quiet := by
  cases f with
  | leaf a l d => exact quiet_leaf_check l v
  | array a items count d =>
      cases v with
      | arr vs => exact quiet_checkElements items 0 vs
      | _ => rfl
  | object a properties d =>
      cases v with
      | obj es => exact quiet_checkEntries properties es
      | _ => rfl

theorem quiet_store (level : Nat) (f : Field) : (store level f).Quiet := by
  unfold store
  split <;> rfl

/-- The checks of a field report no field. -/
theorem compositional_quiet (ms : Members) (path name : String) :
    Compositional ms path name fun _ x => x.Quiet where
  pure := Audit.quiet_pure
  bind := Quiet.bind
  refuse _ := rfl
  check f v := quiet_check f v
  date v := quiet_tryDate .epoch v
  store := quiet_store

end Field

end Formwork
