import Formwork.Log.Record

/-!
# Audited computations

An audited computation ends with an outcome and leaves the records of what was done,
also if it fails. The outcome does not depend on the records.
-/

namespace Formwork

/-- The records of a computation and its outcome. -/
structure Audit (ε α : Type) where
  records : List Record
  outcome : Except ε α

namespace Audit

variable {ε ε' α β : Type}

/-- Ends with a value. -/
def ok (a : α) : Audit ε α := ⟨[], .ok a⟩

/-- Ends with an error. -/
def fail (e : ε) : Audit ε α := ⟨[], .error e⟩

/-- Goes on with the value of the first computation, if it has one. -/
def andThen (x : Audit ε α) (f : α → Audit ε β) : Audit ε β :=
  match x.outcome with
  | .error e => ⟨x.records, .error e⟩
  | .ok a => ⟨x.records ++ (f a).records, (f a).outcome⟩

instance : Monad (Audit ε) where
  pure := ok
  bind := andThen

/-- Leaves one record. -/
def note (r : Record) : Audit ε Unit := ⟨[r], .ok ()⟩

/-- A computation without records. -/
def ofExcept (x : Except ε α) : Audit ε α := ⟨[], x⟩

/-- Changes the error. -/
def mapError (f : ε → ε') (x : Audit ε α) : Audit ε' α :=
  ⟨x.records, x.outcome.mapError f⟩

@[simp] theorem outcome_ok (a : α) : (ok a : Audit ε α).outcome = .ok a := rfl

@[simp] theorem outcome_pure (a : α) : (pure a : Audit ε α).outcome = .ok a := rfl

@[simp] theorem outcome_fail (e : ε) : (fail e : Audit ε α).outcome = .error e := rfl

@[simp] theorem outcome_note (r : Record) : (note r : Audit ε Unit).outcome = .ok () := rfl

@[simp] theorem outcome_ofExcept (x : Except ε α) : (ofExcept x).outcome = x := rfl

@[simp] theorem outcome_bind (x : Audit ε α) (f : α → Audit ε β) :
    (x >>= f).outcome = x.outcome >>= fun a => (f a).outcome := by
  show (x.andThen f).outcome = _
  unfold andThen
  cases h : x.outcome <;> simp [bind, Except.bind]

@[simp] theorem records_pure (a : α) : (pure a : Audit ε α).records = [] := rfl

@[simp] theorem records_note (r : Record) : (note r : Audit ε Unit).records = [r] := rfl

@[simp] theorem records_ofExcept (x : Except ε α) : (ofExcept x).records = [] := rfl

theorem records_bind_of_ok {x : Audit ε α} {a : α} (h : x.outcome = .ok a)
    (f : α → Audit ε β) : (x >>= f).records = x.records ++ (f a).records := by
  show (x.andThen f).records = _
  simp [andThen, h]

theorem records_bind_of_error {x : Audit ε α} {e : ε} (h : x.outcome = .error e)
    (f : α → Audit ε β) : (x >>= f).records = x.records := by
  show (x.andThen f).records = _
  simp [andThen, h]

end Audit

end Formwork
