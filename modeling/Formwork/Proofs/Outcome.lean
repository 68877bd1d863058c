import Formwork.Log.Audit
import Mathlib.Data.List.Forall2

/-!
# Outcomes step by step

A computation with several steps has a value exactly if every step has one, and
ends with an error exactly if some step does after those before it had values. The
records play no part in this.
-/

namespace Formwork

variable {ε ε' α β : Type}

theorem bind_eq_ok_iff {x : Except ε α} {f : α → Except ε β} {b : β} :
    (x >>= f) = .ok b ↔ ∃ a, x = .ok a ∧ f a = .ok b := by
  cases x <;> simp [bind, Except.bind]

theorem bind_eq_error_iff {x : Except ε α} {f : α → Except ε β} {e : ε} :
    (x >>= f) = .error e ↔ x = .error e ∨ ∃ a, x = .ok a ∧ f a = .error e := by
  cases x <;> simp [bind, Except.bind]

theorem map_eq_ok_iff {x : Except ε α} {f : α → β} {b : β} :
    (f <$> x) = .ok b ↔ ∃ a, x = .ok a ∧ f a = b := by
  cases x <;> simp [Functor.map, Except.map]

@[simp] theorem except_pure_eq_ok_iff {a b : α} : (pure a : Except ε α) = .ok b ↔ a = b := by
  simp [pure, Except.pure]

@[simp] theorem mapError_eq_ok_iff {f : ε → ε'} {x : Except ε α} {a : α} :
    x.mapError f = .ok a ↔ x = .ok a := by
  cases x <;> simp [Except.mapError]

theorem toOption_eq_some_iff {x : Except ε α} {a : α} : x.toOption = some a ↔ x = .ok a := by
  cases x <;> simp [Except.toOption]

theorem mapError_eq_error_iff {f : ε → ε'} {x : Except ε α} {e : ε'} :
    x.mapError f = .error e ↔ ∃ e₀, x = .error e₀ ∧ f e₀ = e := by
  cases x <;> simp [Except.mapError]

theorem ite_error_eq_ok_iff {p : Prop} [Decidable p] {e : ε} {x : Except ε α} {a : α} :
    (if p then .error e else x) = .ok a ↔ ¬ p ∧ x = .ok a := by
  by_cases h : p <;> simp [h]

theorem ite_ok_eq_ok_iff {p : Prop} [Decidable p] {e : ε} {a : α} :
    (if p then .ok a else .error e) = Except.ok a ↔ p := by
  by_cases h : p <;> simp [h]

/-- A list is read exactly if its elements are, one by one. -/
theorem mapM_eq_some_iff {f : α → Option β} {xs : List α} {ys : List β} :
    xs.mapM f = some ys ↔ List.Forall₂ (fun x y => f x = some y) xs ys := by
  induction xs generalizing ys with
  | nil => cases ys <;> simp
  | cons x xs ih =>
      simp only [List.mapM_cons, Option.bind_eq_bind, Option.bind_eq_some_iff, ih,
        Option.pure_def, Option.some.injEq]
      constructor
      · intro h
        obtain ⟨y, hy, rest, hrest, rfl⟩ := h
        exact .cons hy hrest
      · rintro (_ | ⟨hy, hrest⟩)
        exact ⟨_, hy, _, hrest, rfl⟩

/-- A list can be read if each of its elements can. -/
theorem exists_mapM_eq_some_iff {f : α → Option β} {xs : List α} :
    (∃ ys, xs.mapM f = some ys) ↔ ∀ x ∈ xs, ∃ y, f x = some y := by
  induction xs with
  | nil => simp
  | cons x xs ih =>
      rw [List.forall_mem_cons, ← ih]
      simp only [List.mapM_cons, Option.bind_eq_bind, Option.bind_eq_some_iff, Option.pure_def,
        Option.some.injEq]
      constructor
      · rintro ⟨ys, y, hy, rest, hrest, -⟩
        exact ⟨⟨y, hy⟩, rest, hrest⟩
      · rintro ⟨⟨y, hy⟩, rest, hrest⟩
        exact ⟨_, y, hy, rest, hrest, rfl⟩

namespace Audit

@[simp] theorem outcome_mapError (f : ε → ε') (x : Audit ε α) :
    (x.mapError f).outcome = x.outcome.mapError f := rfl

/-- Two steps have a value exactly if both have one. -/
theorem outcome_bind_eq_ok_iff {x : Audit ε α} {f : α → Audit ε β} {b : β} :
    (x >>= f).outcome = .ok b ↔ ∃ a, x.outcome = .ok a ∧ (f a).outcome = .ok b := by
  rw [outcome_bind, bind_eq_ok_iff]

/-- What follows a step matters only for the value of the step. -/
theorem bind_congr_of_ok {x : Audit ε α} {f g : α → Audit ε β}
    (h : ∀ a, x.outcome = .ok a → f a = g a) : x >>= f = x >>= g := by
  show x.andThen f = x.andThen g
  unfold andThen
  cases hx : x.outcome with
  | error e => rfl
  | ok a => simp only [h a hx]

/-- Two steps end with an error exactly if one of them does, the second after a value. -/
theorem outcome_bind_eq_error_iff {x : Audit ε α} {f : α → Audit ε β} {e : ε} :
    (x >>= f).outcome = .error e ↔
      x.outcome = .error e ∨ ∃ a, x.outcome = .ok a ∧ (f a).outcome = .error e := by
  rw [outcome_bind, bind_eq_error_iff]

/-- A loop that goes on only if a step finds nothing has a value exactly if the step finds nothing
and the rest of the loop has it. -/
theorem outcome_bind_none_eq_ok_iff {x : Audit ε (Option α)} {f : Option α → Audit ε β} {b : β}
    (hstop : ∀ a, (f (some a)).outcome ≠ .ok b) :
    (x >>= f).outcome = .ok b ↔ x.outcome = .ok none ∧ (f none).outcome = .ok b := by
  rw [outcome_bind_eq_ok_iff]
  constructor
  · rintro ⟨_ | a, hx, h⟩
    · exact ⟨hx, h⟩
    · exact absurd h (hstop a)
  · intro h
    obtain ⟨hx, h⟩ := h
    exact ⟨none, hx, h⟩

/-- A loop that goes on only if a step finds nothing ends with an error exactly if the step does,
or if it finds nothing and the rest of the loop does. -/
theorem outcome_bind_none_eq_error_iff {x : Audit ε (Option α)} {f : Option α → Audit ε β} {e : ε}
    (hstop : ∀ a, (f (some a)).outcome ≠ .error e) :
    (x >>= f).outcome = .error e ↔
      x.outcome = .error e ∨ x.outcome = .ok none ∧ (f none).outcome = .error e := by
  rw [outcome_bind_eq_error_iff]
  apply or_congr_right
  constructor
  · rintro ⟨_ | a, hx, h⟩
    · exact ⟨hx, h⟩
    · exact absurd h (hstop a)
  · intro h
    obtain ⟨hx, h⟩ := h
    exact ⟨none, hx, h⟩

end Audit

end Formwork
