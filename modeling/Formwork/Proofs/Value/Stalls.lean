import Formwork.Proofs.Value.Accepts

/-!
# Values at which a check breaks off

The check of a value breaks off where a text asks for more digits than a fraction of
a date can have. It goes over entries from the first one on, so the entry where it
breaks off comes after entries that the field accepts. Nothing else ends a check
without a verdict.
-/

namespace Formwork

variable {α : Type}

/-- A bad element comes after good ones only. -/
def Reached (good bad : α → Prop) (xs : List α) : Prop :=
  ∃ before x after, xs = before ++ x :: after ∧ (∀ y ∈ before, good y) ∧ bad x

@[simp] theorem not_reached_nil {good bad : α → Prop} : ¬ Reached good bad [] := by
  intro h
  obtain ⟨before, x, after, h, -⟩ := h
  simp at h

theorem reached_cons_iff {good bad : α → Prop} {x : α} {xs : List α} :
    Reached good bad (x :: xs) ↔ bad x ∨ good x ∧ Reached good bad xs := by
  constructor
  · rintro ⟨_ | ⟨y, before⟩, z, after, h, hgood, hbad⟩
    · obtain ⟨rfl, -⟩ := List.cons.inj h
      exact .inl hbad
    · obtain ⟨rfl, rfl⟩ := List.cons.inj h
      rw [List.forall_mem_cons] at hgood
      exact .inr ⟨hgood.1, before, z, after, rfl, hgood.2, hbad⟩
  · rintro (h | ⟨hx, before, z, after, rfl, hgood, hbad⟩)
    · exact ⟨[], x, xs, rfl, by simp, h⟩
    · exact ⟨x :: before, z, after, rfl, List.forall_mem_cons.mpr ⟨hx, hgood⟩, hbad⟩

variable [Host]

/-- Reading the value as a date breaks off. -/
def DateText.Stalls (v : Json) : Prop :=
  DateText.parse .epoch v = .error .imprecise

/-- The date that completes a text has no part in whether its reading breaks off. -/
theorem DateText.parse_eq_imprecise_iff (reference : DateTime) (v : Json) :
    DateText.parse reference v = .error .imprecise ↔ DateText.Stalls v := by
  unfold DateText.Stalls
  cases v with
  | str s =>
      simp only [parse, parseIn]
      split
      · simp
      · cases Reading.ofTokens Host.year (tokens s.toList) with
        | error e => cases e <;> simp
        | ok r =>
            dsimp only
            cases build? Host.year reference r <;> cases build? Host.year .epoch r <;> simp
  | _ => simp [parse]

theorem DateText.not_isDate_of_stalls {v : Json} (h : DateText.Stalls v) :
    ¬ DateText.IsDate v := by
  intro h
  obtain ⟨d, hd⟩ := h
  rw [DateText.Stalls, hd] at h
  cases h

theorem tryDate_eq_error_iff {reference : DateTime} {v : Json} {e : Fault} :
    (tryDate reference v).outcome = .error e ↔ e = .imprecise ∧ DateText.Stalls v := by
  rw [← DateText.parse_eq_imprecise_iff reference, tryDate_outcome]
  split <;> simp_all [@eq_comm _ e]

/-- The check of the value against a leaf breaks off. -/
def Leaf.Stalls (v : Json) : Leaf → Prop
  | .date _ _ => DateText.Stalls v
  | _ => False

theorem Leaf.check_eq_error_iff {l : Leaf} {v : Json} {e : Fault} :
    (l.check v).outcome = .error e ↔ e = .imprecise ∧ l.Stalls v := by
  cases l with
  | select options mode =>
      cases mode with
      | none => simp [check, Stalls]
      | some m => cases v <;> simp [check, Stalls]
  | date format showTime =>
      simp [check, Stalls, Audit.outcome_bind_eq_error_iff, tryDate_eq_error_iff,
        -Audit.outcome_bind]
  | _ => cases v <;> simp [check, Stalls]

namespace Field

/-- The check of the value inside an object or an array breaks off. -/
def StallsInside (v : Json) : Field → Prop
  | .leaf _ l _ => l.Stalls v
  | .array _ _ _ _ | .object _ _ _ => False

/-- The check of an entry breaks off at the value for its property. -/
def StallsEntry (properties : List (String × Field)) (e : String × Json) : Prop :=
  ∃ f, properties.lookup e.1 = some f ∧ f.StallsInside e.2

/-- The check of the value breaks off, for objects and arrays at an entry that is reached. -/
def Stalls (v : Json) : Field → Prop
  | .leaf _ l _ => l.Stalls v
  | .object _ properties _ =>
    ∃ es, v = .obj es ∧ Reached (AcceptsEntry properties) (StallsEntry properties) es
  | .array _ items _ _ =>
    ∃ vs, v = .arr vs ∧ Reached (items.AcceptsInside ·) (items.StallsInside ·) vs

theorem checkInner_eq_error_iff {f : Field} {v : Json} {e : Fault} :
    (f.checkInner v).outcome = .error e ↔ e = .imprecise ∧ f.StallsInside v := by
  cases f with
  | leaf a l d => exact Leaf.check_eq_error_iff
  | _ => simp [checkInner, StallsInside]

theorem checkEntries_eq_error_iff {properties : List (String × Field)}
    {es : List (String × Json)} {e : Fault} :
    (checkEntries properties es).outcome = .error e ↔
      e = .imprecise ∧ Reached (AcceptsEntry properties) (StallsEntry properties) es := by
  induction es with
  | nil => simp [checkEntries]
  | cons entry rest ih =>
      obtain ⟨key, v⟩ := entry
      rw [reached_cons_iff, and_or_left, AcceptsEntry, StallsEntry, checkEntries]
      cases properties.lookup key with
      | none => simp
      | some f =>
          simp only [Option.some.injEq, exists_eq_left', ← checkInner_eq_none_iff]
          apply (Audit.outcome_bind_none_eq_error_iff (by simp)).trans
          rw [checkInner_eq_error_iff, ih, and_left_comm]

theorem checkElements_eq_error_iff {items : Field} (index : Nat) {vs : List Json} {e : Fault} :
    (checkElements items index vs).outcome = .error e ↔
      e = .imprecise ∧ Reached (items.AcceptsInside ·) (items.StallsInside ·) vs := by
  induction vs generalizing index with
  | nil => simp [checkElements]
  | cons v rest ih =>
      rw [reached_cons_iff, and_or_left, checkElements, ← checkInner_eq_none_iff]
      apply (Audit.outcome_bind_none_eq_error_iff (by simp)).trans
      rw [checkInner_eq_error_iff, ih (index + 1), and_left_comm]

/-- The check of a value breaks off exactly where it reaches a date text that does. -/
theorem check_eq_error_iff {f : Field} {v : Json} {e : Fault} :
    (f.check v).outcome = .error e ↔ e = .imprecise ∧ f.Stalls v := by
  cases f with
  | leaf a l d => exact Leaf.check_eq_error_iff
  | array a items count d =>
      cases v <;> simp [check, Stalls, checkElements_eq_error_iff]
  | object a properties d =>
      cases v <;> simp [check, Stalls, checkEntries_eq_error_iff]

end Field

end Formwork
