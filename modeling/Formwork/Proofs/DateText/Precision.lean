import Mathlib.Algebra.Group.Nat.Defs
import Formwork.DateText.Basic
import Formwork.Proofs.Outcome

/-!
# Numbers beyond the precision

A reading breaks off only at a number whose whole part has more digits than the
precision: where the number is an hour or a minute and its fraction is asked for. No
other part of a date text can have this effect.
-/

namespace Formwork.DateText

variable {α : Type}

/-- The token is a number whose whole part needs more digits than the precision. -/
def ExceedsPrecision (t : Token) : Prop :=
  ∃ n, Numeral.ofToken? t = some n ∧ 10 ^ Numeral.precision ≤ n.whole

@[simp] theorem need_ne_imprecise {o : Option α} : need o ≠ .error .imprecise := by
  cases o <;> simp [need]

theorem sixtiethsOrStop_eq_imprecise_iff {n : Numeral} :
    n.sixtiethsOrStop = .error .imprecise ↔ 10 ^ Numeral.precision ≤ n.whole := by
  unfold Numeral.sixtiethsOrStop Numeral.sixtieths
  by_cases h : 10 ^ Numeral.precision ≤ n.whole
  · simp [h]
  · by_cases hf : n.fraction = 0 <;> simp [h, hf]

@[simp] theorem secondsOf_ne_imprecise {t : Token} : secondsOf t ≠ .error .imprecise := by
  unfold secondsOf
  repeat' split
  all_goals simp [bind_eq_error_iff, pure, Except.pure]

namespace Reading

@[simp] theorem offsetParts_ne_imprecise {ts : List Token} :
    offsetParts ts ≠ .error .imprecise := by
  unfold offsetParts
  repeat' split
  all_goals simp [bind_eq_error_iff, pure, Except.pure]

@[simp] theorem withMembers?_ne_imprecise {r : Reading} {ms : Option Members} :
    r.withMembers? ms ≠ .error .imprecise := by
  simp [withMembers?, bind_eq_error_iff, pure, Except.pure]

@[simp] theorem pushWordOrDigits_ne_imprecise {r : Reading} {t : Token} :
    r.pushWordOrDigits t ≠ .error .imprecise := by
  unfold pushWordOrDigits
  split <;> simp

@[simp] theorem setSeparated_ne_imprecise {r : Reading} {first separator : Token}
    {rest : List Token} : r.setSeparated first separator rest ≠ .error .imprecise := by
  unfold setSeparated
  repeat' split
  all_goals simp [bind_eq_error_iff, pure, Except.pure]

@[simp] theorem setPlain_ne_imprecise {r : Reading} {n : Numeral} {rest : List Token} :
    r.setPlain n rest ≠ .error .imprecise := by
  unfold setPlain
  repeat' split
  all_goals simp [bind_eq_error_iff, pure, Except.pure]

@[simp] theorem setOffset_ne_imprecise {r : Reading} {negative : Bool} {rest : List Token} :
    r.setOffset negative rest ≠ .error .imprecise := by
  unfold setOffset
  rw [Ne, bind_eq_error_iff]
  rintro (h | ⟨⟨hours, minutes, taken⟩, -, h⟩)
  · exact offsetParts_ne_imprecise h
  · dsimp only at h
    split at h
    · split at h <;> cases h
    · cases h

@[simp] theorem setZone_ne_imprecise {r : Reading} {name : Token} {rest : List Token} :
    r.setZone name rest ≠ .error .imprecise := by
  unfold setZone
  repeat' split
  all_goals simp [bind_eq_error_iff, pure, Except.pure]

@[simp] theorem setMonth_ne_imprecise {currentYear month : Nat} {r : Reading}
    {rest : List Token} : r.setMonth currentYear month rest ≠ .error .imprecise := by
  unfold setMonth
  repeat' split
  all_goals simp [bind_eq_error_iff, pure, Except.pure]

/-- A number with the name of a unit breaks a reading off only by its own size. -/
theorem exceedsPrecision_of_setUnit {r : Reading} {t : Token} {n : Numeral} {unit : TimeUnit}
    (hn : Numeral.ofToken? t = some n) (h : r.setUnit t n unit = .error .imprecise) :
    ExceedsPrecision t := by
  have hsize : n.sixtiethsOrStop = .error .imprecise := by
    cases unit with
    | hour => simpa [setUnit, bind_eq_error_iff, pure, Except.pure] using h
    | minute => simpa [setUnit, bind_eq_error_iff, pure, Except.pure] using h
    | second => simp [setUnit, bind_eq_error_iff, pure, Except.pure] at h
  exact ⟨n, hn, sixtiethsOrStop_eq_imprecise_iff.mp hsize⟩

/-- A time of day with a colon breaks a reading off only by the size of its minute. -/
theorem exceedsPrecision_of_setClock {r : Reading} {hour : Nat} {minute : Token}
    {rest : List Token} (h : r.setClock hour minute rest = .error .imprecise) :
    ExceedsPrecision minute := by
  rw [setClock, bind_eq_error_iff] at h
  rcases h with h | ⟨n, hn, h⟩
  · exact absurd h need_ne_imprecise
  · rw [bind_eq_error_iff] at h
    rcases h with h | ⟨second, -, h⟩
    · refine ⟨n, ?_, sixtiethsOrStop_eq_imprecise_iff.mp h⟩
      cases hm : Numeral.ofToken? minute <;> simp_all [need]
    · dsimp only at h
      split at h
      · simp [bind_eq_error_iff, pure, Except.pure] at h
      · cases h

theorem exceedsPrecision_of_setNumber {r : Reading} {before rest : List Token} {t : Token}
    (h : r.setNumber before t rest = .error .imprecise) :
    ∃ u ∈ t :: rest, ExceedsPrecision u := by
  unfold setNumber at h
  rw [bind_eq_error_iff] at h
  rcases h with h | ⟨n, hn, h⟩
  · exact absurd h need_ne_imprecise
  · have hn : Numeral.ofToken? t = some n := by
      cases hm : Numeral.ofToken? t <;> simp_all [need]
    extract_lets length beforeTime at h
    split at h
    · rw [bind_eq_error_iff] at h
      rcases h with h | ⟨hour, -, h⟩
      · exact absurd h need_ne_imprecise
      · split at h <;> simp [bind_eq_error_iff, pure, Except.pure] at h
    split at h
    · split at h <;> simp [bind_eq_error_iff, pure, Except.pure] at h
    split at h
    · simp only [bind_eq_error_iff, need_ne_imprecise, withMembers?_ne_imprecise, false_or] at h
      obtain ⟨_, -, _, -, _, -, h⟩ := h
      split at h
      · cases h
      simp only [bind_eq_error_iff, need_ne_imprecise, false_or] at h
      obtain ⟨_, -, _, -, h⟩ := h
      split at h
      · cases h
      · simp [bind_eq_error_iff, pure, Except.pure] at h
    split at h
    · rw [bind_eq_error_iff] at h
      rcases h with h | ⟨_, -, h⟩
      · exact ⟨t, List.mem_cons_self, exceedsPrecision_of_setUnit hn h⟩
      · cases h
    · cases h
    · split at h
      · exact ⟨_, by simp, exceedsPrecision_of_setClock h⟩
      · split at h <;> simp at h
      · simp at h

theorem exceedsPrecision_of_step {currentYear : Nat} {r : Reading} {before rest : List Token}
    {t : Token} (h : r.step currentYear before t rest = .error .imprecise) :
    ∃ u ∈ t :: rest, ExceedsPrecision u := by
  unfold step at h
  split at h
  · exact exceedsPrecision_of_setNumber h
  · exfalso
    revert h
    repeat' split
    all_goals simp [pure, Except.pure]

/-- A reading breaks off only if one of its tokens exceeds the precision. -/
theorem exceedsPrecision_of_run {currentYear taken : Nat} {before : List Token} {r : Reading}
    {ts : List Token} (h : run currentYear before taken r ts = .error .imprecise) :
    ∃ t ∈ ts, ExceedsPrecision t := by
  induction ts generalizing before taken r with
  | nil => simp [run] at h
  | cons t rest ih =>
      have hrest : ∀ {before taken r}, run currentYear before taken r rest = .error .imprecise →
          ∃ u ∈ t :: rest, ExceedsPrecision u := by
        intro before taken r h
        obtain ⟨u, hu, hsize⟩ := ih h
        exact ⟨u, List.mem_cons_of_mem _ hu, hsize⟩
      cases taken with
      | succ taken => exact hrest h
      | zero =>
          rw [run, bind_eq_error_iff] at h
          rcases h with h | ⟨_, -, h⟩
          · exact exceedsPrecision_of_step h
          · exact hrest h

end Reading

variable [Host]

/-- A value at which reading a date breaks off is a text with a token beyond the precision. -/
theorem exceedsPrecision_of_parse {reference : DateTime} {v : Json}
    (h : parse reference v = .error .imprecise) :
    ∃ s, v = .str s ∧ ∃ t ∈ tokens s.toList, ExceedsPrecision t := by
  cases v with
  | str s =>
      refine ⟨s, rfl, ?_⟩
      simp only [parse, parseIn] at h
      split at h
      · simp at h
      · split at h
        · rename_i hreading
          exact Reading.exceedsPrecision_of_run hreading
        · simp at h
        · split at h <;> simp at h
  | _ => simp [parse] at h

end Formwork.DateText
