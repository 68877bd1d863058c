import Formwork.Proofs.DateText.Steps
import Formwork.Proofs.Number.Digits

/-!
# Years of two digits

The year that a reader is given counts only where a text spells a year of two digits. Such a year
comes to lie near the given one, so the date changes with it; in all other texts the given year
makes no difference.

## Implementation notes

A year after `of` is completed while the text is read, any other year when the date is built. The
first is traced along the run of the reader, the second is told by the reading at its end.
-/

namespace Formwork.DateText

theorem nearYear_of_le {currentYear year : Nat} (h : 100 ≤ year) :
    nearYear currentYear year = year :=
  if_neg (Nat.not_lt.mpr h)

/-- A year that was completed is not completed again. -/
theorem nearYear_nearYear (currentYear year : Nat) :
    nearYear currentYear (nearYear currentYear year) = nearYear currentYear year := by
  simp only [nearYear]
  split_ifs <;> omega

/-- A century later a year of two digits means the year a century later. -/
theorem nearYear_century {currentYear year : Nat} (h : year < 100)
    (hpos : 1 ≤ nearYear currentYear year) :
    nearYear (currentYear + 100) year = nearYear currentYear year + 100 := by
  simp only [nearYear, if_pos h] at hpos ⊢
  have hcentury : (currentYear + 100) / 100 * 100 = currentYear / 100 * 100 + 100 := by omega
  rw [hcentury]
  split_ifs at hpos ⊢ <;> omega

/-- The token is taken for the name of a month. -/
def IsMonthName (t : Token) : Prop :=
  ((Numeral.ofToken? t).isSome || isNotFinite t) = false ∧ weekday? t = none ∧
    (month? t).isSome = true

/-- The token names a month, and after `of` there follows a year below one hundred. -/
def ShortYearAfter (t : Token) (rest : List Token) : Prop :=
  IsMonthName t ∧ ∃ word digits after year, rest = [' '] :: word :: [' '] :: digits :: after ∧
    isOf word = true ∧ digits.all Text.isDigit = true ∧
    Text.wholeNumber? digits = some year ∧ year < 100

namespace Members

/-- The members have the month and the year, and a year from one hundred on has its century. -/
structure HasYear (ms : Members) (year : Nat) : Prop where
  yearAt : ∃ place, ms.yearAt = some place ∧ ms.value? place = some year
  monthAt : ∃ place, ms.monthAt = some place
  length : 2 ≤ ms.values.length
  hasCentury : 100 ≤ year → ms.hasCentury = true

theorem HasYear.extends {ms more : Members} {year : Nat} (h : ms.HasYear year)
    (hextends : ms.Extends more) : more.HasYear year := by
  obtain ⟨place, hplace, hvalue⟩ := h.yearAt
  obtain ⟨month, hmonth⟩ := h.monthAt
  have hlength := hextends.values.length_le
  exact ⟨⟨place, hextends.yearAt place hplace, hextends.value? hvalue⟩,
    ⟨month, hextends.monthAt month hmonth⟩, h.length.trans hlength,
    fun hyear => hextends.hasCentury (h.hasCentury hyear)⟩

/-- More than three members have no meaning. -/
theorem meaning?_of_length {ms : Members} (h : 4 ≤ ms.values.length) : ms.meaning? = none := by
  have horder : ms.byOrder? = none := by
    match hvalues : ms.values with
    | [] | [_] | [_, _] | [_, _, _] => simp [hvalues] at h
    | _ :: _ :: _ :: _ :: _ => simp [byOrder?, hvalues]
  rw [Members.meaning?]
  split
  · omega
  · omega
  · omega
  · omega
  · exact horder

/-- Members with a month and a year mean this year, whatever the third one is. -/
theorem HasYear.meaning? {ms : Members} {year : Nat} {m : Meaning} (h : ms.HasYear year)
    (hm : ms.meaning? = some m) : m.year = some year := by
  obtain ⟨place, hplace, hvalue⟩ := h.yearAt
  obtain ⟨month, hmonth⟩ := h.monthAt
  have hlength := h.length
  obtain htwo | hthree | hmore :
      ms.values.length = 2 ∨ ms.values.length = 3 ∨ 4 ≤ ms.values.length := by omega
  · rw [Members.meaning?, htwo, hplace, hmonth] at hm
    cases hm
    exact hvalue
  · rw [Members.meaning?, hthree, hplace, hmonth] at hm
    cases hm
    exact hvalue
  · rw [meaning?_of_length hmore] at hm
    cases hm

/-- A month and the year after it, which is spelled with its digits. -/
theorem hasYear_of_pushYearText? {ms₁ ms₂ ms : Members} {month year : Nat}
    (h₁ : ms₁.pushMonth? month = some ms₂)
    (h₂ : ms₂.pushYearText? (Number.digits year) = some ms) : ms.HasYear year := by
  obtain ⟨-, rfl⟩ := pushMonth?_eq_some_iff.mp h₁
  rw [pushYearText?, Option.bind_eq_bind, Option.bind_eq_some_iff] at h₂
  obtain ⟨value, hvalue, h₂⟩ := h₂
  obtain rfl := Number.wholeNumber?_digits hvalue
  obtain ⟨-, rfl⟩ := pushYear?_eq_some_iff.mp h₂
  refine ⟨⟨_, rfl, ?_⟩, ⟨_, rfl⟩, ?_, fun hyear => ?_⟩
  · simp [value?, push]
  · simp [push]
  · have hlong : ¬ (Number.digits value).length ≤ 2 := by
      rw [← Number.digitCount, Number.digitCount_le_iff (by decide)]
      omega
    simp [push, Number.all_isDigit_digits, Nat.lt_of_not_le hlong]

end Members

namespace Reading

variable {y y' : Nat} {r r₁ r₂ : Reading} {rest : List Token} {k k₁ k₂ : Nat}

/-- After a month, the given year counts only for a year of two digits. -/
theorem setMonth_of_not_shortYearAfter {t : Token} {month : Nat} (ht : IsMonthName t)
    (h : ¬ ShortYearAfter t rest) : r.setMonth y month rest = r.setMonth y' month rest := by
  unfold setMonth
  congr 1
  funext r₁
  split
  · split
    · rfl
    split
    · rename_i word digits after _
      split
      · rename_i hword
        split
        · rename_i hdigits
          cases hvalue : Text.wholeNumber? digits with
          | none => simp only [need, bind, Except.bind]
          | some year =>
              have hyear : 100 ≤ year := by
                by_contra hshort
                exact h ⟨ht, word, digits, after, year, rfl, hword, hdigits, hvalue, by omega⟩
              simp only [need, bind, Except.bind, nearYear_of_le hyear]
        · rfl
      · rfl
    · rfl
  · rfl

/-- A step does not depend on the given year unless a year of two digits follows a month. -/
theorem step_of_not_shortYearAfter {before : List Token} {t : Token}
    (h : ¬ ShortYearAfter t rest) : r.step y before t rest = r.step y' before t rest := by
  unfold step
  split
  · rfl
  rename_i hnumber
  split
  · rfl
  rename_i hweekday
  split
  · rename_i month hmonth
    apply setMonth_of_not_shortYearAfter _ h
    exact ⟨Bool.eq_false_iff.mpr hnumber, hweekday, by rw [hmonth]; rfl⟩
  · rfl

/-- A step that takes a year of two digits completes it, and has the month before it. -/
theorem hasYear_of_step (r : Reading) (before : List Token) {t : Token}
    (h : ShortYearAfter t rest) :
    ∃ year < 100, ∀ y r₁ k, r.step y before t rest = .ok (r₁, k) →
      r₁.members.HasYear (nearYear y year) := by
  obtain ⟨⟨hnumber, hweekday, hmonth⟩, word, digits, after, year, rfl, hword, hdigits, hvalue,
    hyear⟩ := h
  obtain ⟨month, hmonth⟩ := Option.isSome_iff_exists.mp hmonth
  refine ⟨year, hyear, fun y r₁ k hstep => ?_⟩
  rw [step, hnumber, hweekday, hmonth] at hstep
  simp only [Bool.false_eq_true, if_false] at hstep
  rw [setMonth, bind_eq_ok_iff] at hstep
  obtain ⟨r₂, hr₂, hstep⟩ := hstep
  obtain ⟨m₂, hm₂, rfl⟩ := withMembers?_eq_ok_iff.mp hr₂
  have hblank : ¬ ([' '] = ['-'] || [' '] = ['/'] : Bool) = true := by decide
  simp only [if_neg hblank, if_pos hword, if_pos hdigits, hvalue] at hstep
  rw [bind_eq_ok_iff] at hstep
  obtain ⟨value, hneed, hstep⟩ := hstep
  cases hneed
  rw [bind_eq_ok_iff] at hstep
  obtain ⟨r₃, hr₃, hstep⟩ := hstep
  obtain ⟨m₃, hm₃, rfl⟩ := withMembers?_eq_ok_iff.mp hr₃
  cases hstep
  exact Members.hasYear_of_pushYearText? hm₂ hm₃

/-- The reader comes upon a month with a year of two digits after `of`. -/
def MeetsShortYear (y : Nat) : (before : List Token) → (taken : Nat) → Reading → List Token → Prop
  | _, _, _, [] => False
  | before, taken + 1, r, t :: rest => MeetsShortYear y (t :: before) taken r rest
  | before, 0, r, t :: rest =>
    ShortYearAfter t rest ∨ ∃ r₁ k, r.step y before t rest = .ok (r₁, k) ∧
      MeetsShortYear y (t :: before) k r₁ rest

/-- A run that comes upon no such year is the same for any given year. -/
theorem run_of_not_meetsShortYear {before ts : List Token} {taken : Nat}
    (h : ¬ MeetsShortYear y before taken r ts) :
    run y before taken r ts = run y' before taken r ts := by
  induction ts generalizing before taken r with
  | nil => cases taken <;> rfl
  | cons t rest ih =>
      cases taken with
      | succ taken => exact ih h
      | zero =>
          rw [MeetsShortYear, not_or] at h
          obtain ⟨hshort, hlater⟩ := h
          have hsame : r.step y before t rest = r.step y' before t rest :=
            step_of_not_shortYearAfter hshort
          rw [run, run, ← hsame]
          cases hstep : r.step y before t rest with
          | error e => simp only [bind, Except.bind]
          | ok p => exact ih fun hmeets => hlater ⟨p.1, p.2, hstep, hmeets⟩

/-- Two runs that come upon such a year have completed it, each with the year given to it. -/
theorem hasYear_of_run {before ts : List Token} {taken : Nat}
    (h : MeetsShortYear y before taken r ts) (h₁ : run y before taken r ts = .ok r₁)
    (h₂ : run y' before taken r ts = .ok r₂) :
    ∃ year < 100, r₁.members.HasYear (nearYear y year) ∧
      r₂.members.HasYear (nearYear y' year) := by
  induction ts generalizing before taken r with
  | nil => cases h
  | cons t rest ih =>
      cases taken with
      | succ taken => exact ih h h₁ h₂
      | zero =>
          rw [run, bind_eq_ok_iff] at h₁ h₂
          obtain ⟨⟨s₁, k₁⟩, hs₁, h₁⟩ := h₁
          obtain ⟨⟨s₂, k₂⟩, hs₂, h₂⟩ := h₂
          by_cases hshort : ShortYearAfter t rest
          · obtain ⟨year, hyear, hstep⟩ := hasYear_of_step r before hshort
            exact ⟨year, hyear, (hstep y s₁ k₁ hs₁).extends (extends_of_run h₁),
              (hstep y' s₂ k₂ hs₂).extends (extends_of_run h₂)⟩
          · have hsame : r.step y before t rest = r.step y' before t rest :=
              step_of_not_shortYearAfter hshort
            rw [← hsame, hs₁] at hs₂
            cases hs₂
            rw [MeetsShortYear] at h
            obtain hnow | ⟨s, k, hs, hmeets⟩ := h
            · exact absurd hnow hshort
            · rw [hs₁] at hs
              cases hs
              exact ih hmeets h₁ h₂

end Reading

section Build

variable {y y' : Nat} {reference : DateTime} {r : Reading}

/-- Only the year can make two dates of one reading differ. -/
theorem build?_congr
    (h : ∀ m, r.members.meaning? = some m → yearOf y reference r m = yearOf y' reference r m) :
    build? y reference r = build? y' reference r := by
  unfold build?
  cases hm : r.members.meaning? with
  | none => rfl
  | some m =>
      have hyear := h m hm
      unfold yearOf at hyear
      simp only [Option.bind_eq_bind, Option.bind_some, hyear]

/-- The reading has a year of two digits that is to be completed. -/
def Reading.HasShortYear (r : Reading) : Prop :=
  r.members.hasCentury = false ∧ ∃ m year, r.members.meaning? = some m ∧ m.year = some year ∧
    year < 100

theorem yearOf_of_hasShortYear {m : Members.Meaning} {year : Nat}
    (hcentury : r.members.hasCentury = false) (hyear : m.year = some year) (y : Nat) :
    yearOf y reference r m = nearYear y year := by
  simp [yearOf, hcentury, hyear]

/-- Any other reading means the same date whatever year is given. -/
theorem build?_of_not_hasShortYear (h : ¬ r.HasShortYear) :
    build? y reference r = build? y' reference r := by
  apply build?_congr
  intro m hm
  cases hyear : m.year with
  | none => simp [yearOf, hyear]
  | some year =>
      cases hcentury : r.members.hasCentury with
      | true => simp [yearOf, hyear, hcentury]
      | false =>
          have hlong : 100 ≤ year := by
            by_contra hshort
            exact h ⟨hcentury, m, year, hm, hyear, by omega⟩
          rw [yearOf_of_hasShortYear hcentury hyear, yearOf_of_hasShortYear hcentury hyear,
            nearYear_of_le hlong, nearYear_of_le hlong]

/-- A reading with a completed year means this year. -/
theorem yearOf_of_hasYear {m : Members.Meaning} {year : Nat}
    (h : r.members.HasYear (nearYear y year)) (hm : r.members.meaning? = some m) :
    yearOf y reference r m = nearYear y year := by
  have hyear := h.meaning? hm
  cases hcentury : r.members.hasCentury with
  | true => simp [yearOf, hyear, hcentury]
  | false => rw [yearOf_of_hasShortYear hcentury hyear, nearYear_nearYear]

end Build

/-- The text spells a year of two digits: the reader comes upon one after `of`, or its reading has
one at the end. -/
def SpellsShortYear (y : Nat) (s : String) : Prop :=
  Reading.MeetsShortYear y [] 0 .empty (tokens s.toList) ∨
    ∃ r, Reading.ofTokens y (tokens s.toList) = .ok r ∧ r.HasShortYear

section Parse

variable {y y' : Nat} {reference d : DateTime} {s : String}

/-- A text without a year of two digits is read in the same way in all years. -/
theorem parseIn_of_not_spellsShortYear (h : ¬ SpellsShortYear y s) (y' : Nat) :
    parseIn y reference s = parseIn y' reference s := by
  rw [SpellsShortYear, not_or] at h
  obtain ⟨hmeets, hreading⟩ := h
  have hrun : Reading.ofTokens y (tokens s.toList) = Reading.ofTokens y' (tokens s.toList) :=
    Reading.run_of_not_meetsShortYear hmeets
  unfold parseIn
  rw [← hrun]
  cases hr : Reading.ofTokens y (tokens s.toList) with
  | error e => cases e <;> rfl
  | ok r =>
      have hshort : ¬ r.HasShortYear := fun hshort => hreading ⟨r, hr, hshort⟩
      have hbuild : build? y reference r = build? y' reference r :=
        build?_of_not_hasShortYear hshort
      simp only [hbuild]

/-- A text with a year of two digits is no more read as the same date a century later. -/
theorem parseIn_century_ne (h : parseIn y reference s = .ok d) (hshort : SpellsShortYear y s) :
    parseIn (y + 100) reference s ≠ .ok d := by
  intro h'
  obtain ⟨-, r, hr, hbuild⟩ := parseIn_eq_ok_iff.mp h
  obtain ⟨-, r', hr', hbuild'⟩ := parseIn_eq_ok_iff.mp h'
  obtain ⟨-, m, hm, hpos, hlower, hupper⟩ := build?_eq_some hbuild
  obtain ⟨-, m', hm', -, hlower', -⟩ := build?_eq_some hbuild'
  have hyears : ∃ year < 100, yearOf y reference r m = nearYear y year ∧
      yearOf (y + 100) reference r' m' = nearYear (y + 100) year := by
    by_cases hmeets : Reading.MeetsShortYear y [] 0 .empty (tokens s.toList)
    · obtain ⟨year, hyear, h₁, h₂⟩ := Reading.hasYear_of_run hmeets hr hr'
      exact ⟨year, hyear, yearOf_of_hasYear h₁ hm, yearOf_of_hasYear h₂ hm'⟩
    · have hrun : Reading.ofTokens y (tokens s.toList) =
          Reading.ofTokens (y + 100) (tokens s.toList) :=
        Reading.run_of_not_meetsShortYear hmeets
      rw [← hrun, hr] at hr'
      cases hr'
      rw [hm] at hm'
      cases hm'
      obtain hnow | ⟨r₀, hr₀, hcentury, m₀, year, hm₀, hyear, hlt⟩ := hshort
      · exact absurd hnow hmeets
      · rw [hr] at hr₀
        cases hr₀
        rw [hm] at hm₀
        cases hm₀
        exact ⟨year, hlt, yearOf_of_hasShortYear hcentury hyear y,
          yearOf_of_hasShortYear hcentury hyear (y + 100)⟩
  obtain ⟨year, hyear, heq, heq'⟩ := hyears
  rw [heq] at hpos hlower hupper
  rw [heq', nearYear_century hyear hpos] at hlower'
  omega

/-- A text that is not read as a date breaks the reading off, or is rejected for a reason in which
the year has no part. -/
theorem eq_of_parseIn_error {e : Failure} (h : parseIn y reference s = .error e) :
    e = .imprecise ∨
      e = .rejected (if Text.isBlankText s then .blank else .unrecognized s) := by
  unfold parseIn at h
  split at h
  · rename_i hblank
    rw [if_pos hblank]
    exact .inr (Except.error.inj h).symm
  · rename_i hblank
    rw [if_neg hblank]
    split at h
    · exact .inl (Except.error.inj h).symm
    · exact .inr (Except.error.inj h).symm
    · split at h
      · cases h
      · exact .inr (Except.error.inj h).symm

/-- The year that is given makes no difference to a text exactly if no reading of the text as a
date spells a year of two digits, and the reading breaks off in all years or in none. -/
theorem parseIn_eq_in_all_years_iff :
    (∀ y y', parseIn y reference s = parseIn y' reference s) ↔
      (∀ y d, parseIn y reference s = .ok d → ¬ SpellsShortYear y s) ∧
        ∀ y y', parseIn y reference s = .error .imprecise →
          parseIn y' reference s = .error .imprecise := by
  constructor
  · intro hsame
    refine ⟨fun y d hd hshort => ?_, fun y y' h => hsame y y' ▸ h⟩
    exact parseIn_century_ne hd hshort (hsame y (y + 100) ▸ hd)
  · rintro ⟨hnone, hbreaks⟩ y y'
    cases hy : parseIn y reference s with
    | ok d => rw [← hy, parseIn_of_not_spellsShortYear (hnone y d hy) y']
    | error e =>
        cases hy' : parseIn y' reference s with
        | ok d =>
            rw [parseIn_of_not_spellsShortYear (hnone y' d hy') y, hy] at hy'
            cases hy'
        | error e' =>
            rcases eq_of_parseIn_error hy with rfl | rfl
            · rw [← hy', hbreaks y y' hy]
            · rcases eq_of_parseIn_error hy' with rfl | rfl
              · rw [← hy, hbreaks y' y hy']
              · rfl

/-- Where the completed year makes a leap day one that there is, the reading goes on and breaks
off. -/
example : parseIn 1950 .epoch "Feb of 00 29mon 99999999999999999999999999999.5h" =
      .error (.rejected (.unrecognized "Feb of 00 29mon 99999999999999999999999999999.5h")) ∧
    parseIn 2024 .epoch "Feb of 00 29mon 99999999999999999999999999999.5h" =
      .error .imprecise := by
  decide +kernel

end Parse

end Formwork.DateText
