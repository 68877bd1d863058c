import Formwork.Proofs.DateText.Year
import Formwork.Proofs.Value.Stalls

/-!
# Dates completed from different references

A date text may leave parts to the reference. If it is a date at all, it stays one with another
reference unless the month of the reference lacks the day that the text spells, or the weekday that
it names comes only after the last year.

## Implementation notes

The day after is taken whatever the year, so that a moment on its way to a weekday may run past the
last year. All its other parts stay in range, and the year is looked at in the end.
-/

namespace Formwork

namespace Calendar

/-- No month is shorter than in a year without a leap day, such as 1970. -/
theorem daysIn_epoch_le (year month : Nat) : daysIn 1970 month ≤ daysIn year month := by
  by_cases hmonth : month = 2
  · rw [hmonth]
    exact le_daysIn year 2
  · simp only [daysIn, if_neg hmonth, Nat.le_refl]

end Calendar

namespace Moment

/-- Every part is in its range but for the year, which may lie after the last one. -/
structure Proper (m : Moment) : Prop where
  year : 1 ≤ m.year
  month : 1 ≤ m.month ∧ m.month ≤ 12
  day : 1 ≤ m.day ∧ m.day ≤ Calendar.daysIn m.year m.month
  time : m.hour < 24 ∧ m.minute < 60 ∧ m.second < 60 ∧ m.microsecond < 1000000

theorem valid_iff {m : Moment} : m.Valid ↔ m.Proper ∧ m.year ≤ Calendar.lastYear := by
  constructor
  · rintro ⟨⟨hyear, hlast⟩, hmonth, hday, htime⟩
    exact ⟨⟨hyear, hmonth, hday, htime⟩, hlast⟩
  · rintro ⟨⟨hyear, hmonth, hday, htime⟩, hlast⟩
    exact ⟨⟨hyear, hlast⟩, hmonth, hday, htime⟩

theorem Proper.nextDay {m : Moment} (h : m.Proper) : m.nextDay.Proper := by
  have hfirst : ∀ year month, 1 ≤ Calendar.daysIn year month := fun year month =>
    Nat.le_trans (by decide) (Calendar.le_daysIn year month)
  unfold Moment.nextDay
  split
  · rename_i hday
    exact ⟨h.year, h.month, ⟨Nat.le_add_left 1 _, hday⟩, h.time⟩
  split
  · rename_i hmonth
    exact ⟨h.year, ⟨Nat.le_add_left 1 _, hmonth⟩, ⟨Nat.le_refl 1, hfirst _ _⟩, h.time⟩
  · have hyear : 1 ≤ 12 := by decide
    exact ⟨Nat.le_add_left 1 _, ⟨Nat.le_refl 1, hyear⟩, ⟨Nat.le_refl 1, hfirst _ _⟩, h.time⟩

theorem Proper.addDays {m : Moment} (h : m.Proper) (days : Nat) : (m.addDays days).Proper := by
  induction days generalizing m with
  | zero => exact h
  | succ days ih => exact ih h.nextDay

theorem addDays_add (m : Moment) (days more : Nat) :
    m.addDays (days + more) = (m.addDays days).addDays more := by
  induction days generalizing m with
  | zero => rw [Nat.zero_add, addDays]
  | succ days ih => rw [Nat.succ_add, addDays, addDays, ih]

/-- Days that the month still has only change the day. -/
theorem addDays_of_le {m : Moment} {days : Nat}
    (h : m.day + days ≤ Calendar.daysIn m.year m.month) :
    m.addDays days = { m with day := m.day + days } := by
  induction days generalizing m with
  | zero => rfl
  | succ days ih =>
      have hnext : m.nextDay = { m with day := m.day + 1 } := by
        rw [Moment.nextDay, if_pos (by omega)]
      have hmore : m.day + 1 + days ≤ Calendar.daysIn m.year m.month := by omega
      rw [addDays, hnext, ih hmore, Nat.add_right_comm]
      rfl

theorem daysIn_december (year : Nat) : Calendar.daysIn year 12 = 31 := rfl

/-- Less than a week leads into the next year from the end of December, and never else. -/
theorem Proper.year_addDays {m : Moment} (h : m.Proper) {days : Nat} (hdays : days < 7) :
    (m.addDays days).year =
      if m.month = 12 ∧ 31 < m.day + days then m.year + 1 else m.year := by
  by_cases hwithin : m.day + days ≤ Calendar.daysIn m.year m.month
  · rw [addDays_of_le hwithin, if_neg]
    rintro ⟨hmonth, hlong⟩
    rw [hmonth, daysIn_december] at hwithin
    omega
  obtain ⟨left, hleft⟩ := Nat.exists_eq_add_of_le h.day.2
  obtain ⟨more, hmore⟩ : ∃ more, days = left + 1 + more := ⟨days - left - 1, by omega⟩
  have hlast : m.addDays left = { m with day := Calendar.daysIn m.year m.month } := by
    rw [addDays_of_le (by omega), hleft]
  -- What is left of the week stays in the month that begins, since no month is that short.
  have hshort : ∀ year month, 1 + more ≤ Calendar.daysIn year month := fun year month =>
    Nat.le_trans (by omega) (Calendar.le_daysIn year month)
  have hsplit : m.addDays days =
      (Moment.nextDay { m with day := Calendar.daysIn m.year m.month }).addDays more := by
    rw [hmore, addDays_add, addDays_add, hlast]
    rfl
  rw [hsplit, Moment.nextDay, if_neg (Nat.lt_irrefl _)]
  by_cases hmonth : m.month < 12
  · rw [if_pos hmonth, addDays_of_le (hshort _ _), if_neg fun hend => hmonth.ne hend.1]
  · have hmonth' : m.month = 12 := Nat.le_antisymm h.month.2 (Nat.not_lt.mp hmonth)
    rw [hmonth', daysIn_december] at hwithin
    rw [if_neg hmonth, addDays_of_le (hshort _ _), if_pos ⟨hmonth', Nat.not_le.mp hwithin⟩]

/-- The days from a moment to the first one on a weekday. -/
def daysUntil (m : Moment) (weekday : Nat) : Nat :=
  (weekday + 7 - Calendar.weekday m.year m.month m.day) % 7

/-- A weekday comes only after the last year if the last December ends before it. -/
theorem Valid.lastYear_lt_onWeekday_iff {m : Moment} (h : m.Valid) (weekday : Nat) :
    Calendar.lastYear < (m.onWeekday weekday).year ↔
      m.year = Calendar.lastYear ∧ m.month = 12 ∧ 31 < m.day + m.daysUntil weekday := by
  obtain ⟨hproper, hlast⟩ := valid_iff.mp h
  have hyear : (m.onWeekday weekday).year =
      if m.month = 12 ∧ 31 < m.day + m.daysUntil weekday then m.year + 1 else m.year :=
    hproper.year_addDays (Nat.mod_lt _ (by decide))
  rw [hyear]
  split
  · rename_i hend
    rw [and_iff_left hend]
    omega
  · rename_i hend
    exact ⟨fun hpast => absurd hlast (Nat.not_le.mpr hpast), fun hpast => absurd hpast.2 hend⟩

theorem Proper.onWeekday {m : Moment} (h : m.Proper) (weekday : Nat) :
    (m.onWeekday weekday).Proper :=
  h.addDays _

end Moment

namespace DateText

section Build

variable {y : Nat} {reference : DateTime} {r : Reading}

theorem of?_eq_some_iff {moment : Moment} {offset : Option Int} :
    (∃ d, DateTime.of? moment offset = some d) ↔ moment.Valid := by
  unfold DateTime.of?
  split <;> simp_all

theorem proper_moved {m : Members.Meaning} {moment : Moment} (h : moment.Proper) :
    (r.moved m moment).Proper := by
  unfold Reading.moved
  split
  · exact h.onWeekday _
  · exact h

/-- A reading is a date if it tells something, its parts are those of a date, and its weekday does
not come after the last year. -/
theorem exists_build?_iff :
    (∃ d, build? y reference r = some d) ↔ ∃ m, r.members.meaning? = some m ∧ r.tells m = true ∧
      (completed y reference r m).Valid ∧ r.NearZone ∧
      (r.moved m (completed y reference r m)).year ≤ Calendar.lastYear := by
  simp only [build?_eq_some_iff]
  rw [exists_comm]
  refine exists_congr fun m => ?_
  simp only [exists_and_left, of?_eq_some_iff]
  refine and_congr_right fun _ => and_congr_right fun _ => and_congr_right fun hvalid => ?_
  rw [Moment.valid_iff, and_iff_right (proper_moved (Moment.valid_iff.mp hvalid).1)]

/-- The members name a day without a month, and the month of the reference does not have it. -/
def DayMissing (y : Nat) (reference : DateTime) (r : Reading) (m : Members.Meaning) : Prop :=
  m.month = none ∧ ∃ day, m.day = some day ∧
    Calendar.daysIn (yearOf y reference r m) reference.moment.month < day

/-- A reading names a weekday and no day, and the last December ends before the weekday. -/
def WeekdayPast (y : Nat) (reference : DateTime) (r : Reading) (m : Members.Meaning) : Prop :=
  m.day = none ∧ ∃ weekday, r.weekday = some weekday ∧
    (completed y reference r m).year = Calendar.lastYear ∧
    (completed y reference r m).month = 12 ∧
    31 < (completed y reference r m).day + (completed y reference r m).daysUntil weekday

theorem not_weekdayPast_iff {m : Members.Meaning} (h : (completed y reference r m).Valid) :
    ¬ WeekdayPast y reference r m ↔
      (r.moved m (completed y reference r m)).year ≤ Calendar.lastYear := by
  unfold WeekdayPast Reading.moved
  simp only [← h.lastYear_lt_onWeekday_iff]
  cases r.weekday with
  | none => simpa using h.1.2
  | some weekday =>
      cases m.day with
      | none => simp
      | some day => simpa using h.1.2

/-- A part that is given is in range with any reference if it is with one, and a part that is not
given is that of the reference. -/
theorem getD_of_getD {α : Type} {P : α → Prop} {o : Option α} {a b : α} (h : P (o.getD a))
    (hb : P b) : P (o.getD b) := by
  cases o with
  | none => exact hb
  | some given => exact h

/-- The day that a reading is completed to is in the month unless the reading lacks it: a month
that is given is never shorter than in 1970. -/
theorem day_completed_iff {m : Members.Meaning} (h : (completed y .epoch r m).Proper) :
    (1 ≤ (completed y reference r m).day ∧ (completed y reference r m).day ≤
        Calendar.daysIn (completed y reference r m).year (completed y reference r m).month) ↔
      ¬ DayMissing y reference r m := by
  have hday := h.day
  simp only [completed, DayMissing] at hday ⊢
  cases hgiven : m.day with
  | none =>
      have hfirst : 1 ≤ reference.moment.day := reference.valid.2.2.1.1
      have hlength := Calendar.le_daysIn (yearOf y reference r m)
        (m.month.getD reference.moment.month)
      simp only [Option.getD_none, reduceCtorEq, false_and, exists_false, and_false, not_false_iff,
        iff_true]
      omega
  | some day =>
      rw [hgiven] at hday
      have hfirst : 1 ≤ day := hday.1
      cases hmonth : m.month with
      | none => simp [hfirst]
      | some month =>
          have hlength : day ≤ Calendar.daysIn (yearOf y reference r m) month := by
            rw [hmonth] at hday
            cases hyear : m.year with
            | none =>
                have hepoch : yearOf y .epoch r m = 1970 := by
                  rw [yearOf, hyear]
                  rfl
                rw [hepoch] at hday
                exact hday.2.trans (Calendar.daysIn_epoch_le _ month)
            | some year =>
                have hsame : yearOf y reference r m = yearOf y .epoch r m := by
                  rw [yearOf, yearOf, hyear]
                  rfl
                rw [hsame]
                exact hday.2
          simp [hlength, hfirst]

/-- If the parts of a reading are those of a date with the first day of 1970 for reference, then
they are with another reference unless it lacks the day. -/
theorem valid_completed_iff {m : Members.Meaning} (h : (completed y .epoch r m).Valid) :
    (completed y reference r m).Valid ↔ ¬ DayMissing y reference r m := by
  rw [← day_completed_iff (Moment.valid_iff.mp h).1]
  obtain ⟨hyear, hmonth, -, hhour, hminute, hsecond, hmicrosecond⟩ := h
  obtain ⟨hyear', hmonth', -, hhour', hminute', hsecond', hmicrosecond'⟩ := reference.valid
  constructor
  · intro hvalid
    exact hvalid.2.2.1
  · intro hday
    refine ⟨?_, ?_, hday, ?_, ?_, ?_, ?_⟩
    · exact getD_of_getD (P := fun year => 1 ≤ year ∧ year ≤ Calendar.lastYear) hyear hyear'
    · exact getD_of_getD (P := fun month => 1 ≤ month ∧ month ≤ 12) hmonth hmonth'
    · exact getD_of_getD (P := (· < 24)) hhour hhour'
    · exact getD_of_getD (P := (· < 60)) hminute hminute'
    · exact getD_of_getD (P := (· < 60)) hsecond hsecond'
    · exact getD_of_getD (P := (· < 1000000)) hmicrosecond hmicrosecond'

/-- A reading that is a date with the first day of 1970 for reference is one with another reference
exactly if the other one has the day and the weekday comes in time. -/
theorem exists_build?_iff_of_epoch (h : ∃ d, build? y .epoch r = some d) :
    (∃ d, build? y reference r = some d) ↔
      ∀ m, r.members.meaning? = some m →
        ¬ DayMissing y reference r m ∧ ¬ WeekdayPast y reference r m := by
  rw [exists_build?_iff] at h ⊢
  obtain ⟨m, hm, htells, hvalid, hzone, -⟩ := h
  simp only [hm, Option.some.injEq, exists_eq_left', forall_eq', htells, hzone, true_and,
    valid_completed_iff hvalid]
  refine and_congr_right fun hday => ?_
  have hcompleted := (valid_completed_iff hvalid).mpr hday
  exact (not_weekdayPast_iff hcompleted).symm

end Build

variable [Host]

/-- The value is a date text whose reading does not fit the reference: its month lacks the day, or
the weekday comes too late. -/
def Unfit (reference : DateTime) (v : Json) : Prop :=
  ∃ s r m, v = .str s ∧ Reading.ofTokens Host.year (tokens s.toList) = .ok r ∧
    r.members.meaning? = some m ∧
    (DayMissing Host.year reference r m ∨ WeekdayPast Host.year reference r m)

/-- A text that is read with a reference has a reading of which a date can be built. -/
theorem parse_eq_ok_iff {reference d : DateTime} {v : Json} :
    parse reference v = .ok d ↔ ∃ s r, v = .str s ∧ Text.isBlankText s = false ∧
      Reading.ofTokens Host.year (tokens s.toList) = .ok r ∧
      build? Host.year reference r = some d := by
  cases v with
  | str s => simp [parse, parseIn_eq_ok_iff]
  | _ => simp [parse]

/-- A value that is a date is one with another reference exactly if it fits that reference. -/
theorem IsDate.exists_parse_iff {v : Json} (h : IsDate v) (reference : DateTime) :
    (∃ d, parse reference v = .ok d) ↔ ¬ Unfit reference v := by
  obtain ⟨d₀, h⟩ := h
  obtain ⟨s, r, rfl, hblank, hr, hbuild⟩ := parse_eq_ok_iff.mp h
  have hparse : (∃ d, parse reference (.str s) = .ok d) ↔
      ∃ d, build? Host.year reference r = some d := by
    simp [parse_eq_ok_iff, hblank, hr]
  rw [hparse, exists_build?_iff_of_epoch ⟨d₀, hbuild⟩]
  simp only [Unfit, Json.str.injEq, not_exists, not_and, not_or]
  constructor
  · rintro hfits s' r' m rfl hr' hm
    rw [hr] at hr'
    cases hr'
    exact hfits m hm
  · intro hfits m hm
    exact hfits s r m rfl hr hm

end DateText

end Formwork
