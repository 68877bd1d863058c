import Formwork.Number.Digits

/-!
# Dates and times

A date with a time of day lies in the years 1 to 9999 of the Gregorian calendar. It
may carry the offset of its zone from universal time, in seconds. The parts are in
range by construction.
-/

namespace Formwork

namespace Calendar

/-- The year has a 29th of February. -/
def isLeap (year : Nat) : Bool :=
  year % 4 == 0 && (year % 100 != 0 || year % 400 == 0)

/-- The number of days of a month. -/
def daysIn (year month : Nat) : Nat :=
  if month = 2 then (if isLeap year then 29 else 28)
  else if month = 4 || month = 6 || month = 9 || month = 11 then 30
  else 31

/-- The days of a year before a month. -/
def daysBefore (year : Nat) : Nat → Nat
  | 0 => 0
  | month + 1 => daysBefore year month + if month = 0 then 0 else daysIn year month

/-- The days up to a date, the first day of the year 1 counting as one. -/
def dayNumber (year month day : Nat) : Nat :=
  365 * (year - 1) + (year - 1) / 4 - (year - 1) / 100 + (year - 1) / 400
    + daysBefore year month + day

/-- The day of the week, zero for Monday. -/
def weekday (year month day : Nat) : Nat :=
  (dayNumber year month day + 6) % 7

/-- The last year. -/
def lastYear : Nat := 9999

theorem daysIn_le (year month : Nat) : daysIn year month ≤ 31 := by
  unfold daysIn
  split <;> split <;> decide

theorem le_daysIn (year month : Nat) : 28 ≤ daysIn year month := by
  unfold daysIn
  split <;> split <;> decide

end Calendar

/-- The parts of a date and a time of day, in any range. -/
structure Moment where
  year : Nat
  month : Nat
  day : Nat
  hour : Nat
  minute : Nat
  second : Nat
  microsecond : Nat
  deriving DecidableEq, Repr

/-- Every part is in its range, and the month has the day. -/
def Moment.Valid (m : Moment) : Prop :=
  (1 ≤ m.year ∧ m.year ≤ Calendar.lastYear) ∧ (1 ≤ m.month ∧ m.month ≤ 12)
    ∧ (1 ≤ m.day ∧ m.day ≤ Calendar.daysIn m.year m.month)
    ∧ m.hour < 24 ∧ m.minute < 60 ∧ m.second < 60 ∧ m.microsecond < 1000000

instance (m : Moment) : Decidable m.Valid := by
  unfold Moment.Valid
  infer_instance

/-- A date with a time of day, and the offset of its zone in seconds if one is known. -/
structure DateTime where
  moment : Moment
  offset : Option Int
  valid : moment.Valid
  deriving DecidableEq, Repr

namespace DateTime

/-- The parts as a date, if all are in range. -/
def of? (moment : Moment) (offset : Option Int) : Option DateTime :=
  if valid : moment.Valid then some ⟨moment, offset, valid⟩ else none

/-- Midnight of the first day of 1970, without a zone. -/
def epoch : DateTime :=
  ⟨⟨1970, 1, 1, 0, 0, 0, 0⟩, none, by decide⟩

/-- The seconds of a day. -/
def daySeconds : Nat := 86400

/-- The offset stays below one day, so the date has a written form. -/
def isWritable (d : DateTime) : Bool :=
  match d.offset with
  | none => true
  | some offset => offset.natAbs < daySeconds

/-- An offset as hours and minutes with its sign. -/
def offsetText (offset : Int) : List Char :=
  let size := offset.natAbs
  (if offset < 0 then '-' else '+') :: Number.padded 2 (size / 3600) ++
    ':' :: Number.padded 2 (size / 60 % 60)

/-- The written form: date and time with `T` between, a fraction if there is one, and the offset
of a zone. -/
def iso (d : DateTime) : List Char :=
  let m := d.moment
  Number.padded 4 m.year ++ '-' :: Number.padded 2 m.month ++ '-' :: Number.padded 2 m.day ++
    'T' :: Number.padded 2 m.hour ++ ':' :: Number.padded 2 m.minute ++
    ':' :: Number.padded 2 m.second ++
    (if m.microsecond = 0 then [] else '.' :: Number.padded 6 m.microsecond) ++
    (match d.offset with
    | none => []
    | some offset => offsetText offset)

/-- The written form, if the date has one. -/
def iso? (d : DateTime) : Option String :=
  if d.isWritable then some (String.ofList d.iso) else none

theorem of?_moment (d : DateTime) : of? d.moment d.offset = some d := by
  simp [of?, d.valid]

end DateTime

/-- The day after, whatever its parts are otherwise. -/
def Moment.nextDay (m : Moment) : Moment :=
  if m.day < Calendar.daysIn m.year m.month then { m with day := m.day + 1 }
  else if m.month < 12 then { m with month := m.month + 1, day := 1 }
  else { m with year := m.year + 1, month := 1, day := 1 }

/-- The moment a number of days later. -/
def Moment.addDays (m : Moment) : Nat → Moment
  | 0 => m
  | n + 1 => m.nextDay.addDays n

/-- The first moment at or after this one on a day of the week. -/
def Moment.onWeekday (m : Moment) (weekday : Nat) : Moment :=
  m.addDays ((weekday + 7 - Calendar.weekday m.year m.month m.day) % 7)

end Formwork
