import Formwork.DateText.Reading
import Formwork.Host
import Formwork.Text.Quoted

/-!
# Dates from text

A text in one of many customary forms is read as a date with a time of day. What the
text leaves out comes from a reference date. The outcome depends on nothing else but
the year that numbers of two digits are taken to be near to.
-/

namespace Formwork.DateText

/-- Why a value is no date. -/
inductive Rejection where
  | notText (value : Json)
  | blank
  | unrecognized (text : String)
  deriving DecidableEq, Repr

/-- The message of a rejection. -/
def Rejection.message : Rejection → String
  | .notText value => "Date value must be a string, got " ++ value.kindName
  | .blank => "Date value is empty"
  | .unrecognized text => "Unrecognized date: " ++ Text.quoted text

/-- Why reading a date fails: the value is no date, or its numbers ask for more digits than the
precision of a fraction. -/
inductive Failure where
  | rejected (reason : Rejection)
  | imprecise
  deriving DecidableEq, Repr

/-- The most days that an offset may have. -/
def offsetDayLimit : Nat := 999999999

/-- The offset of a reading. A zone named as universal time has offset zero whatever number stands
after it; other names tell nothing. -/
def zoneOffset (r : Reading) : Option Int :=
  if r.zone.any isUniversal then some 0 else r.offset

/-- The reading tells something. -/
def Reading.tells (r : Reading) (m : Members.Meaning) : Bool :=
  m.year.isSome || m.month.isSome || m.day.isSome || r.weekday.isSome || r.hour.isSome
    || r.minute.isSome || r.second.isSome || r.microsecond.isSome || r.zone.isSome
    || r.offset.isSome

/-- The date of a reading. Parts that it lacks come from the reference, whose day is cut to the
length of the month; a weekday without a day moves the date forward. -/
def build? (currentYear : Nat) (reference : DateTime) (r : Reading) : Option DateTime := do
  let meaning ← r.members.meaning?
  if !r.tells meaning then none
  let base := reference.moment
  let year := (meaning.year.map fun y =>
    if r.members.hasCentury then y else nearYear currentYear y).getD base.year
  let month := meaning.month.getD base.month
  let day := meaning.day.getD (min base.day (Calendar.daysIn year month))
  let moment : Moment :=
    ⟨year, month, day, r.hour.getD base.hour, r.minute.getD base.minute,
      r.second.getD base.second, r.microsecond.getD base.microsecond⟩
  if ¬ moment.Valid then none
  let moment :=
    match r.weekday, meaning.day with
    | some weekday, none => moment.onWeekday weekday
    | _, _ => moment
  let offset := zoneOffset r
  if (offset.getD 0) / DateTime.daySeconds < -(offsetDayLimit : Int)
      || (offsetDayLimit : Int) < (offset.getD 0) / DateTime.daySeconds then none
  DateTime.of? moment offset

/-- Reads a text, with the year given that numbers of two digits are near to. -/
def parseIn (currentYear : Nat) (reference : DateTime) (s : String) :
    Except Failure DateTime :=
  if Text.isBlankText s then .error (.rejected .blank)
  else
    match Reading.ofTokens currentYear (tokens s.toList) with
    | .error .imprecise => .error .imprecise
    | .error .unrecognized => .error (.rejected (.unrecognized s))
    | .ok r =>
      match build? currentYear reference r with
      | some d => .ok d
      | none => .error (.rejected (.unrecognized s))

/-- Reads a value as a date; only a text can be one. Numbers of two digits are near to the year
of the host. -/
def parse [Host] (reference : DateTime) : Json → Except Failure DateTime
  | .str s => parseIn Host.year reference s
  | value => .error (.rejected (.notText value))

end Formwork.DateText
