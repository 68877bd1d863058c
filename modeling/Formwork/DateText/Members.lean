import Formwork.Calendar
import Formwork.DateText.Numeral

/-!
# Year, month and day of a date text

A text names up to three members of a date in some order. A member is known to be the
month if it was spelled as a word, and the year if it has more than two digits; the
order settles what the others are.
-/

namespace Formwork.DateText

/-- The members so far, and the places of those whose meaning is known. -/
structure Members where
  values : List Nat
  yearAt : Option Nat
  monthAt : Option Nat
  /-- A year was spelled with its century. -/
  hasCentury : Bool
  deriving DecidableEq, Repr

namespace Members

/-- No members yet. -/
def empty : Members := ⟨[], none, none, false⟩

/-- A further member that may be anything. -/
def push (ms : Members) (value : Nat) : Members :=
  { ms with values := ms.values ++ [value] }

/-- A further member that is the year, if none was before. -/
def pushYear? (ms : Members) (value : Nat) : Option Members :=
  if ms.yearAt.isSome then none
  else some { ms.push value with yearAt := some ms.values.length }

/-- A further member that is the month, if none was before. -/
def pushMonth? (ms : Members) (value : Nat) : Option Members :=
  if ms.monthAt.isSome then none
  else some { ms.push value with monthAt := some ms.values.length }

/-- A further member as it is spelled: more than two digits are a year with its century. -/
def pushText? (ms : Members) (t : Token) : Option Members := do
  let isLong := t.all Text.isDigit && 2 < t.length
  let value ← Text.wholeNumber? t
  if isLong then pushYear? { ms with hasCentury := true } value else return ms.push value

/-- A further member that is the year whatever its length. -/
def pushYearText? (ms : Members) (t : Token) : Option Members := do
  let isLong := t.all Text.isDigit && 2 < t.length
  pushYear? { ms with hasCentury := ms.hasCentury || isLong } (← Text.wholeNumber? t)

/-- A further member as a decimal, whose fraction is dropped; above one hundred it is a year with
its century. -/
def pushNumeral? (ms : Members) (n : Numeral) : Option Members :=
  if n.exceeds 100 then pushYear? { ms with hasCentury := true } n.whole
  else some (ms.push n.whole)

/-- The member at a place. -/
def value? (ms : Members) (place : Nat) : Option Nat :=
  ms.values[place]?

/-- The number can be a day of the month and year that are known so far. -/
def canBeDay (ms : Members) (n : Numeral) : Bool :=
  match ms.monthAt.bind ms.value? with
  | none => n.isWithin 31
  | some month => n.isWithin (Calendar.daysIn ((ms.yearAt.bind ms.value?).getD 2000) month)

/-- What the members mean. -/
structure Meaning where
  year : Option Nat
  month : Option Nat
  day : Option Nat
  deriving DecidableEq, Repr

/-- The meaning by the places that are known, of which at least one is the year or the month. -/
def byPlaces (ms : Members) (yearAt monthAt dayAt : Option Nat) : Meaning :=
  ⟨yearAt.bind ms.value?, monthAt.bind ms.value?, dayAt.bind ms.value?⟩

/-- The meaning by the order of the members. A number above thirty-one is a year; with three
numbers, month, day and year is the order unless the first number cannot be a month. More than
three members have no meaning. -/
def byOrder? (ms : Members) : Option Meaning :=
  match ms.values, ms.monthAt with
  | [], _ => some ⟨none, none, none⟩
  | [a], none => some (if 31 < a then ⟨some a, none, none⟩ else ⟨none, none, some a⟩)
  | [a], some _ => some ⟨none, some a, none⟩
  | [a, b], none =>
    some (if 31 < a then ⟨some a, some b, none⟩
      else if 31 < b then ⟨some b, some a, none⟩
      else ⟨none, some a, some b⟩)
  | [a, b], some place =>
    let (month, other) := if place = 0 then (a, b) else (b, a)
    some (if 31 < other then ⟨some other, some month, none⟩ else ⟨none, some month, some other⟩)
  | [a, b, c], some 0 =>
    some (if 31 < b then ⟨some b, some a, some c⟩ else ⟨some c, some a, some b⟩)
  | [a, b, c], some 1 =>
    some (if 31 < a then ⟨some a, some b, some c⟩ else ⟨some c, some b, some a⟩)
  | [a, b, c], some _ =>
    some (if 31 < b then ⟨some b, some c, some a⟩ else ⟨some a, some c, some b⟩)
  | [a, b, c], none =>
    some (if 31 < a || ms.yearAt = some 0 then ⟨some a, some b, some c⟩
      else if 12 < a then ⟨some c, some b, some a⟩
      else ⟨some c, some a, some b⟩)
  | _, _ => none

/-- The meaning of the members: by their places if these are known of all or of two out of three,
else by their order. -/
def meaning? (ms : Members) : Option Meaning :=
  match ms.values.length, ms.yearAt, ms.monthAt with
  | 1, some y, none => some (ms.byPlaces (some y) none none)
  | 1, none, some m => some (ms.byPlaces none (some m) none)
  | 2, some y, some m => some (ms.byPlaces (some y) (some m) none)
  | 3, some y, some m => some (ms.byPlaces (some y) (some m) (some (3 - y - m)))
  | _, _, _ => ms.byOrder?

end Members

/-- The year that a number of two digits without a century stands for: of the years with these
last digits the one that lies less than fifty years after, or at most fifty years before, the
given one. -/
def nearYear (currentYear year : Nat) : Nat :=
  if year < 100 then
    let guess := year + currentYear / 100 * 100
    if currentYear + 50 ≤ guess then guess - 100
    else if guess + 50 < currentYear then guess + 100
    else guess
  else year

end Formwork.DateText
