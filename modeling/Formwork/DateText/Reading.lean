import Formwork.DateText.Members
import Formwork.DateText.Word

/-!
# Reading the tokens of a date text

The reader goes over the tokens once, from the left, and collects what they tell. A
token takes with it those that follow and belong to it; what it means can also depend
on the two tokens before it. A token that fits nowhere ends the reading.
-/

namespace Formwork.DateText

/-- What the tokens told so far. -/
structure Reading where
  members : Members
  weekday : Option Nat
  hour : Option Nat
  minute : Option Nat
  second : Option Nat
  microsecond : Option Nat
  zone : Option Token
  offset : Option Int
  deriving DecidableEq, Repr

/-- Why a reading ends early. -/
inductive Stop where
  /-- The tokens spell no date. -/
  | unrecognized
  /-- A fraction was asked of a number with more digits than the precision. -/
  | imprecise
  deriving DecidableEq, Repr

/-- A reading and how many of the following tokens it took. -/
abbrev Step := Except Stop (Reading × Nat)

/-- A part that is missing ends the reading. -/
def need {α : Type} : Option α → Except Stop α
  | some a => .ok a
  | none => .error .unrecognized

/-- The sixtieths of a numeral. -/
def Numeral.sixtiethsOrStop (n : Numeral) : Except Stop (Option Nat) :=
  match n.sixtieths with
  | .ok value => .ok value
  | .error () => .error .imprecise

/-- Seconds with up to six digits of a fraction, as seconds and microseconds. -/
def secondsOf (t : Token) : Except Stop (Nat × Nat) :=
  match t.dropWhile (· != '.') with
  | [] => return (← need (Text.wholeNumber? t), 0)
  | _ :: fraction =>
    if fraction.contains '.' then .error .unrecognized
    else
      let micro := (fraction ++ List.replicate (6 - fraction.length) '0').take 6
      return (← need (Text.wholeNumber? (t.takeWhile (· != '.'))), ← need (Text.wholeNumber? micro))

namespace Reading

/-- Nothing was told yet. -/
def empty : Reading := ⟨.empty, none, none, none, none, none, none, none⟩

/-- The reading with other members, if there are any. -/
def withMembers? (r : Reading) (ms : Option Members) : Except Stop Reading :=
  return { r with members := ← need ms }

/-- A further member that is spelled as a word for a month, or as digits. -/
def pushWordOrDigits (r : Reading) (t : Token) : Except Stop Reading :=
  match month? t with
  | some month => r.withMembers? (r.members.pushMonth? month)
  | none => r.withMembers? (r.members.pushText? t)

/-- The time of day with a hand set to a number that a unit follows or precedes. The fraction of
an hour sets the minute, the fraction of a minute the second. -/
def setUnit (r : Reading) (t : Token) (n : Numeral) : TimeUnit → Except Stop Reading
  | .hour => do
    let minute ← n.sixtiethsOrStop
    return { r with hour := some n.whole, minute := minute.or r.minute }
  | .minute => return { r with minute := some n.whole, second := ← n.sixtiethsOrStop }
  | .second => do
    let (second, micro) ← secondsOf t
    return { r with second := some second, microsecond := some micro }

/-- The unit of a number: the one named by the next token, with or without a blank between, and
how many tokens that takes; else the one after the unit named just before. After seconds there is
no further unit, and the number means nothing. -/
def unitFor? (before rest : List Token) : Option (Option TimeUnit × Nat) :=
  let next (unit : TimeUnit) : Option TimeUnit :=
    match unit with
    | .hour => some .minute
    | .minute => some .second
    | .second => none
  let preceding : Option (Option TimeUnit × Nat) :=
    match before.head?.bind timeUnit? with
    | some unit => some (next unit, 0)
    | none =>
      match before, rest with
      | [' '] :: named :: _, [] => (timeUnit? named).map fun unit => (next unit, 0)
      | _, _ => none
  match rest with
  | following :: rest =>
    match timeUnit? following with
    | some unit => some (some unit, 1)
    | none =>
      match following, rest with
      | [' '], named :: _ =>
        match timeUnit? named with
        | some unit => some (some unit, 2)
        | none => preceding
      | _, _ => preceding
  | [] => preceding

/-- A time of day after its hour and colon: the minute, and the second if a further colon and a
token follow. -/
def setClock (r : Reading) (hour : Nat) (minute : Token) (rest : List Token) : Step := do
  let n ← need (Numeral.ofToken? minute)
  let second ← n.sixtiethsOrStop
  let r := { r with hour := some hour, minute := some n.whole, second := second }
  match rest with
  | [':'] :: seconds :: _ =>
    let (second, micro) ← secondsOf seconds
    return ({ r with second := some second, microsecond := some micro }, 4)
  | _ => return (r, 2)

/-- A date whose members stand with the same separator between them, from its first member on. -/
def setSeparated (r : Reading) (first : Token) (separator : Token) (rest : List Token) : Step := do
  let r ← r.withMembers? (r.members.pushText? first)
  match rest with
  | [] => return (r, 1)
  | second :: rest =>
    if isFiller second then return (r, 1)
    else
      let r ←
        if second.all Text.isDigit then r.withMembers? (r.members.pushText? second)
        else r.withMembers? ((month? second).bind r.members.pushMonth?)
      match rest with
      | [] => return (r, 2)
      | again :: rest =>
        if again = separator then
          match rest with
          | [] => .error .unrecognized
          | third :: _ => return (← r.pushWordOrDigits third, 4)
        else return (r, 2)

/-- What a number without separators and units tells. -/
def setPlain (r : Reading) (n : Numeral) (rest : List Token) : Step := do
  let member : Except Stop Reading := r.withMembers? (r.members.pushNumeral? n)
  match rest with
  | [] => return (← member, 1)
  | next :: rest =>
    if isFiller next then
      match rest.head?.bind meridiem? with
      | some half => return ({ r with hour := some (half.adjust n.whole) }, 2)
      | none => return (← member, 1)
    else
      match meridiem? next with
      | some half =>
        if n.whole < 24 then return ({ r with hour := some (half.adjust n.whole) }, 1)
        else if r.members.canBeDay n then return (← member, 0)
        else .error .unrecognized
      | none =>
        if r.members.canBeDay n then return (← member, 0) else .error .unrecognized

/-- The token is a mark that stands between the members of a date. -/
def isSeparator (t : Token) : Bool :=
  t == ['-'] || t == ['/'] || t == ['.']

/-- A number, by its length and what stands around it. -/
def setNumber (r : Reading) (before : List Token) (t : Token) (rest : List Token) : Step := do
  let n ← need (Numeral.ofToken? t)
  let length := t.length
  let beforeTime := match rest with
    | [] => true
    | next :: _ => next != [':'] && (timeUnit? next).isNone
  if r.members.values.length = 3 && (length = 2 || length = 4) && r.hour.isNone && beforeTime then
    let hour ← need (Text.wholeNumber? (t.take 2))
    if length = 4 then
      return ({ r with hour := some hour, minute := some (← need (Text.wholeNumber? (t.drop 2))) },
        0)
    else return ({ r with hour := some hour }, 0)
  else if length = 6 || (6 < length && (t.takeWhile (· != '.')).length = 6) then
    if r.members.values.isEmpty && !t.contains '.' then
      let ms ← need (r.members.pushText? (t.take 2))
      let ms ← need (ms.pushText? ((t.drop 2).take 2))
      return (← r.withMembers? (ms.pushText? (t.drop 4)), 0)
    else
      let hour ← need (Text.wholeNumber? (t.take 2))
      let minute ← need (Text.wholeNumber? ((t.drop 2).take 2))
      let (second, micro) ← secondsOf (t.drop 4)
      return ({ r with
        hour := some hour, minute := some minute,
        second := some second, microsecond := some micro }, 0)
  else if length = 8 || length = 12 || length = 14 then
    let ms ← need (r.members.pushYearText? (t.take 4))
    let ms ← need (ms.pushText? ((t.drop 4).take 2))
    let r ← r.withMembers? (ms.pushText? ((t.drop 6).take 2))
    if length = 8 then return (r, 0)
    else
      let hour ← need (Text.wholeNumber? ((t.drop 8).take 2))
      let minute ← need (Text.wholeNumber? ((t.drop 10).take 2))
      let r := { r with hour := some hour, minute := some minute }
      if length = 12 then return (r, 0)
      else return ({ r with second := some (← need (Text.wholeNumber? (t.drop 12))) }, 0)
  else
    match unitFor? before rest with
    | some (some unit, taken) => return (← r.setUnit t n unit, taken)
    | some (none, taken) => return (r, taken)
    | none =>
      match rest with
      | [':'] :: minute :: rest => r.setClock n.whole minute rest
      | next :: rest' =>
        if isSeparator next then r.setSeparated t next rest' else r.setPlain n rest
      | [] => r.setPlain n rest

/-- A month that is spelled as a word, with the members that follow it after a separator, or the
year that follows it after `of`. -/
def setMonth (currentYear : Nat) (r : Reading) (month : Nat) (rest : List Token) : Step := do
  let r ← r.withMembers? (r.members.pushMonth? month)
  match rest with
  | separator :: rest =>
    if separator = ['-'] || separator = ['/'] then
      match rest with
      | [] => .error .unrecognized
      | second :: rest =>
        let r ← r.withMembers? (r.members.pushText? second)
        match rest with
        | [] => return (r, 2)
        | again :: rest =>
          if again = separator then
            match rest with
            | [] => .error .unrecognized
            | third :: _ => return (← r.withMembers? (r.members.pushText? third), 4)
          else return (r, 2)
    else
      match separator, rest with
      | [' '], word :: [' '] :: year :: _ =>
        if isOf word then
          if year.all Text.isDigit then
            let year := nearYear currentYear (← need (Text.wholeNumber? year))
            return (← r.withMembers? (r.members.pushYearText? (Number.digits year)), 4)
          else return (r, 4)
        else return (r, 0)
      | _, _ => return (r, 0)
  | [] => return (r, 0)

/-- The hours and minutes of an offset and how many tokens they take. -/
def offsetParts : List Token → Except Stop (Nat × Nat × Nat)
  | [] => .error .unrecognized
  | digits :: rest =>
    if digits.length = 4 then
      return (← need (Text.wholeNumber? (digits.take 2)),
        ← need (Text.wholeNumber? (digits.drop 2)), 1)
    else
      match rest with
      | [':'] :: rest =>
        return (← need (Text.wholeNumber? digits), ← need (rest.head?.bind Text.wholeNumber?), 3)
      | _ =>
        if digits.length ≤ 2 then return (← need (Text.wholeNumber? digits), 0, 1)
        else .error .unrecognized

/-- An offset after its sign, and the name of its zone if it follows in parentheses. -/
def setOffset (r : Reading) (negative : Bool) (rest : List Token) : Step := do
  let (hours, minutes, taken) ← offsetParts rest
  let size : Int := (3600 * hours + 60 * minutes : Nat)
  let r := { r with offset := some (if negative then -size else size) }
  match rest.drop taken with
  | filler :: ['('] :: name :: [')'] :: _ =>
    if isFiller filler && 3 ≤ name.length && r.zone.isNone && isZoneName name then
      return ({ r with zone := some name }, taken + 4)
    else return (r, taken)
  | _ => return (r, taken)

/-- The name of a zone. A signed number after it tells how far the zone is from universal time,
with the sign the other way round; the zone is then none of universal time. -/
def setZone (r : Reading) (name : Token) (rest : List Token) : Step :=
  let r := { r with zone := some name, offset := if name = ['z'] then some 0 else none }
  match rest with
  | sign :: rest =>
    if sign = ['+'] || sign = ['-'] then do
      let r := { r with offset := none, zone := if isUniversal name then none else some name }
      let (r, taken) ← r.setOffset (sign = ['+']) rest
      return (r, taken + 1)
    else return (r, 0)
  | [] => return (r, 0)

/-- What a token tells, together with those after it that it takes. -/
def step (currentYear : Nat) (r : Reading) (before : List Token) (t : Token) (rest : List Token) :
    Step :=
  if (Numeral.ofToken? t).isSome || isNotFinite t then r.setNumber before t rest
  else
    match weekday? t with
    | some day => return ({ r with weekday := some day }, 0)
    | none =>
      match month? t with
      | some month => r.setMonth currentYear month rest
      | none =>
        match meridiem? t, r.hour with
        | some half, some hour =>
          if hour ≤ 12 then return ({ r with hour := some (half.adjust hour) }, 0)
          else .error .unrecognized
        | some _, none => .error .unrecognized
        | none, hour =>
          if hour.isSome && r.zone.isNone && r.offset.isNone && isZoneName t then r.setZone t rest
          else if hour.isSome && (t = ['+'] || t = ['-']) then r.setOffset (t = ['-']) rest
          else if isFiller t then return (r, 0)
          else .error .unrecognized

/-- Reads the tokens that are left; the first ones of them may have been taken already. -/
def run (currentYear : Nat) : (before : List Token) → (taken : Nat) → Reading → List Token →
    Except Stop Reading
  | _, _, r, [] => .ok r
  | before, taken + 1, r, t :: rest => run currentYear (t :: before) taken r rest
  | before, 0, r, t :: rest => do
    let (r, taken) ← r.step currentYear before t rest
    run currentYear (t :: before) taken r rest

/-- Reads all tokens. -/
def ofTokens (currentYear : Nat) (ts : List Token) : Except Stop Reading :=
  run currentYear [] 0 .empty ts

end Reading

end Formwork.DateText
