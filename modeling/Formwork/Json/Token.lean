import Formwork.Json.Basic
import Formwork.Json.ReadError
import Formwork.Number.Text
import Formwork.Text.Unit

/-!
# Tokens of a document

A text is cut into brackets, separators and scalars, each with the position of
its first character. The cutting stops at the first piece that is no token; that
piece is kept as a broken one, since its error counts only where a scalar may stand.
Texts hold Unicode scalar values only: half of a pair of units that is escaped alone is
replaced.
-/

namespace Formwork.Json

/-- A piece of a text. -/
inductive Token where
  | beginArray
  | endArray
  | beginObject
  | endObject
  | comma
  | colon
  | text (value : String)
  | scalar (value : Json)
  | constant (name : Constant)
  /-- A piece that begins with a quote mark and is no text. -/
  | brokenText (error : ReadError)
  /-- Any other piece that is no token. -/
  | broken (error : ReadError)
  deriving Repr

/-- A token and the position of its first character. -/
structure Placed where
  position : Nat
  token : Token
  deriving Repr

/-- The four characters that may stand between tokens. -/
def isSpace (c : Char) : Bool :=
  c == ' ' || c == '\t' || c == '\n' || c == '\r'

/-- The value of a digit of base sixteen, in either case. -/
def hexValue? (c : Char) : Option Nat :=
  if '0' ≤ c && c ≤ '9' then some (c.toNat - 48)
  else if 'a' ≤ c && c ≤ 'f' then some (c.toNat - 87)
  else if 'A' ≤ c && c ≤ 'F' then some (c.toNat - 55)
  else none

/-- The value of four digits of base sixteen. -/
def hexUnit? (a b c d : Char) : Option Nat := do
  return 4096 * (← hexValue? a) + 256 * (← hexValue? b) + 16 * (← hexValue? c) + (← hexValue? d)

/-- The character that a backslash and a letter stand for. -/
def escaped? : Char → Option Char
  | '"' => some '"'
  | '\\' => some '\\'
  | '/' => some '/'
  | 'b' => some '\x08'
  | 'f' => some '\x0c'
  | 'n' => some '\n'
  | 'r' => some '\r'
  | 't' => some '\t'
  | _ => none

/-- What follows a unit: nothing that belongs to it, the unit that completes it, or an escape
with digits that are none. -/
inductive Follower where
  | single
  | pair (low : Nat)
  | broken

/-- Looks at the text after a unit. The six characters of a second unit count only if a
further character follows them. -/
def follower (unit : Nat) : List Char → Follower
  | '\\' :: 'u' :: a :: b :: c :: d :: _ :: _ =>
    if Text.isHighUnit unit then
      match hexUnit? a b c d with
      | none => .broken
      | some low => if Text.isLowUnit low then .pair low else .single
    else .single
  | _ => .single

/-- Reads a text from after its first quote mark on. Gives the text, the position after it and
the rest. `start` is the position of the first quote mark, `before` the characters so far, last
one first. -/
def textBody (start : Nat) :
    Nat → List Char → List Char → Except ReadError (String × Nat × List Char)
  | _, _, [] => .error (.fault .unterminatedText start)
  | position, before, c :: rest =>
    if c = '"' then .ok (String.ofList before.reverse, position + 1, rest)
    else if c = '\\' then
      match rest with
      | [] => .error (.fault .unterminatedText start)
      | 'u' :: digits =>
        match digits with
        | a :: b :: c :: d :: tail =>
          match hexUnit? a b c d with
          | none => .error (.fault .invalidUnicodeEscape (position + 1))
          | some unit =>
            if tail.isEmpty then .error (.fault .invalidUnicodeEscape (position + 1))
            else
            match follower unit tail with
            | .single => textBody start (position + 6) (Text.ofUnit unit :: before) tail
            | .broken => .error (.fault .invalidUnicodeEscape (position + 7))
            | .pair low =>
              match tail with
              | _ :: _ :: _ :: _ :: _ :: _ :: tail =>
                textBody start (position + 12) (Text.ofPair unit low :: before) tail
              | _ => .error (.fault .unterminatedText start)
        | _ => .error (.fault .invalidUnicodeEscape (position + 1))
      | e :: rest =>
        match escaped? e with
        | none => .error (.fault .invalidEscape position)
        | some x => textBody start (position + 2) (x :: before) rest
    else if c.toNat < 0x20 then .error (.fault .controlCharacter position)
    else textBody start (position + 1) (c :: before) rest

/-- One of the digits `0` to `9`. -/
def isDigit (c : Char) : Bool :=
  '0' ≤ c && c ≤ '9'

/-- The whole part at the front of a text: a zero, or digits that begin with another one. -/
def wholePart : List Char → List Char
  | [] => []
  | c :: rest =>
    if c = '0' then ['0']
    else if isDigit c then c :: rest.takeWhile isDigit
    else []

/-- The fraction digits at the front of a text that follow a point; none without a digit. -/
def fractionPart : List Char → List Char
  | '.' :: rest => rest.takeWhile isDigit
  | _ => []

/-- An exponent as it is spelled: how many characters it takes, and its value. -/
structure Exponent where
  length : Nat
  value : Int

/-- The exponent at the front of a text, if a digit follows the letter and the optional sign. -/
def exponentPart? : List Char → Option Exponent
  | [] => none
  | letter :: rest =>
    if letter = 'e' || letter = 'E' then
      let (sign, ds) :=
        match rest with
        | '-' :: rest => ((some true : Option Bool), rest.takeWhile isDigit)
        | '+' :: rest => (some false, rest.takeWhile isDigit)
        | _ => (none, rest.takeWhile isDigit)
      if ds.isEmpty then none
      else
        let size : Int := Number.ofDigits ds
        some ⟨1 + (if sign.isSome then 1 else 0) + ds.length,
          if sign = some true then -size else size⟩
    else none

/-- The number at the front of a text as a token, and how many characters it takes. -/
def numberToken (position : Nat) (s : List Char) : Token × Nat :=
  let negative := s.head? == some '-'
  let unsigned := if negative then s.drop 1 else s
  let sign := if negative then 1 else 0
  let whole := wholePart unsigned
  if whole.isEmpty then (.broken (.fault .expectedValue position), 0)
  else
    let afterWhole := unsigned.drop whole.length
    let fraction := fractionPart afterWhole
    let pointed := if fraction.isEmpty then 0 else 1 + fraction.length
    let exponent := exponentPart? (afterWhole.drop pointed)
    let length := sign + whole.length + pointed + (exponent.map (·.length)).getD 0
    if fraction.isEmpty && exponent.isNone then
      if Text.digitLimit < whole.length then (.broken (.tooManyDigits whole.length), 0)
      else
        let size : Int := Number.ofDigits whole
        (.scalar (.int (if negative then -size else size)), length)
    else
      let power := (exponent.map (·.value)).getD 0 - fraction.length
      let value := Binary64.ofDecimal negative (Number.ofDigits (whole ++ fraction)) power
      (.scalar (.num (.float value)), length)

/-- The words that are tokens. -/
def words : List (String × Token) :=
  [("null", .scalar .null), ("true", .scalar (.bool true)), ("false", .scalar (.bool false)),
    ("NaN", .constant .nan), ("Infinity", .constant .infinity),
    ("-Infinity", .constant .negativeInfinity)]

/-- The word at the front of a text, whatever follows it. -/
def word? (s : List Char) : Option (Token × Nat) :=
  (words.find? fun w => w.1.toList.isPrefixOf s).map fun w => (w.2, w.1.length)

/-- A bracket or a separator. -/
def punctuation? : Char → Option Token
  | '[' => some .beginArray
  | ']' => some .endArray
  | '{' => some .beginObject
  | '}' => some .endObject
  | ',' => some .comma
  | ':' => some .colon
  | _ => none

/-- A broken piece ends the cutting. -/
def Token.isBroken : Token → Bool
  | .brokenText _ | .broken _ => true
  | _ => false

/-- The token at the front of a text that begins with no space, the position after it, and the
rest. -/
def nextToken (position : Nat) (first : Char) (rest : List Char) : Token × Nat × List Char :=
  match punctuation? first with
  | some t => (t, position + 1, rest)
  | none =>
    if first = '"' then
      match textBody position (position + 1) [] rest with
      | .ok (value, after, rest) => (.text value, after, rest)
      | .error e => (.brokenText e, position, [])
    else
      let (token, length) := (word? (first :: rest)).getD (numberToken position (first :: rest))
      (token, position + length, (first :: rest).drop length)

/-- Cuts a text from a position on; each step takes one of the steps that are left. -/
def cut : Nat → Nat → List Char → List Placed
  | 0, _, _ => []
  | _ + 1, _, [] => []
  | steps + 1, position, c :: rest =>
    if isSpace c then cut steps (position + 1) rest
    else
      let (token, after, rest) := nextToken position c rest
      ⟨position, token⟩ :: if token.isBroken then [] else cut steps after rest

/-- The tokens of a text. Every token has a character, so as many steps as characters suffice. -/
def tokens (text : List Char) : List Placed :=
  cut text.length 0 text

end Formwork.Json
