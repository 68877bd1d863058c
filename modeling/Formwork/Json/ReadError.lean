import Formwork.Number.Digits
import Formwork.Text.Digit

/-!
# Why a text cannot be read

A text is refused at the first character that cannot continue a document. Most
causes name that position; limits and forbidden constants are reported without it.
-/

namespace Formwork.Json

/-- The constants for numbers that are not finite. -/
inductive Constant where
  | nan
  | infinity
  | negativeInfinity
  deriving DecidableEq, Repr

/-- The spelling of a constant. -/
def Constant.name : Constant → String
  | .nan => "NaN"
  | .infinity => "Infinity"
  | .negativeInfinity => "-Infinity"

/-- The two kinds of containers. -/
inductive Container where
  | array
  | object
  deriving DecidableEq, Repr

/-- The rule of the format that a text breaks at a position. -/
inductive Fault where
  | expectedValue
  | expectedKey
  | expectedColon
  | expectedComma
  | extraData
  | unterminatedText
  | controlCharacter
  | invalidEscape
  | invalidUnicodeEscape
  | byteOrderMark
  deriving DecidableEq, Repr

/-- The wording of a fault. -/
def Fault.message : Fault → String
  | .expectedValue => "Expecting value"
  | .expectedKey => "Expecting property name enclosed in double quotes"
  | .expectedColon => "Expecting ':' delimiter"
  | .expectedComma => "Expecting ',' delimiter"
  | .extraData => "Extra data"
  | .unterminatedText => "Unterminated string starting at"
  | .controlCharacter => "Invalid control character at"
  | .invalidEscape => "Invalid \\escape"
  | .invalidUnicodeEscape => "Invalid \\uXXXX escape"
  | .byteOrderMark => "Unexpected UTF-8 BOM (decode using utf-8-sig)"

/-- Why a text is no document. -/
inductive ReadError where
  | fault (kind : Fault) (position : Nat)
  | constant (name : Constant)
  | tooManyDigits (count : Nat)
  | tooDeep (container : Container)
  deriving DecidableEq, Repr

/-- The line of a position, counted from one. -/
def lineOf (text : List Char) (position : Nat) : Nat :=
  (text.take position).count '\n' + 1

/-- The column of a position in its line, counted from one. -/
def columnOf (text : List Char) (position : Nat) : Nat :=
  ((text.take position).reverse.takeWhile (· != '\n')).length + 1

/-- The message of an error that arose in the text. -/
def ReadError.message (text : List Char) : ReadError → String
  | .fault kind position =>
    kind.message ++ ": line " ++ Number.shown (lineOf text position) ++ " column "
      ++ Number.shown (columnOf text position) ++ " (char " ++ Number.shown position ++ ")"
  | .constant name => "Invalid JSON constant: " ++ name.name
  | .tooManyDigits count =>
    "Exceeds the limit (" ++ Number.shown Text.digitLimit
      ++ " digits) for integer string conversion: value has " ++ Number.shown count
      ++ " digits; use sys.set_int_max_str_digits() to increase the limit"
  | .tooDeep .array =>
    "maximum recursion depth exceeded while decoding a JSON array from a unicode string"
  | .tooDeep .object =>
    "maximum recursion depth exceeded while decoding a JSON object from a unicode string"

end Formwork.Json
