import Formwork.Json.Basic
import Formwork.Number.Text
import Formwork.Text.Quoted

/-!
# Writing a document

One printer writes a value in a style: how scalars are spelled, and what stands
between the brackets and the elements. Three styles are given: a document on one
line, a document with one element on each line, and the display in messages.
-/

namespace Formwork.Json

/-- How a value is written. -/
structure Style where
  null : String
  true : String
  false : String
  text : String → List Char
  numbers : Binary64.Layout
  /-- What follows an element before the next one begins. -/
  comma : List Char
  /-- What stands before an element, and before the closing bracket, at a depth. -/
  gap : Nat → List Char

/-- A character inside the quote marks of a document. -/
def escape (c : Char) : List Char :=
  if c = '"' then ['\\', '"']
  else if c = '\\' then ['\\', '\\']
  else if c = '\n' then ['\\', 'n']
  else if c = '\r' then ['\\', 'r']
  else if c = '\t' then ['\\', 't']
  else if c = '\x0c' then ['\\', 'f']
  else if c = '\x08' then ['\\', 'b']
  else if c.toNat < 0x20 then '\\' :: 'u' :: Text.hexDigits 4 c.toNat
  else [c]

/-- A text as it stands in a document. -/
def textLiteral (s : String) : List Char :=
  '"' :: s.toList.flatMap escape ++ ['"']

mutual

/-- The text of a value at a depth. -/
def print (style : Style) (depth : Nat) : Json → List Char
  | .null => style.null.toList
  | .bool true => style.true.toList
  | .bool false => style.false.toList
  | .num n => n.text style.numbers
  | .str s => style.text s
  | .arr [] => ['[', ']']
  | .arr (j :: rest) =>
    '[' :: style.gap (depth + 1) ++ print style (depth + 1) j
      ++ printElements style (depth + 1) rest ++ style.gap depth ++ [']']
  | .obj [] => ['\x7b', '\x7d']
  | .obj ((key, j) :: rest) =>
    '\x7b' :: style.gap (depth + 1) ++ style.text key ++ [':', ' '] ++ print style (depth + 1) j
      ++ printMembers style (depth + 1) rest ++ style.gap depth ++ ['\x7d']

/-- The elements after the first one. -/
def printElements (style : Style) (depth : Nat) : List Json → List Char
  | [] => []
  | j :: rest =>
    style.comma ++ style.gap depth ++ print style depth j ++ printElements style depth rest

/-- The members after the first one. -/
def printMembers (style : Style) (depth : Nat) : List (String × Json) → List Char
  | [] => []
  | (key, j) :: rest =>
    style.comma ++ style.gap depth ++ style.text key ++ [':', ' '] ++ print style depth j
      ++ printMembers style depth rest

end

/-- A document on one line. -/
def oneLine : Style :=
  { null := "null", true := "true", false := "false", text := textLiteral,
    numbers := Number.written, comma := [',', ' '], gap := fun _ => [] }

/-- A document with one element on each line, each level indented by two spaces more. -/
def indented : Style :=
  { oneLine with comma := [','], gap := fun depth => '\n' :: List.replicate (2 * depth) ' ' }

/-- A value in messages and in the display of a tree. -/
def displayed : Style :=
  { null := "None", true := "True", false := "False",
    text := fun s => (Text.quoted s).toList, numbers := Number.displayed,
    comma := [',', ' '], gap := fun _ => [] }

/-- The text of a value in a style. -/
def render (style : Style) (j : Json) : String :=
  String.ofList (print style 0 j)

end Formwork.Json
