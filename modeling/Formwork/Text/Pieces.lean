import Formwork.Text.Blank
import Formwork.Text.Digit

/-!
# Pieces of a text

A text is cut at every occurrence of a mark. Lines are the pieces between line feeds;
other line ends are turned into line feeds first. A whole number may be surrounded by
blanks, and its digits may be grouped.
-/

namespace Formwork.Text

/-- The pieces of a text between marks. There is one piece more than there are marks. -/
def pieces (mark : Char) : List Char → List (List Char)
  | [] => [[]]
  | c :: cs =>
    if c = mark then [] :: pieces mark cs
    else
      match pieces mark cs with
      | [] => [[c]]
      | p :: ps => (c :: p) :: ps

/-- The lines of a text. -/
def lines (s : String) : List String :=
  (pieces '\n' s.toList).map String.ofList

/-- The text with a line feed for every line end. -/
def unifyLineEnds : List Char → List Char
  | [] => []
  | '\r' :: '\n' :: cs => '\n' :: unifyLineEnds cs
  | '\r' :: cs => '\n' :: unifyLineEnds cs
  | c :: cs => c :: unifyLineEnds cs

/-- The character may stand around a whole number: a blank that is no separator of information,
as the four characters before the space are. -/
def padsInteger (c : Char) : Bool :=
  isBlank c && !('\x1c' ≤ c && c ≤ '\x1f')

/-- The text without the padding at its ends. -/
def unpad (cs : List Char) : List Char :=
  ((cs.dropWhile padsInteger).reverse.dropWhile padsInteger).reverse

/-- The number that digits spell whose groups are joined by single underscores. -/
def groupedNumber? (cs : List Char) : Option Nat := do
  let groups := pieces '_' cs
  if groups.any List.isEmpty then none else wholeNumber? groups.flatten

/-- The whole number that a text spells. -/
def integer? (cs : List Char) : Option Int :=
  match unpad cs with
  | '+' :: ds => (groupedNumber? ds).map Int.ofNat
  | '-' :: ds => (groupedNumber? ds).map fun n => -Int.ofNat n
  | ds => (groupedNumber? ds).map Int.ofNat

end Formwork.Text
