import Formwork.Number.Basic
import Formwork.Number.Shortest

/-!
# Numbers in text

Integers are written with all their digits. Binary numbers are written with the
shortest digits that read back, in positional form if the first digit stands at
`10 ^ -4` to `10 ^ 15`, else with an exponent. A binary number always shows a
point or an exponent, so it is told apart from an integer.
-/

namespace Formwork

/-- How a binary number is laid out. -/
structure Binary64.Layout where
  /-- The least exponent in positional form. -/
  leastPositional : Int
  /-- The first exponent that is too great for positional form. -/
  firstScientific : Int
  /-- The least number of digits of an exponent. -/
  exponentWidth : Nat
  undefined : String
  infinity : String

/-- Digits from the first place before the point on, and the point in its place. -/
def Binary64.positional (d : Binary64.Decimal) : List Char :=
  match d.exponent with
  | .ofNat e =>
    let whole := d.digits.take (e + 1)
    let fraction := d.digits.drop (e + 1)
    whole ++ List.replicate (e + 1 - whole.length) '0' ++ '.' ::
      (if fraction.isEmpty then ['0'] else fraction)
  | .negSucc e => '0' :: '.' :: List.replicate e '0' ++ d.digits

/-- One digit before the point, and the exponent with its sign. -/
def Binary64.scientific (width : Nat) (d : Binary64.Decimal) : List Char :=
  let head := d.digits.take 1
  let tail := d.digits.drop 1
  head ++ (if tail.isEmpty then [] else '.' :: tail) ++
    'e' :: (if d.exponent < 0 then '-' else '+') :: Number.padded width d.exponent.natAbs

/-- The text of a binary number in a layout. -/
def Binary64.text (layout : Binary64.Layout) : Binary64 → List Char
  | .undefined => layout.undefined.toList
  | .infinity negative => (if negative then ['-'] else []) ++ layout.infinity.toList
  | .finite negative e f =>
    let size :=
      if Binary64.units e f = 0 then ['0', '.', '0']
      else
        let d := Binary64.shortest e f
        if layout.leastPositional ≤ d.exponent && d.exponent < layout.firstScientific then
          Binary64.positional d
        else Binary64.scientific layout.exponentWidth d
    if negative then '-' :: size else size

namespace Number

/-- Binary numbers in messages and in the display of values. -/
def displayed : Binary64.Layout :=
  { leastPositional := -4, firstScientific := 16, exponentWidth := 2,
    undefined := "nan", infinity := "inf" }

/-- Binary numbers in documents. -/
def written : Binary64.Layout :=
  { displayed with undefined := "NaN", infinity := "Infinity" }

/-- The text of a number in a layout for binary numbers. -/
def text (layout : Binary64.Layout) : Number → List Char
  | .int n => intText n
  | .float x => x.text layout

/-- The text of a number in messages. -/
def display (n : Number) : String :=
  String.ofList (n.text displayed)

end Number

end Formwork
