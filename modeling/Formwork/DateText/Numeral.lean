import Formwork.DateText.Token
import Formwork.Number.Binary64
import Formwork.Number.Digits

/-!
# Numerals of a date text

A numeral is an exact decimal with any number of digits. Only its fraction is ever
rounded, to twenty-eight digits, when it is turned into minutes or seconds.
-/

namespace Formwork.DateText

/-- The number `whole + fraction / 10 ^ places`. -/
structure Numeral where
  whole : Nat
  fraction : Nat
  places : Nat
  deriving DecidableEq, Repr

/-- The decimal digits of a token as a numeral, with at most one point inside. -/
def Numeral.ofToken? (t : Token) : Option Numeral := do
  let whole ← Text.natOfDigits? (t.takeWhile (· != '.'))
  match t.dropWhile (· != '.') with
  | [] => return ⟨whole, 0, 0⟩
  | _ :: ds => return ⟨whole, ← Text.natOfDigits? ds, ds.length⟩

namespace Numeral

/-- The numeral lies between one and a whole number, both included. -/
def isWithin (n : Numeral) (last : Nat) : Bool :=
  1 ≤ n.whole && (n.whole < last || (n.whole == last && n.fraction == 0))

/-- The numeral is greater than a whole number. -/
def exceeds (n : Numeral) (bound : Nat) : Bool :=
  bound < n.whole || (n.whole == bound && n.fraction != 0)

/-- The digits that a result keeps. -/
def precision : Nat := 28

/-- Rounds a number of units to the precision, a half to the even neighbour. -/
def round (units : Nat) : Nat :=
  let excess := Number.digitCount units - precision
  Binary64.roundDiv units (Nat.pow 10 excess) * Nat.pow 10 excess

/-- Sixty times the fraction, cut to a whole number; none without a fraction. A whole part that
needs more digits than the precision has no fraction to speak of. -/
def sixtieths (n : Numeral) : Except Unit (Option Nat) :=
  if Nat.pow 10 precision ≤ n.whole then .error ()
  else if n.fraction = 0 then .ok none
  else .ok (some (round (60 * round n.fraction) / Nat.pow 10 n.places))

end Numeral

end Formwork.DateText
