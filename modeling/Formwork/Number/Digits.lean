/-!
# Decimal digits of whole numbers

Digits are given from the most significant one on, without leading zeros; zero
has the one digit `0`.
-/

namespace Formwork.Number

/-- The decimal digits of a number, the first one not zero unless it is the only one. -/
def digits (n : Nat) : List Char :=
  Nat.toDigits 10 n

/-- The number of decimal digits. -/
def digitCount (n : Nat) : Nat :=
  (digits n).length

/-- A number in a message. -/
def shown (n : Nat) : String :=
  String.ofList (digits n)

/-- The digits, with zeros in front up to the width. -/
def padded (width n : Nat) : List Char :=
  let ds := digits n
  List.replicate (width - ds.length) '0' ++ ds

/-- A whole number, with a sign only if it is negative. -/
def intText : Int → List Char
  | .ofNat n => digits n
  | .negSucc n => '-' :: digits (n + 1)

/-- The value of a text of the digits `0` to `9`. -/
def ofDigits (ds : List Char) : Nat :=
  ds.foldl (fun sum c => 10 * sum + (c.toNat - 48)) 0

theorem length_padded (width n : Nat) : (padded width n).length = max width (digitCount n) := by
  simp [padded, digitCount]
  omega

end Formwork.Number
