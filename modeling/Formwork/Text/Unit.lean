/-!
# Units of sixteen bits

A character beyond the first 65536 is spelled as a pair of units, each from a range of
its own. Units of these ranges stand for no character by themselves. Texts are restricted
to Unicode scalar values, so half of a pair has no place in one: where a document spells
it alone, the replacement character stands in for it.
-/

namespace Formwork.Text

/-- The unit opens a pair. -/
def isHighUnit (unit : Nat) : Bool :=
  0xD800 ≤ unit && unit < 0xDC00

/-- The unit closes a pair. -/
def isLowUnit (unit : Nat) : Bool :=
  0xDC00 ≤ unit && unit < 0xE000

/-- The character of a pair of units. -/
def ofPair (high low : Nat) : Char :=
  Char.ofNat (0x10000 + 0x400 * (high - 0xD800) + (low - 0xDC00))

/-- The character in place of half of a pair. -/
def replacement : Char := '\ufffd'

/-- The character of a number that is not part of a pair. -/
def ofUnit (unit : Nat) : Char :=
  if isHighUnit unit || isLowUnit unit then replacement else Char.ofNat unit

/-- A pair spells the character of its number. -/
theorem toNat_ofPair {high low : Nat} (opens : isHighUnit high = true)
    (closes : isLowUnit low = true) :
    (ofPair high low).toNat = 0x10000 + 0x400 * (high - 0xD800) + (low - 0xDC00) := by
  simp only [isHighUnit, isLowUnit, Bool.and_eq_true, decide_eq_true_eq] at opens closes
  have valid : (0x10000 + 0x400 * (high - 0xD800) + (low - 0xDC00)).isValidChar := by
    right
    omega
  unfold ofPair Char.ofNat
  rw [dif_pos valid]
  rfl

end Formwork.Text
