/-!
# Binary numbers of 64 bits

A finite number is a sign, an exponent field and a fraction field of the
interchange format. Its magnitude is a whole number of units of `2 ^ -1074`, the
least positive number of the format, so order, whole parts and rounding are
arithmetic of natural numbers.
-/

namespace Formwork

/-- A number of the binary interchange format with 64 bits, all undefined results in one. -/
inductive Binary64 where
  | undefined
  | infinity (negative : Bool)
  | finite (negative : Bool) (exponent : Fin 2047) (fraction : Fin (Nat.pow 2 52))
  deriving DecidableEq, Repr, Inhabited

namespace Binary64

/-- The units that make up one. -/
def unitsPerOne : Nat := Nat.pow 2 1074

theorem unitsPerOne_pos : 0 < unitsPerOne := by
  decide +kernel

/-- The significand and the power of two that it is multiplied with to count units. -/
def parts (exponent : Fin 2047) (fraction : Fin (Nat.pow 2 52)) : Nat × Nat :=
  if exponent.val = 0 then (fraction.val, 0) else (Nat.pow 2 52 + fraction.val, exponent.val - 1)

/-- The magnitude in units. -/
def units (exponent : Fin 2047) (fraction : Fin (Nat.pow 2 52)) : Nat :=
  (parts exponent fraction).1 * Nat.pow 2 (parts exponent fraction).2

/-- The quotient rounded to a whole number, a half to the even neighbour. -/
def roundDiv (num den : Nat) : Nat :=
  let quotient := num / den
  let rest := num % den
  if den < 2 * rest || (2 * rest == den && quotient % 2 == 1) then quotient + 1 else quotient

/-- The number `significand * 2 ^ power` units, for a significand of at most `2 ^ 53`. -/
def assemble (negative : Bool) (significand power : Nat) : Binary64 :=
  let exponent := power + significand / Nat.pow 2 52
  if h : exponent < 2047 then
    .finite negative ⟨exponent, h⟩
      ⟨significand % Nat.pow 2 52, Nat.mod_lt _ (Nat.two_pow_pos 52)⟩
  else
    .infinity negative

/-- The number nearest to a quotient of units, a half to the even significand. -/
def ofUnits (negative : Bool) (num den : Nat) : Binary64 :=
  let power := (num / den).log2 - 52
  assemble negative (roundDiv num (den * Nat.pow 2 power)) power

/-- A whole number times a power of ten, rounded to the nearest number of the format.
Magnitudes that lie far outside of the format are settled by their size alone. -/
def ofDecimal (negative : Bool) (significand : Nat) (exponent : Int) : Binary64 :=
  let size : Int := exponent + significand.log2 / 4
  if significand = 0 then assemble negative 0 0
  else if 400 < size then .infinity negative
  else if exponent + significand.log2 < -400 then assemble negative 0 0
  else
    match exponent with
    | .ofNat e => ofUnits negative (significand * Nat.pow 10 e * unitsPerOne) 1
    | .negSucc e => ofUnits negative (significand * unitsPerOne) (Nat.pow 10 (e + 1))

end Binary64

end Formwork
