import Formwork.Number.Binary64
import Formwork.Number.Digits

/-!
# Shortest decimal digits

Of all decimals that round to a given binary number, the one with the fewest
digits is chosen, and of those the nearest. All comparisons are made in quarters
of a unit, multiplied by a power of ten that makes every grid a grid of integers.
-/

namespace Formwork.Binary64

/-- Decimal digits without trailing zeros, and the power of ten of the first of them. -/
structure Decimal where
  digits : List Char
  exponent : Int
  deriving DecidableEq, Repr

/-- The finest decimal grid has steps of `10 ^ -340`. -/
def finestGrid : Nat := 340

/-- The reals that round to a magnitude: they lie between two ends, given in quarters of a
unit, and the ends themselves belong to it if the significand is even. -/
structure Basin where
  low : Nat
  centre : Nat
  high : Nat
  ends : Bool
  deriving DecidableEq, Repr

/-- The basin of a positive magnitude. Below a power of two the lower neighbour is half as far. -/
def basin (exponent : Fin 2047) (fraction : Fin (Nat.pow 2 52)) : Basin :=
  let (significand, power) := parts exponent fraction
  let step := Nat.pow 2 power
  let below := if fraction.val = 0 && 1 < exponent.val then step else 2 * step
  let centre := 4 * significand * step
  ⟨centre - below, centre, centre + 2 * step, significand % 2 == 0⟩

/-- A multiple of the finest grid, in the scale in which basins are compared. -/
def ofGrid (point : Nat) : Nat :=
  point * (4 * unitsPerOne)

/-- A point of the finest grid lies in the basin. -/
def Basin.holds (b : Basin) (point : Nat) : Bool :=
  let low := b.low * Nat.pow 10 finestGrid
  let high := b.high * Nat.pow 10 finestGrid
  let x := ofGrid point
  (low < x && x < high) || (b.ends && (x == low || x == high))

/-- The power of ten of the first digit of a magnitude, counted from the finest grid on. -/
def Basin.leading (b : Basin) : Nat :=
  Number.digitCount (b.centre * Nat.pow 10 finestGrid / (4 * unitsPerOne)) - 1

/-- Of a number and the next one, the one that qualifies; if both do, the first one only if it is
preferred. -/
def eitherOf (first : Nat) (firstQualifies nextQualifies preferred : Bool) : Option Nat :=
  match firstQualifies, nextQualifies with
  | false, false => none
  | true, false => some first
  | false, true => some (first + 1)
  | true, true => if preferred then some first else some (first + 1)

/-- The better one of the two neighbours of the centre on the grid of a power of ten, if any
lies in the basin: the nearer one, and of two that are equally near the even one. -/
def Basin.neighbour? (b : Basin) (power : Nat) : Option Nat :=
  let grid := Nat.pow 10 power
  let centre := b.centre * Nat.pow 10 finestGrid
  let down := centre / ofGrid grid
  let toDown := centre - ofGrid (down * grid)
  let toUp := ofGrid ((down + 1) * grid) - centre
  eitherOf down (b.holds (down * grid)) (b.holds ((down + 1) * grid))
    (toDown < toUp || (toDown == toUp && down % 2 == 0))

/-- Looks for a neighbour on the grids of `count` digits and more, at most `more` further ones. -/
def Basin.search (b : Basin) (count : Nat) : Nat → Option (Nat × Nat)
  | 0 => none
  | more + 1 =>
    let power := b.leading + 1 - count
    (b.neighbour? power).map (·, power) <|> b.search (count + 1) more

/-- The digits without the zeros at the end. -/
def trimZeros (ds : List Char) : List Char :=
  (ds.reverse.dropWhile (· == '0')).reverse

/-- The decimal of a point on the grid of a power of ten. -/
def Decimal.ofPoint (point power : Nat) : Decimal :=
  let ds := Number.digits point
  ⟨trimZeros ds, (power + ds.length : Nat) - (finestGrid + 1 : Nat)⟩

/-- The shortest digits of a positive magnitude. -/
def shortest (exponent : Fin 2047) (fraction : Fin (Nat.pow 2 52)) : Decimal :=
  ((basin exponent fraction).search 1 17).elim ⟨['0'], 0⟩ fun (point, power) =>
    .ofPoint point power

theorem eitherOf_eq_some {first n : Nat} {firstQualifies nextQualifies preferred : Bool}
    (h : eitherOf first firstQualifies nextQualifies preferred = some n) :
    n = first ∧ firstQualifies = true ∨ n = first + 1 ∧ nextQualifies = true := by
  cases firstQualifies <;> cases nextQualifies <;> simp [eitherOf] at h ⊢
  · exact h.symm
  · exact h.symm
  · split at h <;> cases h <;> simp

/-- One of the two is taken as soon as one qualifies. -/
theorem exists_eitherOf {first : Nat} {firstQualifies nextQualifies preferred : Bool}
    (h : firstQualifies = true ∨ nextQualifies = true) :
    ∃ n, eitherOf first firstQualifies nextQualifies preferred = some n := by
  cases firstQualifies <;> cases nextQualifies <;> cases preferred <;> simp [eitherOf] at h ⊢

end Formwork.Binary64
