import Formwork.Number.Binary64
import Formwork.Number.Digits

/-!
# Numbers of a document

A document spells a number as an integer of any size or as a binary number. The
two kinds stay apart, and compare by their exact values.
-/

namespace Formwork

/-- A number of a document. -/
inductive Number where
  | int (value : Int)
  | float (value : Binary64)
  deriving DecidableEq, Repr, Inhabited

namespace Number

/-- The place of a number on the extended line, finite places in units of `2 ^ -1074`. -/
inductive Place where
  | below
  | at (units : Int)
  | above
  deriving DecidableEq, Repr

/-- The strict order of the extended line. -/
def Place.lt : Place → Place → Bool
  | .below, .below => false
  | .below, _ => true
  | .at _, .below => false
  | .at x, .at y => x < y
  | .at _, .above => true
  | .above, _ => false

/-- The place of a number; an undefined one has none. -/
def place? : Number → Option Place
  | .int n => some (.at (n * Binary64.unitsPerOne))
  | .float .undefined => none
  | .float (.infinity true) => some .below
  | .float (.infinity false) => some .above
  | .float (.finite negative e f) =>
    let size : Int := Binary64.units e f
    some (.at (if negative then -size else size))

/-- The first number is less than the second. -/
def lt (a b : Number) : Bool :=
  match a.place?, b.place? with
  | some x, some y => x.lt y
  | _, _ => false

/-- The two numbers have the same value. -/
def same (a b : Number) : Bool :=
  match a.place?, b.place? with
  | some x, some y => x == y
  | _, _ => false

/-- The value as an integer, if it is one. -/
def toInt? : Number → Option Int
  | .int n => some n
  | .float (.finite negative e f) =>
    let size := Binary64.units e f
    if size % Binary64.unitsPerOne = 0 then
      let whole : Int := (size / Binary64.unitsPerOne : Nat)
      some (if negative then -whole else whole)
    else none
  | .float _ => none

theorem lt_int (a b : Int) : (Number.int a).lt (.int b) = decide (a < b) := by
  have : (0 : Int) < Binary64.unitsPerOne := by
    have := Binary64.unitsPerOne_pos
    omega
  simp only [lt, place?, Place.lt, decide_eq_decide]
  exact Int.mul_lt_mul_right this

end Number

end Formwork
