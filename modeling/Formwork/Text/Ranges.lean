/-!
# Ranges of code points

A class of characters is given by the list of the ranges of code points that it
holds. Membership looks at every range, so the list may be in any order.
-/

namespace Formwork.Text

/-- Ranges of code points, both ends included. -/
abbrev Ranges := List (Nat × Nat)

/-- The character lies in one of the ranges. -/
def Ranges.has (ranges : Ranges) (c : Char) : Bool :=
  ranges.any fun r => r.1 ≤ c.toNat && c.toNat ≤ r.2

/-- The first range that holds the character. -/
def Ranges.of? (ranges : Ranges) (c : Char) : Option (Nat × Nat) :=
  ranges.find? fun r => r.1 ≤ c.toNat && c.toNat ≤ r.2

end Formwork.Text
