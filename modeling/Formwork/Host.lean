import Formwork.Json.Reader

/-!
# Hosts

A host is what a computation runs on, as far as an outcome can depend on it: the year of
its clock, and the room on its stack for the calls that copy a value. That room differs
from host to host, and gets less with each level of nested fields. What holds on every
host is that copies of lists and mappings of scalars have room, and that reading opens at
least twice as many containers as there is room to copy.
-/

namespace Formwork

/-- The most calls of a copy that may be open at once on any host. -/
def roomLimit : Nat := Json.openLimit / 2

/-- What a computation runs on. Room is counted in calls of a copy that may be open at once. -/
class Host where
  /-- The year of the clock. -/
  year : Nat
  /-- The room for copies of the rules of a field at a level. -/
  ruleRoom : Nat → Nat
  /-- The room for a copy of the default of a field at a level. -/
  defaultRoom : Nat → Nat
  /-- The room for a copy of the values of a caller. -/
  callerRoom : Nat
  ruleRoom_anti : ∀ {level more : Nat}, level ≤ more → ruleRoom more ≤ ruleRoom level
  defaultRoom_anti : ∀ {level more : Nat}, level ≤ more → defaultRoom more ≤ defaultRoom level
  two_le_defaultRoom : ∀ level : Nat, 2 ≤ defaultRoom level
  two_le_callerRoom : 2 ≤ callerRoom
  ruleRoom_le : ∀ level : Nat, ruleRoom level ≤ roomLimit
  defaultRoom_le : ∀ level : Nat, defaultRoom level ≤ roomLimit
  callerRoom_le : callerRoom ≤ roomLimit

/-- The room for any copy on the standard host. General results hold with any other room. -/
def copyLimit : Nat := 480

namespace Host

/-- The host that stands in where none is given, to evaluate with. -/
@[reducible] def standard : Host where
  year := 2024
  ruleRoom _ := copyLimit
  defaultRoom _ := copyLimit
  callerRoom := copyLimit
  ruleRoom_anti _ := Nat.le_refl _
  defaultRoom_anti _ := Nat.le_refl _
  two_le_defaultRoom _ := by decide
  two_le_callerRoom := by decide
  ruleRoom_le _ := by decide
  defaultRoom_le _ := by decide
  callerRoom_le := by decide

/-- The same host in another year. -/
@[reducible] def inYear (host : Host) (year : Nat) : Host :=
  { host with year }

end Host

end Formwork
