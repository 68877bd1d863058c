import Formwork.Field.Basic
import Formwork.Log.Audit

/-!
# Values of fields

A value is checked against the field that it is meant for. Objects and arrays are
opened one level deep: inside them, what is meant for an object or an array field is
accepted as it is. The first entry that is wrong is reported.
-/

namespace Formwork

variable [Host]

/-- Reads a value as a date; a rejection leaves a record. -/
def tryDate (reference : DateTime) (value : Json) : Audit Fault (Option DateTime) :=
  match DateText.parse reference value with
  | .ok d => pure (some d)
  | .error (.rejected reason) => do
    .note (.dateRejected reason)
    return none
  | .error .imprecise => .fail .imprecise

/-- No mismatch if a condition holds. -/
def mismatchUnless (holds : Bool) (m : Mismatch) : Option Mismatch :=
  if holds then none else some m

namespace Leaf

/-- Checks a value that is meant for a leaf. -/
def check (value : Json) : Leaf → Audit Fault (Option Mismatch)
  | .string _ | .longtext _ _ | .json =>
    match value with
    | .str _ => pure none
    | _ => pure (some .notText)
  | .number _ _ _ =>
    match value with
    | .num _ => pure none
    | _ => pure (some .notNumber)
  | .checkbox _ =>
    match value with
    | .bool _ => pure none
    | _ => pure (some .notBoolean)
  | .radio options => pure (mismatchUnless (Choice.offered options value) .notOption)
  | .select options none => pure (mismatchUnless (Choice.offered options value) .notOption)
  | .select options (some _) =>
    match value with
    | .arr values => pure (mismatchUnless (values.all (Choice.offered options)) .notOption)
    | _ => pure (some .notOptionList)
  | .upload _ _ _ _ _ =>
    match value with
    | .arr _ => pure none
    | _ => pure (some .notList)
  | .date _ _ => do
    let d ← tryDate .epoch value
    return mismatchUnless d.isSome .notDate

end Leaf

namespace Field

/-- Checks a value inside an object or an array. -/
def checkInner (value : Json) : Field → Audit Fault (Option Mismatch)
  | .leaf _ l _ => l.check value
  | .array _ _ _ _ | .object _ _ _ => pure none

/-- Checks the entries of an object against the properties, up to the first that is wrong. -/
def checkEntries (properties : List (String × Field)) :
    List (String × Json) → Audit Fault (Option Mismatch)
  | [] => pure none
  | (key, value) :: rest =>
    match properties.lookup key with
    | none => pure (some (.unknownProperty key))
    | some f => do
      match ← f.checkInner value with
      | some m => return some (.property key m)
      | none => checkEntries properties rest

/-- Checks the elements of an array from an index on, up to the first that is wrong. -/
def checkElements (items : Field) (index : Nat) : List Json → Audit Fault (Option Mismatch)
  | [] => pure none
  | value :: rest => do
    match ← items.checkInner value with
    | some m => return some (.item index m)
    | none => checkElements items (index + 1) rest

/-- Checks a value that is meant for a field. -/
def check (value : Json) : Field → Audit Fault (Option Mismatch)
  | .leaf _ l _ => l.check value
  | .object _ properties _ =>
    match value with
    | .obj members => checkEntries properties members
    | _ => pure (some .notObject)
  | .array _ items _ _ =>
    match value with
    | .arr elements => checkElements items 0 elements
    | _ => pure (some .notList)

end Field

end Formwork
