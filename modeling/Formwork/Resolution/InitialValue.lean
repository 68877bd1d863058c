import Formwork.Form

/-!
# Initial values

Initial values stand under binding keys. A field at the top binds its name; an object
at the top binds nothing itself, and each of its properties binds its own key. A later
default replaces an earlier one under the same key, at the place of the earlier one.
Dates are read; a date that cannot be read is left out. Values of the caller come last.
-/

namespace Formwork

variable [Host]

/-- An initial value: a document value, or a date that was read from a default. -/
inductive InitialValue where
  | json (value : Json)
  | date (value : DateTime)
  deriving DecidableEq, Repr

/-- Initial values under their binding keys. -/
abbrev InitialValues := Entries InitialValue

namespace InitialValue

/-- The initial value as a document value; a date stands in its written form, if it has one. -/
def toJson? : InitialValue → Option Json
  | .json j => some j
  | .date d => d.iso?.map .str

end InitialValue

namespace InitialValues

/-- Initial values as the members of an object. -/
def toMembers? (values : InitialValues) : Option (List (String × Json)) :=
  values.mapM fun e => return (e.1, ← e.2.toJson?)

/-- The values of the caller, set over the defaults. -/
def override (defaults overrides : InitialValues) : InitialValues :=
  Entries.merge defaults overrides

end InitialValues

namespace Field

/-- The value that a field gives under a key, none if it has no default or an unreadable date. -/
def initialValue (reference : DateTime) (key : String) (f : Field) :
    Audit Fault (Option InitialValue) :=
  match f.effectiveDefault with
  | none => pure none
  | some v =>
    match f with
    | .leaf _ (.date _ _) _ => do
      match ← tryDate reference v with
      | some d => return some (.date d)
      | none => do
        .note (.dateDropped key v)
        return none
    | _ => pure (some (.json v))

/-- The fields that bind values for a field at the top, with their keys. -/
def bound (f : Field) : List (String × Field) :=
  match f with
  | .object _ properties _ => properties
  | _ => [(f.name, f)]

end Field

namespace Form

/-- Sets the values of fields under their keys, one after another. -/
def setDefaults (reference : DateTime) (values : InitialValues) :
    List (String × Field) → Audit Fault InitialValues
  | [] => pure values
  | (key, f) :: rest => do
    match ← f.initialValue reference key with
    | some v => setDefaults reference (Entries.set values key v) rest
    | none => setDefaults reference values rest

/-- The initial values that the defaults of a form give. -/
def defaults (reference : DateTime) (form : Form) : Audit Fault InitialValues := do
  let values ← setDefaults reference [] (form.fields.flatMap Field.bound)
  .note (.defaultsExtracted values.length)
  return values

end Form

end Formwork
