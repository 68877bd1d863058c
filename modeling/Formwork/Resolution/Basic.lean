import Formwork.Resolution.Descriptor

/-!
# Resolution of a form

A form is resolved to one descriptor for each of its fields at the top and to the
initial values of all inputs. A source is verified first; if it is refused, the failure
is the outcome and nothing is resolved.
-/

namespace Formwork

/-- A resolved form. -/
structure Resolution where
  form : Form
  tree : List Descriptor
  values : InitialValues
  deriving Repr

/-- What is handed in for initial values cannot be used. -/
inductive ResolveError where
  | fault (fault : Fault)
  | notObject (value : Json)
  deriving DecidableEq, Repr

/-- The message of an error that is no fault. -/
def ResolveError.message? : ResolveError → Option String
  | .fault _ => none
  | .notObject value => some ("initial_values must be a mapping, got " ++ value.kindName)

namespace Resolution

/-- All inputs, each before those that it encloses. -/
def walk (r : Resolution) : List Descriptor :=
  Descriptor.walkAll r.tree

/-- The first input at a path. -/
def find? (r : Resolution) (path : String) : Option Descriptor :=
  r.walk.find? fun d => d.widget.path == path

/-- The keys that inputs are bound to. -/
def bindings (r : Resolution) : List String :=
  r.walk.map fun d => d.widget.binding

/-- Those of the given keys that no input is bound to, in the order of their characters. -/
def unbound (r : Resolution) (keys : List String) : List String :=
  (keys.filter fun k => !r.bindings.contains k).mergeSort fun a b => decide (a ≤ b)

/-- A resolution as a document value, none if a date among its values has no written form. -/
def toJson? (r : Resolution) : Option Json := do
  let fields ← Descriptor.toJsonAll? r.tree
  let values ← InitialValues.toMembers? r.values
  return .obj [("valid", .bool true), ("fields", .arr fields), ("initialValues", .obj values)]

end Resolution

/-- The document value for a failure. -/
def Failure.outcomeJson (f : Failure) : Json :=
  .obj [("valid", .bool false), ("error", (Report.ofFailure f).toJson)]

/-- The outcome of a resolution as a document value. -/
def outcomeJson? : Except Failure Resolution → Option Json
  | .ok r => r.toJson?
  | .error f => some f.outcomeJson

namespace Form

variable [Host]

/-- The trees of descriptors of a form with initial values. -/
def describe (options : Options) (values : InitialValues) (form : Form) : List Descriptor :=
  form.fields.map fun f =>
    f.describe ⟨options, form.layout, values⟩ (Place.top f.name)

/-- Resolves a form; the given values are set over the defaults. -/
def resolve (options : Options) (overrides : InitialValues) (form : Form) :
    Audit Fault Resolution := do
  let defaults ← form.defaults options.dateReference
  let values := defaults.override overrides
  let tree := form.describe options values
  .note (.descriptorsResolved (Descriptor.walkAll tree).length)
  .note (.formResolved tree.length values.length)
  return { form, tree, values }

/-- The values of a document as initial values. -/
def overridesOf : Option Json → Except ResolveError InitialValues
  | none | some .null => .ok []
  | some (.obj members) =>
    .ok (Entries.mapValues InitialValue.json members)
  | some value => .error (.notObject value)

/-- The host has room for a copy of the values of the caller. -/
def copyable (initial : Option Json) : Bool :=
  (initial.mapM (Json.copy? Host.callerRoom)).isSome

theorem copyable_some_iff {j : Json} : copyable (some j) = true ↔ j.height ≤ Host.callerRoom := by
  rw [copyable, Option.mapM_some, Json.copy?_eq]
  by_cases h : j.height ≤ Host.callerRoom <;> simp [h]

/-- Resolves a form with initial values from a document. -/
def resolveWith (options : Options) (initial : Option Json) (form : Form) :
    Audit ResolveError Resolution := do
  let overrides ← .ofExcept (overridesOf initial)
  if copyable initial then (form.resolve options overrides).mapError .fault
  else do
    let _ ← (form.defaults options.dateReference).mapError .fault
    .fail (.fault .storage)

/-- Verifies a source and resolves the form that it holds. -/
def resolveSource (options : Options) (initial : Option Json) (source : Source) :
    Audit ResolveError (Except Failure Resolution) := do
  match ← (verify source).mapError .fault with
  | .ok form => return .ok (← form.resolveWith options initial)
  | .error f => return .error f

end Form

end Formwork
