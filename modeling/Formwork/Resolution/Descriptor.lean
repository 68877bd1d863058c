import Formwork.Resolution.Rule
import Formwork.Resolution.Slot

/-!
# Descriptors

A descriptor tells all that is needed to show one input and to bind its value. The
descriptors of a form are trees of the same shape as its fields. Inside arrays no input
has an initial value, since its binding stands for one input per element.
-/

namespace Formwork

/-- What is needed to show one input. -/
structure Widget where
  field : Field
  /-- Where the field stands in the form. -/
  path : String
  /-- The key that the value is bound to. -/
  binding : String
  rules : List Rule
  span : Nat
  mobileSpan : Nat
  newline : Bool
  card : Option Card
  options : List Choice
  valueProperty : String
  dateFormat : Option String
  initial : Option InitialValue
  deriving Repr

/-- An input with the inputs that it encloses. -/
inductive Descriptor where
  | node (widget : Widget) (children : List Descriptor)
  deriving Repr

namespace Descriptor

/-- The input at the top. -/
def widget : Descriptor → Widget
  | .node w _ => w

/-- The inputs directly below. -/
def children : Descriptor → List Descriptor
  | .node _ cs => cs

mutual

/-- The inputs from the top down, each before those that it encloses. -/
def walk : Descriptor → List Descriptor
  | .node w cs => .node w cs :: walkAll cs

/-- The inputs of several trees, one tree after another. -/
def walkAll : List Descriptor → List Descriptor
  | [] => []
  | d :: rest => d.walk ++ walkAll rest

end

end Descriptor

/-- The format in which a date is shown, none for other fields. An empty format counts as none. -/
def Field.dateFormat (o : Options) : Field → Option String
  | .leaf _ (.date format _) _ =>
    match format with
    | some s => some (if s = "" then o.dateFormat else s)
    | none => some o.dateFormat
  | _ => none

/-- What all descriptors of a form depend on. -/
structure Surroundings where
  options : Options
  layout : Option Layout
  values : InitialValues

/-- Where a field is described: its slot, whether it lies inside an array, its path and its
binding. -/
structure Place where
  slot : Slot
  inArray : Bool
  path : String
  binding : String
  deriving DecidableEq, Repr

namespace Place

/-- The place of a field at the top. -/
def top (name : String) : Place :=
  ⟨.root, false, name, name⟩

/-- The place of a property. Outside of arrays a property is bound to its own key alone. -/
def property (p : Place) (key : String) : Place :=
  ⟨p.slot.ofProperties, p.inArray, p.path ++ "." ++ key,
    if p.inArray then p.binding ++ "." ++ key else key⟩

/-- The place of the elements of an array. -/
def items (p : Place) (items : Field) : Place :=
  ⟨.arrayItem, true, p.path ++ ".items",
    match items with
    | .object _ _ _ => p.binding ++ "[]"
    | _ => p.binding ++ "[]." ++ items.name⟩

end Place

namespace Field

/-- The input of a field at a place. -/
def widgetAt (s : Surroundings) (p : Place) (f : Field) : Widget :=
  { field := f
    path := p.path
    binding := p.binding
    rules := f.rules s.options.dateReference
    span := f.spanIn s.options s.layout p.slot
    mobileSpan := f.mobileSpan s.options s.layout
    newline := f.isNewline
    card := f.effectiveCard
    options := f.options
    valueProperty := f.valueProperty
    dateFormat := f.dateFormat s.options
    initial := if p.inArray then none else s.values.get? p.binding }

mutual

/-- The descriptor of a field at a place. -/
def describe (s : Surroundings) (p : Place) : Field → Descriptor
  | .leaf a l d => .node ((Field.leaf a l d).widgetAt s p) []
  | .array a items count d =>
    .node ((Field.array a items count d).widgetAt s p) [describe s (p.items items) items]
  | .object a properties d =>
    .node ((Field.object a properties d).widgetAt s p) (describeProperties s p properties)

/-- The descriptors of the properties of an object at a place. -/
def describeProperties (s : Surroundings) (p : Place) : List (String × Field) → List Descriptor
  | [] => []
  | (key, f) :: rest => describe s (p.property key) f :: describeProperties s p rest

end

end Field

namespace Descriptor

/-- The members of an input that come before its children; none if its initial value has no
written form. -/
def widgetMembers? (w : Widget) : Option (List (String × Json)) := do
  let initial ← match w.initial with
    | none => some []
    | some v => v.toJson?.map fun j => [("initialValue", j)]
  return [("name", .str w.field.name), ("label", .str w.field.displayLabel),
      ("type", .str w.field.type.name), ("path", .str w.path), ("valuePath", .str w.binding),
      ("rules", .arr (w.rules.map Rule.toJson)), ("span", natJson w.span),
      ("mobileSpan", natJson w.mobileSpan), ("newline", .bool w.newline),
      ("valueProp", .str w.valueProperty)]
    ++ memberOf "card" Card.toJson w.card
    ++ (if w.options.isEmpty then [] else [("options", .arr (w.options.map Choice.toJson))])
    ++ memberOf "format" .str w.dateFormat ++ initial

mutual

/-- A descriptor as a document value. -/
def toJson? : Descriptor → Option Json
  | .node w cs => do
    let members ← widgetMembers? w
    let children ← toJsonAll? cs
    return .obj (members ++ if children.isEmpty then [] else [("children", .arr children)])

/-- Descriptors as document values. -/
def toJsonAll? : List Descriptor → Option (List Json)
  | [] => some []
  | d :: rest => return (← d.toJson?) :: (← toJsonAll? rest)

end

end Descriptor

end Formwork
