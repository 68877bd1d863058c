import Formwork.Form
import Formwork.Options

/-!
# Slots of a grid

A field takes a number of units of its row. The number depends on where in the form the
field stands, unless the author asked for a span or for a row of its own.
-/

namespace Formwork

/-- Where a field stands. -/
inductive Slot where
  | root
  | objectProperty
  | arrayItem
  | arrayItemProperty
  deriving DecidableEq, Repr

/-- The slot of the properties of an object in a slot. -/
def Slot.ofProperties : Slot → Slot
  | .arrayItem => .arrayItemProperty
  | _ => .objectProperty

/-- A row divided into columns: at least one unit each. -/
def share (width : Nat) (columns : Positive) : Nat :=
  max 1 (width / columns.val)

/-- The columns of a row on wide screens. -/
def Options.effectiveColumns (o : Options) (layout : Option Layout) : Positive :=
  (layout.bind (·.columns)).getD o.columns

/-- The columns of a row on narrow screens. -/
def Options.effectiveMobileColumns (o : Options) (layout : Option Layout) : Positive :=
  (layout.bind (·.mobileColumns)).getD o.mobileColumns

namespace Field

/-- The field has a row of its own. -/
def isNewline (f : Field) : Bool :=
  f.attributes.newline == some true

/-- The field is a checkbox. -/
def isCheckbox (f : Field) : Bool :=
  f.type == .checkbox

/-- The units that the field takes on wide screens. -/
def spanIn (o : Options) (layout : Option Layout) (slot : Slot) (f : Field) : Nat :=
  if f.isNewline then o.gridWidth.val
  else
    match f.attributes.span with
    | some span => min span.val o.gridWidth.val
    | none =>
      match slot with
      | .objectProperty => share o.gridWidth.val (o.effectiveColumns layout)
      | .arrayItemProperty => if f.isCheckbox then o.checkboxSpan.val else o.itemSpan.val
      | .root | .arrayItem => o.gridWidth.val

/-- The units that the field takes on narrow screens. -/
def mobileSpan (o : Options) (layout : Option Layout) (f : Field) : Nat :=
  if f.isNewline then o.gridWidth.val
  else share o.gridWidth.val (o.effectiveMobileColumns layout)

/-- The frame of the field; without a title of its own it has the label for a title. -/
def effectiveCard (f : Field) : Option Card :=
  f.attributes.card.map fun c =>
    match c.title with
    | some title => if title = "" then { c with title := some f.displayLabel } else c
    | none => { c with title := some f.displayLabel }

/-- The property of the input that holds the value. -/
def valueProperty (f : Field) : String :=
  match f.type with
  | .checkbox => "checked"
  | .upload => "fileList"
  | _ => "value"

end Field

end Formwork
