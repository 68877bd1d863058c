import Formwork.Calendar
import Formwork.Field.Basic
import Formwork.Json.Printer

/-!
# Options of resolution

The options say how wide the grid is, how it is divided where a form does not say so,
and how dates are shown and completed. They are built from values of any kind, of which
the first that is unfit is reported.
-/

namespace Formwork

/-- The options under which a form is resolved. No element of an array is wider than the grid. -/
structure Options where
  gridWidth : Positive
  columns : Positive
  mobileColumns : Positive
  itemSpan : Positive
  checkboxSpan : Positive
  dateFormat : String
  dateReference : DateTime
  itemSpan_le : itemSpan.val ≤ gridWidth.val
  checkboxSpan_le : checkboxSpan.val ≤ gridWidth.val
  deriving Repr

namespace Options

/-- Options as they are asked for: any value may stand for a number. -/
structure Draft where
  gridWidth : Json := .int 24
  columns : Json := .int 1
  mobileColumns : Json := .int 1
  itemSpan : Json := .int 12
  checkboxSpan : Json := .int 8
  dateFormat : String := "YYYY-MM-DD"
  dateReference : DateTime := .epoch
  deriving Repr

/-- Why a draft gives no options. -/
inductive Refusal where
  | notPositive (name : String) (value : Json)
  | itemsTooWide
  deriving DecidableEq, Repr

/-- The message of a refusal. -/
def Refusal.message : Refusal → String
  | .notPositive name value =>
    name ++ " must be a positive integer, got " ++ value.render Json.displayed
  | .itemsTooWide => "Array item spans cannot exceed grid_width"

/-- The number of a setting: an integer from one on. -/
def positive (name : String) (value : Json) : Except Refusal Positive :=
  match value with
  | .num (.int (.ofNat (n + 1))) => .ok ⟨n + 1, Nat.succ_pos n⟩
  | _ => .error (.notPositive name value)

/-- The options of a draft. -/
def ofDraft (d : Draft) : Except Refusal Options := do
  let gridWidth ← positive "grid_width" d.gridWidth
  let columns ← positive "default_columns" d.columns
  let mobileColumns ← positive "default_mobile_columns" d.mobileColumns
  let itemSpan ← positive "array_item_span" d.itemSpan
  let checkboxSpan ← positive "array_checkbox_span" d.checkboxSpan
  if h : itemSpan.val ≤ gridWidth.val ∧ checkboxSpan.val ≤ gridWidth.val then
    return { gridWidth, columns, mobileColumns, itemSpan, checkboxSpan,
             dateFormat := d.dateFormat, dateReference := d.dateReference,
             itemSpan_le := h.1, checkboxSpan_le := h.2 }
  else .error .itemsTooWide

/-- The options that hold when none are asked for. -/
def standard : Options :=
  { gridWidth := ⟨24, by decide⟩, columns := ⟨1, by decide⟩, mobileColumns := ⟨1, by decide⟩,
    itemSpan := ⟨12, by decide⟩, checkboxSpan := ⟨8, by decide⟩,
    dateFormat := "YYYY-MM-DD", dateReference := .epoch,
    itemSpan_le := by decide, checkboxSpan_le := by decide }

end Options

end Formwork
