import Formwork.Proofs.Description.Document
import Formwork.Proofs.Resolution.Mirror
import Mathlib.Algebra.Order.BigOperators.Group.List
import Mathlib.Algebra.Order.Ring.Nat

/-!
# Widths in the grid

Every input has a width between one unit and the whole row. Where the columns decide, their number
is positive, since both the layout of a verified document and accepted options only have such ones;
and as many inputs as there are columns have room side by side, unless there are more columns than
units.

## Main results

* `fitsGrid_describe`: the widths of all inputs of a form.
-/

namespace Formwork

/-- Widths that stand side by side in a row of several columns: as many as there are columns have
room in the row, and with more columns than units each of them is one unit. -/
structure SideBySide (width columns : Nat) (spans : List Nat) : Prop where
  total : columns ≤ width → spans.length ≤ columns → spans.sum ≤ width
  single : width < columns → ∀ n ∈ spans, n = 1

theorem one_le_share (width : Nat) (columns : Positive) : 1 ≤ share width columns :=
  Nat.le_max_left _ _

theorem share_le (width columns : Positive) : share width.val columns ≤ width.val :=
  Nat.max_le.mpr ⟨width.property, Nat.div_le_self _ _⟩

theorem share_of_le {width : Nat} {columns : Positive} (h : columns.val ≤ width) :
    share width columns = width / columns.val :=
  Nat.max_eq_right (Nat.div_pos h columns.property)

theorem share_of_lt {width : Nat} {columns : Positive} (h : width < columns.val) :
    share width columns = 1 := by
  rw [share, Nat.div_eq_of_lt h]
  rfl

/-- Shares of a row stand side by side. -/
theorem sideBySide_of_shares {width : Nat} {columns : Positive} {spans : List Nat}
    (h : ∀ n ∈ spans, n = share width columns) : SideBySide width columns.val spans where
  total hcolumns hlength := by
    have hspan : ∀ n ∈ spans, n ≤ width / columns.val := by
      intro n hn
      rw [h n hn, share_of_le hcolumns]
    calc spans.sum ≤ spans.length • (width / columns.val) := List.sum_le_card_nsmul _ _ hspan
      _ ≤ columns.val * (width / columns.val) := Nat.mul_le_mul_right _ hlength
      _ ≤ width := Nat.mul_div_le _ _
  single hcolumns n hn := by rw [h n hn, share_of_lt hcolumns]

namespace Field

variable {o : Options} {layout : Option Layout} {slot : Slot} {f : Field}

/-- No input is wider than the grid. -/
theorem spanIn_le (o : Options) (layout : Option Layout) (slot : Slot) (f : Field) :
    f.spanIn o layout slot ≤ o.gridWidth.val := by
  unfold spanIn
  split
  · exact Nat.le_refl _
  · split
    · exact Nat.min_le_right _ _
    · cases slot with
      | objectProperty => exact share_le _ _
      | arrayItemProperty =>
          show (if f.isCheckbox then o.checkboxSpan.val else o.itemSpan.val) ≤ o.gridWidth.val
          split
          · exact o.checkboxSpan_le
          · exact o.itemSpan_le
      | root => exact Nat.le_refl _
      | arrayItem => exact Nat.le_refl _

theorem mobileSpan_le (o : Options) (layout : Option Layout) (f : Field) :
    f.mobileSpan o layout ≤ o.gridWidth.val := by
  unfold mobileSpan
  split
  · exact Nat.le_refl _
  · exact share_le _ _

/-- Every input takes a unit of the grid. -/
theorem one_le_spanIn (o : Options) (layout : Option Layout) (slot : Slot) (f : Field) :
    1 ≤ f.spanIn o layout slot := by
  unfold spanIn
  split
  · exact o.gridWidth.property
  · split
    · rename_i span _
      exact Nat.le_min.mpr ⟨span.property.1, o.gridWidth.property⟩
    · cases slot with
      | objectProperty => exact one_le_share _ _
      | arrayItemProperty =>
          show 1 ≤ if f.isCheckbox then o.checkboxSpan.val else o.itemSpan.val
          split
          · exact o.checkboxSpan.property
          · exact o.itemSpan.property
      | root => exact o.gridWidth.property
      | arrayItem => exact o.gridWidth.property

theorem one_le_mobileSpan (o : Options) (layout : Option Layout) (f : Field) :
    1 ≤ f.mobileSpan o layout := by
  unfold mobileSpan
  split
  · exact o.gridWidth.property
  · exact one_le_share _ _

theorem spanIn_of_isNewline (h : f.isNewline = true) : f.spanIn o layout slot = o.gridWidth.val :=
  if_pos h

theorem mobileSpan_of_isNewline (h : f.isNewline = true) :
    f.mobileSpan o layout = o.gridWidth.val :=
  if_pos h

/-- A property of an object for which the author asked nothing takes a share of the row. -/
theorem spanIn_objectProperty (h : f.isNewline = false) (hspan : f.attributes.span = none) :
    f.spanIn o layout .objectProperty = share o.gridWidth.val (o.effectiveColumns layout) := by
  rw [spanIn, if_neg (by rw [h]; decide), hspan]

theorem mobileSpan_of_not_isNewline (h : f.isNewline = false) :
    f.mobileSpan o layout = share o.gridWidth.val (o.effectiveMobileColumns layout) :=
  if_neg (by rw [h]; decide)

end Field

namespace Descriptor

/-- The slot of an input below others, the nearest first: a property of an object is told apart by
whether the object is itself the element of an array. -/
def slotBelow (above : List Widget) : Slot :=
  match (above.map fun w => w.field.type : List FieldType) with
  | [] => .root
  | .array :: _ => .arrayItem
  | _ :: .array :: _ => .arrayItemProperty
  | _ => .objectProperty

theorem slotBelow_array {w : Widget} (h : w.field.type = .array) (above : List Widget) :
    slotBelow (w :: above) = .arrayItem := by
  rw [slotBelow, List.map_cons, h]

theorem slotBelow_object {w : Widget} (h : w.field.type = .object) (above : List Widget) :
    slotBelow (w :: above) = (slotBelow above).ofProperties := by
  cases above with
  | nil =>
      rw [slotBelow, List.map_cons, h]
      rfl
  | cons v above =>
      by_cases harray : v.field.type = .array
      · rw [slotBelow_array harray, slotBelow, List.map_cons, List.map_cons, h, harray]
        rfl
      · have hslot : slotBelow (v :: above) ≠ .arrayItem := by
          unfold slotBelow
          split <;> simp_all
        have hproperties : (slotBelow (v :: above)).ofProperties = .objectProperty := by
          cases hv : slotBelow (v :: above) <;> first | rfl | exact absurd hv hslot
        rw [hproperties, slotBelow, List.map_cons, List.map_cons, h]
        split <;> simp_all

/-- The input has the widths that its field takes in its slot. -/
structure Line.Sized (s : Surroundings) (l : Line) : Prop where
  span : l.input.widget.span = l.input.widget.field.spanIn s.options s.layout (slotBelow l.above)
  mobileSpan : l.input.widget.mobileSpan = l.input.widget.field.mobileSpan s.options s.layout
  newline : l.input.widget.newline = l.input.widget.field.isNewline

end Descriptor

open Descriptor (Line linesAll slotBelow)

/-- The slot of a place below is that of an input below the one of the field. -/
theorem Place.slot_below {s : Surroundings} {p : Place} {above : List Widget}
    (h : p.slot = slotBelow above) {f : Field} {e : String × Field} (he : e ∈ f.children) :
    (p.below f e).slot = slotBelow (f.widgetAt s p :: above) := by
  cases f with
  | leaf a l d => cases he
  | array a items count d => exact (Descriptor.slotBelow_array rfl above).symm
  | object a properties d =>
      rw [Descriptor.slotBelow_object rfl, ← h]
      rfl

/-- All inputs of a described field have the widths that their fields take in their slots. -/
theorem Field.lines_sized {s : Surroundings} {p : Place} {above : List Widget}
    (h : p.slot = slotBelow above) (f : Field) :
    ∀ l ∈ (f.describe s p).lines above, l.Sized s := by
  induction f using induct_children generalizing p above with
  | step f ih =>
      intro l hl
      rw [Descriptor.lines_eq_cons, List.mem_cons, children_describe, widget_describe,
        List.flatMap_map, List.mem_flatMap] at hl
      rcases hl with rfl | ⟨e, he, hl⟩
      · constructor
        · rw [widget_describe, ← h]
          rfl
        · rw [widget_describe]
          rfl
        · rw [widget_describe]
          rfl
      · exact ih e he (Place.slot_below h he) l hl

/-- The author asked neither for a row of its own nor for a width. -/
def Widget.Unsized (w : Widget) : Prop :=
  w.newline = false ∧ w.field.attributes.span = none

/-- The widths of a tree of inputs, on wide and on narrow screens, fit a grid with rows of the width
that are divided into the columns. -/
structure FitsGrid (width columns mobileColumns : Nat) (tree : List Descriptor) : Prop where
  spans : ∀ l ∈ linesAll [] tree, 1 ≤ l.input.widget.span ∧ l.input.widget.span ≤ width
  mobileSpans : ∀ l ∈ linesAll [] tree,
    1 ≤ l.input.widget.mobileSpan ∧ l.input.widget.mobileSpan ≤ width
  newline : ∀ l ∈ linesAll [] tree, l.input.widget.newline = true →
    l.input.widget.span = width ∧ l.input.widget.mobileSpan = width
  properties : ∀ row : List Line, (∀ l ∈ row, l ∈ linesAll [] tree ∧
      slotBelow l.above = .objectProperty ∧ l.input.widget.Unsized) →
    SideBySide width columns (row.map fun l => l.input.widget.span)
  mobileRows : ∀ row : List Line, (∀ l ∈ row, l ∈ linesAll [] tree ∧
      l.input.widget.newline = false) →
    SideBySide width mobileColumns (row.map fun l => l.input.widget.mobileSpan)

/-- A row is divided by the number: it is positive, and it is the one under the key in the layout of
the document or, where there is none, the one of the draft. -/
def Divides (document : Json) (key : String) (draft : Json) (n : Nat) : Prop :=
  0 < n ∧ match (document.member "layout").member key with
    | .null => draft = natJson n
    | v => Description.Whole v n

namespace Options

theorem positive_eq_ok_iff {name : String} {value : Json} {n : Positive} :
    positive name value = .ok n ↔ value = natJson n.val := by
  unfold positive natJson
  split
  · rename_i m
    rw [Except.ok.injEq, Subtype.ext_iff]
    constructor
    · intro h
      rw [← h]
      rfl
    · intro h
      have hn : (Int.ofNat (m + 1)) = (n.val : Int) := by
        injection h with h
        injection h
      exact Int.ofNat.inj hn
  · rename_i hne
    refine iff_of_false nofun fun h => ?_
    obtain ⟨m, hm⟩ := Nat.exists_eq_succ_of_ne_zero (Nat.ne_of_gt n.property)
    rw [hm] at h
    exact hne m h

/-- Accepted options have the numbers of their draft. -/
theorem numbers_of_ofDraft {draft : Draft} {options : Options} (h : ofDraft draft = .ok options) :
    draft.gridWidth = natJson options.gridWidth.val ∧
      draft.columns = natJson options.columns.val ∧
      draft.mobileColumns = natJson options.mobileColumns.val := by
  simp only [ofDraft, bind_eq_ok_iff, positive_eq_ok_iff] at h
  obtain ⟨gridWidth, hgrid, columns, hcolumns, mobileColumns, hmobile, itemSpan, -, checkboxSpan,
    -, h⟩ := h
  split at h
  · cases h
    exact ⟨hgrid, hcolumns, hmobile⟩
  · cases h

end Options

namespace Form

section

variable [Host]

/-- A row is divided by the number in the layout that a document describes, or else by the one of
the draft. -/
theorem divides_getD {document : Json} {form : Form} (h : Description.DocumentOf document form)
    {key : String} {part : Layout → Option Positive}
    (hpart : ∀ ms l, Description.LayoutOf ms l →
      Description.Says Description.WholeIn ms key (part l))
    {draft : Json} {default : Positive} (hdefault : draft = natJson default.val) :
    Divides document key draft ((form.layout.bind part).getD default).val := by
  refine ⟨Subtype.property _, ?_⟩
  obtain ⟨ms, nodes, rfl, -, -, -, hlayout⟩ := h
  have hmember : (Json.obj ms).member "layout" = (Entries.get? ms "layout").getD .null := rfl
  rw [hmember]
  cases hl : form.layout with
  | none =>
      rw [hl] at hlayout
      rw [show (Entries.get? ms "layout").getD .null = .null from hlayout]
      exact hdefault
  | some l =>
      rw [hl] at hlayout
      obtain ⟨layout, heq, hlayout⟩ := hlayout
      rw [heq]
      have hsays := hpart layout l hlayout
      rw [Option.bind_some]
      cases hn : part l with
      | none =>
          rw [hn] at hsays
          have hnull : (Json.obj layout).member key = .null := by
            cases hv : Entries.get? layout key with
            | none => rw [Json.member, Json.member?_obj, hv, Option.getD_none]
            | some v => rw [Json.member, Json.member?_obj, hv, Option.getD_some, hsays v hv]
          rw [hnull]
          exact hdefault
      | some n =>
          rw [hn] at hsays
          obtain ⟨v, hv, hwhole⟩ := hsays
          have hmember : (Json.obj layout).member key = v := by
            rw [Json.member, Json.member?_obj, hv, Option.getD_some]
          rw [hmember]
          split
          · exact absurd hwhole (Checked.not_whole_null n.val)
          · exact hwhole

/-- The inputs of a form fit the grid of the options, whatever their initial values are. -/
theorem fitsGrid_describe {draft : Options.Draft} {options : Options}
    (hoptions : Options.ofDraft draft = .ok options) {document : Json} {form : Form}
    (hform : (verifyParts document).outcome = .ok form) (values : InitialValues) :
    draft.gridWidth = natJson options.gridWidth.val ∧
    Divides document "columns" draft.columns (options.effectiveColumns form.layout).val ∧
    Divides document "mobileColumns" draft.mobileColumns
      (options.effectiveMobileColumns form.layout).val ∧
    FitsGrid options.gridWidth.val (options.effectiveColumns form.layout).val
      (options.effectiveMobileColumns form.layout).val (form.describe options values) := by
  obtain ⟨hgrid, hcolumns, hmobile⟩ := Options.numbers_of_ofDraft hoptions
  have hdocument := verifyParts_eq_ok_iff.mp hform
  refine ⟨hgrid, divides_getD hdocument (fun _ _ h => h.columns) hcolumns,
    divides_getD hdocument (fun _ _ h => h.mobileColumns) hmobile, ?_⟩
  have hsized : ∀ l ∈ linesAll [] (form.describe options values),
      l.Sized ⟨options, form.layout, values⟩ := by
    intro l hl
    rw [describe, Descriptor.linesAll_eq_flatMap, List.flatMap_map, List.mem_flatMap] at hl
    obtain ⟨f, -, hl⟩ := hl
    exact Field.lines_sized rfl f l hl
  constructor
  · intro l hl
    rw [(hsized l hl).span]
    exact ⟨Field.one_le_spanIn _ _ _ _, Field.spanIn_le _ _ _ _⟩
  · intro l hl
    rw [(hsized l hl).mobileSpan]
    exact ⟨Field.one_le_mobileSpan _ _ _, Field.mobileSpan_le _ _ _⟩
  · intro l hl hnewline
    rw [(hsized l hl).newline] at hnewline
    rw [(hsized l hl).span, (hsized l hl).mobileSpan]
    exact ⟨Field.spanIn_of_isNewline hnewline, Field.mobileSpan_of_isNewline hnewline⟩
  · intro row hrow
    refine sideBySide_of_shares fun n hn => ?_
    obtain ⟨l, hl, rfl⟩ := List.mem_map.mp hn
    obtain ⟨hmem, hslot, hnewline, hspan⟩ := hrow l hl
    rw [(hsized l hmem).newline] at hnewline
    rw [(hsized l hmem).span, hslot]
    exact Field.spanIn_objectProperty hnewline hspan
  · intro row hrow
    refine sideBySide_of_shares fun n hn => ?_
    obtain ⟨l, hl, rfl⟩ := List.mem_map.mp hn
    obtain ⟨hmem, hnewline⟩ := hrow l hl
    rw [(hsized l hmem).newline] at hnewline
    rw [(hsized l hmem).mobileSpan]
    exact Field.mobileSpan_of_not_isNewline hnewline

end

/-- A document with a text and a checkbox in an object, in a layout of five columns. -/
def fiveColumns : Json :=
  .obj [("fields", .arr [.obj [("name", .str "o"), ("type", .str "object"), ("properties", .obj [
      ("a", .obj [("name", .str "a"), ("type", .str "string")]),
      ("b", .obj [("name", .str "b"), ("type", .str "checkbox")])])]]),
    ("layout", .obj [("columns", .int 5)])]

attribute [local instance] Host.standard in
/-- Both properties take four of the 24 units of a row, and one of them on screens that are narrow,
where there are more columns than units. -/
theorem fitsGrid_fiveColumns :
    ∃ options form, Options.ofDraft { mobileColumns := .int 30 } = .ok options ∧
      (verifyParts fiveColumns).outcome = .ok form ∧
      FitsGrid 24 5 30 (form.describe options []) ∧
      (linesAll [] (form.describe options [])).map (fun l =>
        (l.input.widget.span, l.input.widget.mobileSpan)) = [(24, 1), (4, 1), (4, 1)] := by
  refine ⟨_, _, rfl, rfl, ?_, rfl⟩
  obtain ⟨-, -, -, hfits⟩ :=
    @fitsGrid_describe _ { mobileColumns := .int 30 } _ rfl fiveColumns _ rfl []
  exact hfits

end Form

end Formwork
