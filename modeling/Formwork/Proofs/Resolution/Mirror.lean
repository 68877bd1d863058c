import Formwork.Proofs.Field.Nested
import Formwork.Resolution.Basic
import Mathlib.Data.List.Basic

/-!
# Inputs and fields

The inputs of a resolved form are those of its fields, in the same order and at the same depth. The
path of an input continues the path of the one around it. Outside of arrays an input is bound to a
key of its own and starts with the value under it; below an array its binding continues that of
the array, and it starts with nothing.
-/

namespace Formwork

/-- The place of a field one level below a field that stands at the place. -/
def Place.below (p : Place) (f : Field) (e : String × Field) : Place :=
  match f with
  | .array _ _ _ _ => p.items e.2
  | _ => p.property e.1

theorem Place.path_below (p : Place) {f : Field} {e : String × Field} (he : e ∈ f.children) :
    (p.below f e).path = p.path ++ "." ++ e.1 := by
  cases f with
  | leaf a l d => cases he
  | array a items count d =>
      rw [List.mem_singleton.mp he, String.append_assoc]
      rfl
  | object a properties d => rfl

namespace Field

theorem describeProperties_eq_map (s : Surroundings) (p : Place)
    (properties : List (String × Field)) :
    describeProperties s p properties =
      properties.map fun e => e.2.describe s (p.property e.1) := by
  induction properties with
  | nil => rfl
  | cons e rest ih => rw [describeProperties, ih, List.map_cons]

/-- A field is described by its input, and those below it by theirs. -/
theorem describe_eq_node (s : Surroundings) (p : Place) (f : Field) :
    f.describe s p =
      .node (f.widgetAt s p) (f.children.map fun e => e.2.describe s (p.below f e)) := by
  cases f with
  | leaf a l d => rfl
  | array a items count d => rfl
  | object a properties d =>
      rw [describe, describeProperties_eq_map]
      rfl

@[simp] theorem widget_describe (s : Surroundings) (p : Place) (f : Field) :
    (f.describe s p).widget = f.widgetAt s p := by
  rw [describe_eq_node]
  rfl

@[simp] theorem children_describe (s : Surroundings) (p : Place) (f : Field) :
    (f.describe s p).children = f.children.map fun e => e.2.describe s (p.below f e) := by
  rw [describe_eq_node]
  rfl

end Field

namespace Descriptor

theorem walkAll_eq_flatMap (ds : List Descriptor) : walkAll ds = ds.flatMap walk := by
  induction ds with
  | nil => rfl
  | cons d rest ih => rw [walkAll, ih, List.flatMap_cons]

theorem walk_eq_cons (d : Descriptor) : d.walk = d :: d.children.flatMap walk := by
  cases d with
  | node w cs => rw [walk, walkAll_eq_flatMap, children]

/-- An input with those that enclose it, the nearest first. -/
structure Line where
  above : List Widget
  input : Descriptor

mutual

/-- The inputs of a tree in the order of a walk, each with those that enclose it. -/
def lines (above : List Widget) : Descriptor → List Line
  | .node w cs => ⟨above, .node w cs⟩ :: linesAll (w :: above) cs

/-- The inputs of several trees in the order of a walk, each with those that enclose it. -/
def linesAll (above : List Widget) : List Descriptor → List Line
  | [] => []
  | d :: rest => d.lines above ++ linesAll above rest

end

theorem linesAll_eq_flatMap (above : List Widget) (ds : List Descriptor) :
    linesAll above ds = ds.flatMap (lines above) := by
  induction ds with
  | nil => rfl
  | cons d rest ih => rw [linesAll, ih, List.flatMap_cons]

theorem lines_eq_cons (above : List Widget) (d : Descriptor) :
    d.lines above = ⟨above, d⟩ :: d.children.flatMap (lines (d.widget :: above)) := by
  cases d with
  | node w cs => rw [lines, linesAll_eq_flatMap, widget, children]

mutual

/-- The lines of a tree are those of the inputs that its walk meets. -/
theorem map_lines : ∀ (above : List Widget) (d : Descriptor),
    (d.lines above).map Line.input = d.walk
  | above, .node w cs => by rw [lines, List.map_cons, map_linesAll, walk]

theorem map_linesAll : ∀ (above : List Widget) (ds : List Descriptor),
    (linesAll above ds).map Line.input = walkAll ds
  | _, [] => rfl
  | above, d :: rest => by rw [linesAll, List.map_append, map_lines, map_linesAll, walkAll]

end

/-- The nearest array among inputs that enclose one another. -/
def nearestArray? (above : List Widget) : Option Widget :=
  above.find? fun w => w.field.type == .array

/-- The input and those below it continue the inputs around them: the paths and fields below are
those of the field, the keys of bindings start anew outside of arrays and continue the nearest
array inside, and the values that inputs start with are those under their bindings outside of
arrays. -/
structure Line.Continues (values : InitialValues) (l : Line) : Prop where
  paths : l.input.children.map (fun d => (d.widget.path, d.widget.field)) =
    l.input.widget.field.children.map fun e => (l.input.widget.path ++ "." ++ e.1, e.2)
  keys : nearestArray? (l.input.widget :: l.above) = none →
    l.input.children.map (fun d => d.widget.binding) = l.input.widget.field.children.map Prod.fst
  initial : nearestArray? l.above = none →
    l.input.widget.initial = Entries.get? values l.input.widget.binding
  inside : ∀ a, nearestArray? l.above = some a →
    (∃ rest, l.input.widget.binding = a.binding ++ "[]" ++ rest) ∧ l.input.widget.initial = none

end Descriptor

open Descriptor (nearestArray? Line lines linesAll)

/-- The place lies inside an array exactly if the inputs around it say so, and its binding
continues that of the nearest one. -/
structure Place.Within (above : List Widget) (p : Place) : Prop where
  inArray : p.inArray = (nearestArray? above).isSome
  binding : ∀ a, nearestArray? above = some a → ∃ rest, p.binding = a.binding ++ "[]" ++ rest

namespace Place

theorem within_top (name : String) : (top name).Within [] :=
  ⟨rfl, fun a ha => by cases ha⟩

/-- The places below a field lie within its input and those around it. -/
theorem Within.below {above : List Widget} {p : Place} (h : p.Within above) (s : Surroundings)
    {f : Field} {e : String × Field} (he : e ∈ f.children) :
    (p.below f e).Within (f.widgetAt s p :: above) := by
  cases f with
  | leaf a l d => cases he
  | array a items count d =>
      refine ⟨rfl, fun w hw => ?_⟩
      have hw : (Field.array a items count d).widgetAt s p = w := Option.some.inj hw
      rw [← hw]
      show ∃ rest, (p.items e.2).binding = p.binding ++ "[]" ++ rest
      unfold Place.items
      split
      · exact ⟨"", (String.append_empty).symm⟩
      · have hmark : "[]." = "[]" ++ "." := rfl
        exact ⟨"." ++ e.2.name, by simp only [hmark, String.append_assoc]⟩
  | object a properties d =>
      refine ⟨h.inArray, fun w hw => ?_⟩
      obtain ⟨rest, hrest⟩ := h.binding w hw
      have harray : p.inArray = true := by
        rw [h.inArray, show nearestArray? above = some w from hw]
        rfl
      refine ⟨rest ++ "." ++ e.1, ?_⟩
      show (if p.inArray = true then p.binding ++ "." ++ e.1 else e.1) = _
      rw [if_pos harray, hrest]
      simp only [String.append_assoc]

end Place

namespace Field

variable {s : Surroundings} {above : List Widget} {p : Place}

theorem map_walk_describe (s : Surroundings) (p : Place) (f : Field) :
    (f.describe s p).walk.map (fun d => d.widget.field) = f.nested := by
  induction f using induct_children generalizing p with
  | step f ih =>
      rw [Descriptor.walk_eq_cons, nested_eq_cons, children_describe, List.map_cons,
        widget_describe, List.flatMap_map, List.map_flatMap]
      exact congrArg (f :: ·) (List.flatMap_congr fun e he => ih e he _)

/-- The input of a field continues those around its place. -/
theorem continues_describe (h : p.Within above) (f : Field) :
    Line.Continues s.values ⟨above, f.describe s p⟩ where
  paths := by
    rw [children_describe, widget_describe, List.map_map]
    refine List.map_congr_left fun e he => ?_
    simp only [Function.comp_apply, widget_describe]
    exact Prod.ext (p.path_below he) rfl
  keys hnone := by
    rw [children_describe, widget_describe, List.map_map]
    rw [widget_describe] at hnone
    refine List.map_congr_left fun e he => ?_
    rw [Function.comp_apply, widget_describe]
    have hbelow := (h.below s he).inArray
    rw [hnone] at hbelow
    cases f with
    | leaf a l d => cases he
    | array a items count d => cases hnone
    | object a properties d => exact if_neg (by rw [show p.inArray = false from hbelow]; decide)
  initial hnone := by
    rw [widget_describe]
    exact if_neg (by rw [h.inArray, hnone]; decide)
  inside a ha := by
    rw [widget_describe]
    exact ⟨h.binding a ha, if_pos (by rw [h.inArray, ha]; rfl)⟩

/-- All inputs of a described field continue those around them. -/
theorem lines_describe (h : p.Within above) (f : Field) :
    ∀ l ∈ (f.describe s p).lines above, l.Continues s.values := by
  induction f using induct_children generalizing p above with
  | step f ih =>
      intro l hl
      rw [Descriptor.lines_eq_cons, List.mem_cons, children_describe, widget_describe,
        List.flatMap_map, List.mem_flatMap] at hl
      rcases hl with rfl | ⟨e, he, hl⟩
      · exact continues_describe h f
      · exact ih e he (h.below s he) l hl

end Field

namespace Form

/-- The inputs mirror a form: walked in order they are those of its fields, each before those
that lie in it. The ones at the top have the names of their fields for path and binding, and each
input continues those around it. -/
structure Mirrored (values : InitialValues) (form : Form) (tree : List Descriptor) : Prop where
  walked : (linesAll [] tree).map Line.input = Descriptor.walkAll tree
  fields : (Descriptor.walkAll tree).map (fun d => d.widget.field) =
    form.fields.flatMap Field.nested
  top : tree.map (fun d => (d.widget.path, d.widget.binding, d.widget.field)) =
    form.fields.map fun f => (f.name, f.name, f)
  lines : ∀ l ∈ linesAll [] tree, l.Continues values

/-- With any options and initial values, the inputs of a form mirror it. -/
theorem mirrored_describe (options : Options) (values : InitialValues) (form : Form) :
    form.Mirrored values (form.describe options values) where
  walked := Descriptor.map_linesAll [] _
  fields := by
    rw [describe, Descriptor.walkAll_eq_flatMap, List.flatMap_map, List.map_flatMap]
    exact List.flatMap_congr fun f _ => Field.map_walk_describe _ _ f
  top := by
    rw [describe, List.map_map]
    refine List.map_congr_left fun f _ => ?_
    simp only [Function.comp_apply, Field.widget_describe]
    rfl
  lines l hl := by
    rw [describe, Descriptor.linesAll_eq_flatMap, List.flatMap_map, List.mem_flatMap] at hl
    obtain ⟨f, _, hl⟩ := hl
    exact Field.lines_describe (Place.within_top f.name) f l hl

end Form

end Formwork
