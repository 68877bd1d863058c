import Formwork.Proofs.Resolution.Mirror
import Formwork.Proofs.Resolution.Stepwise

/-!
# What a value of the caller touches

A form is resolved with two sets of values that differ under one key at most. The inputs are the
same in all but their initial values, and these differ only where an input outside of arrays is
bound to the key. Keys that look like bindings inside of arrays touch nothing at all.

## Main results

* `resolve_agree_off`: two resolutions of a form with values that agree on all keys but one.
-/

namespace Formwork

/-- Initial values agree under all keys but one. -/
def InitialValues.AgreeOff (key : String) (values values' : InitialValues) : Prop :=
  ∀ other, other ≠ key → Entries.get? values other = Entries.get? values' other

/-- Values that agree off a key do so when they are set over the same defaults. -/
theorem InitialValues.AgreeOff.override {key : String} {values values' : InitialValues}
    (h : AgreeOff key values values') (hkeys : (Entries.keys values).Nodup)
    (hkeys' : (Entries.keys values').Nodup) (defaults : InitialValues) :
    AgreeOff key (defaults.override values) (defaults.override values') := by
  intro other hne
  rw [InitialValues.override, InitialValues.override, Entries.get?_merge, Entries.get?_merge,
    Entries.last?_eq_get? hkeys, Entries.last?_eq_get? hkeys', h other hne]

namespace Descriptor

mutual

/-- The input with those below it, all without initial values. -/
def plain : Descriptor → Descriptor
  | .node w cs => .node { w with initial := none } (plainAll cs)

/-- The inputs with those below them, all without initial values. -/
def plainAll : List Descriptor → List Descriptor
  | [] => []
  | d :: rest => d.plain :: plainAll rest

end

theorem plainAll_eq_map (ds : List Descriptor) : plainAll ds = ds.map plain := by
  induction ds with
  | nil => rfl
  | cons d rest ih => rw [plainAll, ih, List.map_cons]

/-- Two inputs have the same initial value, or lie outside of arrays and are bound to the key. -/
def Line.AgreesOff (key : String) (l l' : Line) : Prop :=
  l.input.widget.initial = l'.input.widget.initial ∨
    nearestArray? l.above = none ∧ l.input.widget.binding = key

end Descriptor

open Descriptor (Line lines linesAll plain nearestArray?)

namespace Field

variable {options : Options} {layout : Option Layout} {values values' : InitialValues}

/-- Initial values are all that inputs have of the values that they are described with. -/
theorem plain_describe (f : Field) (p : Place) :
    (f.describe ⟨options, layout, values⟩ p).plain =
      (f.describe ⟨options, layout, values'⟩ p).plain := by
  induction f using induct_children generalizing p with
  | step f ih =>
      rw [describe_eq_node, describe_eq_node, plain, plain, Descriptor.plainAll_eq_map,
        Descriptor.plainAll_eq_map, List.map_map, List.map_map]
      refine congrArg₂ Descriptor.node rfl (List.map_congr_left fun e he => ?_)
      exact ih e he _

/-- At a place outside of arrays a field starts with the value under its binding, and inside of
arrays with none. -/
theorem agreesOff_describe {key : String} (h : values.AgreeOff key values') {above : List Widget}
    {p : Place} (hp : p.Within above) (f : Field) (above' : List Widget) :
    Line.AgreesOff key ⟨above, f.describe ⟨options, layout, values⟩ p⟩
      ⟨above', f.describe ⟨options, layout, values'⟩ p⟩ := by
  unfold Line.AgreesOff
  rw [widget_describe, widget_describe]
  cases harray : nearestArray? above with
  | some w =>
      have hin : p.inArray = true := by rw [hp.inArray, harray]; rfl
      exact .inl (by rw [widgetAt, widgetAt, if_pos hin, if_pos hin])
  | none =>
      have hout : ¬ p.inArray = true := by rw [hp.inArray, harray]; decide
      by_cases hkey : p.binding = key
      · exact .inr ⟨rfl, hkey⟩
      · refine .inl ?_
        rw [widgetAt, widgetAt, if_neg hout, if_neg hout]
        exact h p.binding hkey

/-- All inputs of a field agree off the key, one by one. -/
theorem lines_agreeOff {key : String} (h : values.AgreeOff key values') {above : List Widget}
    {p : Place} (hp : p.Within above) (f : Field) (above' : List Widget) :
    List.Forall₂ (Line.AgreesOff key) ((f.describe ⟨options, layout, values⟩ p).lines above)
      ((f.describe ⟨options, layout, values'⟩ p).lines above') := by
  induction f using induct_children generalizing p above above' with
  | step f ih =>
      rw [Descriptor.lines_eq_cons, Descriptor.lines_eq_cons, children_describe,
        children_describe, List.flatMap_map, List.flatMap_map]
      refine .cons (agreesOff_describe h hp f above') (forall₂_flatMap fun e he => ?_)
      rw [widget_describe]
      exact ih e he (hp.below _ he) _

end Field

namespace Form

section

variable [Host]

/-- A verified form is resolved with values that agree on all keys but one. The trees are the same
but for initial values, these differ at most where an input outside of arrays is bound to the key,
and the values of the results agree on all keys but the one. -/
theorem resolve_agree_off {document : Json} {form : Form}
    (h : (verifyParts document).outcome = .ok form) (options : Options) {key : String}
    {values values' : InitialValues} (hkeys : (Entries.keys values).Nodup)
    (hkeys' : (Entries.keys values').Nodup)
    (hagree : ∀ other, other ≠ key → Entries.get? values other = Entries.get? values' other) :
    ∃ r r', (form.resolve options values).outcome = .ok r ∧
      (form.resolve options values').outcome = .ok r' ∧
      r.tree.map plain = r'.tree.map plain ∧
      List.Forall₂ (fun l l' => l.input.widget.initial = l'.input.widget.initial ∨
        nearestArray? l.above = none ∧ l.input.widget.binding = key)
        (linesAll [] r.tree) (linesAll [] r'.tree) ∧
      ∀ other, other ≠ key → Entries.get? r.values other = Entries.get? r'.values other := by
  obtain ⟨defaults, hdefaults⟩ :=
    defaults_of_documentOf (verifyParts_eq_ok_iff.mp h) options.dateReference
  have hvalues : (defaults.override values).AgreeOff key (defaults.override values') :=
    InitialValues.AgreeOff.override hagree hkeys hkeys' defaults
  refine ⟨_, _, outcome_resolve hdefaults values, outcome_resolve hdefaults values', ?_, ?_,
    hvalues⟩
  · show (form.describe _ _).map plain = (form.describe _ _).map plain
    rw [describe, describe, List.map_map, List.map_map]
    exact List.map_congr_left fun f _ => Field.plain_describe f _
  · show List.Forall₂ _ (linesAll [] (form.describe _ _)) (linesAll [] (form.describe _ _))
    rw [describe, describe, Descriptor.linesAll_eq_flatMap, Descriptor.linesAll_eq_flatMap,
      List.flatMap_map, List.flatMap_map]
    exact forall₂_flatMap fun f _ => Field.lines_agreeOff hvalues (Place.within_top f.name) f []

end

/-- A form with a town in an object and one in the objects of an array. -/
def townForm : Form :=
  ⟨[.object (.named "home") [("town", .leaf (.named "town") (.string ⟨none, none⟩) none)] none,
    .array (.named "stays") (.object (.named "stay")
      [("town", .leaf (.named "town") (.string ⟨none, none⟩) none)] none) ⟨none, none⟩ none], none⟩

attribute [local instance] Host.standard in
/-- Callers that differ in the town, and in the order of their values, differ at one input. -/
theorem resolve_towns :
    let values : InitialValues := [("town", .json (.str "Rome")), ("stays[].town", .json .null)]
    let values' : InitialValues := [("stays[].town", .json .null), ("town", .json (.str "Oslo"))]
    (∀ other, other ≠ "town" → Entries.get? values other = Entries.get? values' other) ∧
    (∃ r r', (townForm.resolve .standard values).outcome = .ok r ∧
      (townForm.resolve .standard values').outcome = .ok r' ∧
      r.tree.map plain = r'.tree.map plain) ∧
    (townForm.resolve .standard values').outcome.toOption.map
        (fun r => r.walk.map fun d => (d.widget.binding, d.widget.initial)) =
      some [("home", none), ("town", some (.json (.str "Oslo"))), ("stays", none),
        ("stays[]", none), ("stays[].town", none)] := by
  intro values values'
  have hverify : (verifyParts townForm.toJson).outcome = .ok townForm := rfl
  have hagree : ∀ other, other ≠ "town" →
      Entries.get? values other = Entries.get? values' other := by
    intro other hne
    simp [values, values', Entries.get?_cons, hne]
  obtain ⟨r, r', hr, hr', htree, -⟩ :=
    resolve_agree_off hverify .standard (by decide) (by decide) hagree
  exact ⟨hagree, ⟨r, r', hr, hr', htree⟩, rfl⟩

end Form

end Formwork
