import Formwork.Proofs.Resolution.Mirror
import Formwork.Proofs.Resolution.Soundness
import Mathlib.Data.List.Sort
import Mathlib.Data.String.Basic

/-!
# Values of the caller without an input

The keys of the caller that no input is bound to are reported, sorted. A value of the caller whose
key is not reported is received by the inputs with that binding, unless these lie inside arrays,
where no input starts with a value.
-/

namespace Formwork

open Descriptor (nearestArray? Line linesAll map_linesAll linesAll_eq_flatMap)

/-- The input is bound to the key and starts with the value. -/
def Descriptor.Receives (d : Descriptor) (key : String) (v : Json) : Prop :=
  d.widget.binding = key ∧ d.widget.initial = some (.json v)

/-- The input lies inside an array. -/
def Descriptor.Line.InArray (l : Line) : Prop :=
  (nearestArray? l.above).isSome = true

namespace Resolution

theorem mem_bindings_iff {r : Resolution} {key : String} :
    key ∈ r.bindings ↔ ∃ d ∈ r.walk, d.widget.binding = key :=
  List.mem_map

theorem mem_unbound_iff {r : Resolution} {keys : List String} {key : String} :
    key ∈ r.unbound keys ↔ key ∈ keys ∧ key ∉ r.bindings := by
  rw [unbound, (List.mergeSort_perm _ _).mem_iff, List.mem_filter, Bool.not_eq_true',
    List.contains_eq_mem, decide_eq_false_iff_not]

/-- Different keys are reported in strictly rising order. -/
theorem pairwise_unbound {r : Resolution} {keys : List String} (h : keys.Nodup) :
    (r.unbound keys).Pairwise (· < ·) := by
  have hsorted : (r.unbound keys).Pairwise (· ≤ ·) := List.pairwise_mergeSort' (· ≤ ·) _
  have hdifferent : (r.unbound keys).Pairwise (· ≠ ·) :=
    (List.mergeSort_perm _ _).nodup_iff.mpr (h.filter _)
  exact hsorted.imp₂ (fun a b => lt_of_le_of_ne) hdifferent

/-- The lines of a resolution are those of the inputs that its walk meets. -/
theorem mem_walk_iff {r : Resolution} {d : Descriptor} :
    d ∈ r.walk ↔ ∃ l ∈ linesAll [] r.tree, l.input = d := by
  rw [walk, ← map_linesAll [], List.mem_map]

end Resolution

namespace Form

/-- The inputs of a form continue those around them. -/
theorem continues_of_mem_lines {options : Options} {values : InitialValues} {form : Form}
    {l : Line} (hl : l ∈ linesAll [] (form.describe options values)) : l.Continues values := by
  rw [describe, linesAll_eq_flatMap, List.flatMap_map, List.mem_flatMap] at hl
  obtain ⟨f, -, hl⟩ := hl
  exact Field.lines_describe (Place.within_top f.name) f l hl

section Resolved

variable {options : Options} {members : List (String × Json)} {source : Source} {r : Resolution}

variable [Host]

/-- Of the inputs that are bound to a key of the caller, those outside of arrays receive its
value. -/
theorem Resolves.receives_iff (h : Resolves options (some members) source r)
    (hkeys : (Entries.keys members).Nodup) {key : String} {v : Json}
    (hv : Entries.get? members key = some v) {l : Line} (hl : l ∈ linesAll [] r.tree)
    (hbinding : l.input.widget.binding = key) : l.input.Receives key v ↔ ¬ l.InArray := by
  rw [h.tree] at hl
  have hcontinues : l.Continues r.values := continues_of_mem_lines hl
  have hvalue : Entries.get? r.values key = some (.json v) := by
    rw [h.get?_values, Option.getD_some, Entries.last?_eq_get? hkeys, hv]
    rfl
  cases harray : nearestArray? l.above with
  | none =>
      have hinitial := hcontinues.initial harray
      rw [hbinding, hvalue] at hinitial
      exact iff_of_true ⟨hbinding, hinitial⟩ (by simp [Line.InArray, harray])
  | some a =>
      obtain ⟨-, hnone⟩ := hcontinues.inside a harray
      refine iff_of_false (fun hreceives => ?_) (by simp [Line.InArray, harray])
      have hinitial := hreceives.2
      rw [hnone] at hinitial
      cases hinitial

/-- With values of the caller, the reported keys stand in strictly rising order, and a key of the
caller is not reported exactly if some input receives its value or one inside an array is bound
to it. Inputs bound to it outside of arrays all receive its value, and those inside never do. -/
theorem resolveSource_unbound_iff
    (h : (resolveSource options (some (.obj members)) source).outcome = .ok (.ok r))
    (hkeys : (Entries.keys members).Nodup) :
    (r.unbound (Entries.keys members)).Pairwise (· < ·) ∧
    (∀ key ∈ r.unbound (Entries.keys members), key ∈ Entries.keys members) ∧
    ∀ key v, Entries.get? members key = some v →
      (key ∉ r.unbound (Entries.keys members) ↔
        (∃ d ∈ r.walk, d.Receives key v) ∨
          ∃ l ∈ linesAll [] r.tree, l.InArray ∧ l.input.widget.binding = key) ∧
      ∀ l ∈ linesAll [] r.tree, l.input.widget.binding = key →
        (l.input.Receives key v ↔ ¬ l.InArray) := by
  have hr : Resolves options (some members) source r := resolves_of_resolveSource h
  refine ⟨Resolution.pairwise_unbound hkeys,
    fun key hkey => (Resolution.mem_unbound_iff.mp hkey).1,
    fun key v hv => ⟨?_, fun l hl hbinding => hr.receives_iff hkeys hv hl hbinding⟩⟩
  have hkey : key ∈ Entries.keys members := List.mem_map_of_mem (Entries.mem_of_get? hv)
  rw [Resolution.mem_unbound_iff, not_and_not_right, imp_iff_right hkey,
    Resolution.mem_bindings_iff]
  constructor
  · rintro ⟨d, hd, hbinding⟩
    obtain ⟨l, hl, rfl⟩ := Resolution.mem_walk_iff.mp hd
    by_cases harray : l.InArray
    · exact .inr ⟨l, hl, harray, hbinding⟩
    · exact .inl ⟨l.input, hd, (hr.receives_iff hkeys hv hl hbinding).mpr harray⟩
  · rintro (⟨d, hd, hreceives⟩ | ⟨l, hl, -, hbinding⟩)
    · exact ⟨d, hd, hreceives.1⟩
    · exact ⟨l.input, Resolution.mem_walk_iff.mpr ⟨l, hl, rfl⟩, hbinding⟩

end Resolved

/-- A document with a list of texts. -/
def taggedSource : Source :=
  .text ("\x7b\"fields\":[\x7b\"name\":\"tags\",\"type\":\"array\","
    ++ "\"items\":\x7b\"name\":\"tag\",\"type\":\"string\"\x7d\x7d]\x7d")

/-- Values of a caller: for the list, for nothing, for the elements of the list and for nothing. -/
def taggedValues : List (String × Json) :=
  [("tags", .arr []), ("zeta", .int 1), ("tags[].tag", .str "x"), ("alpha", .int 2)]

attribute [local instance] Host.standard in
/-- The document has two inputs, the list and its elements; the list starts with its value. -/
theorem exists_tagged :
    ∃ r, (resolveSource .standard (some (.obj taggedValues)) taggedSource).outcome = .ok (.ok r) ∧
      r.bindings = ["tags", "tags[].tag"] ∧
      (linesAll [] r.tree).map (fun l => (l.above.length, l.input.widget.binding,
        l.input.widget.initial)) =
        [(0, "tags", some (.json (.arr []))), (1, "tags[].tag", none)] := by
  have hfound : ((resolution? .standard (some (.obj taggedValues)) taggedSource).map fun r =>
      (linesAll [] r.tree).map fun l => (l.above.length, l.input.widget.binding,
        l.input.widget.initial)) =
      some [(0, "tags", some (.json (.arr []))), (1, "tags[].tag", none)] := by
    decide +kernel
  obtain ⟨r, hr, hlines⟩ := Option.map_eq_some_iff.mp hfound
  have hbindings := congrArg (List.map fun q => q.2.1) hlines
  rw [List.map_map] at hbindings
  refine ⟨r, resolution?_eq_some_iff.mp hr, ?_, hlines⟩
  rw [Resolution.bindings, Resolution.walk, ← map_linesAll [], List.map_map]
  exact hbindings

attribute [local instance] Host.standard in
/-- The two keys for nothing are reported, and the list receives its value. -/
theorem resolveSource_unbound_tagged :
    ∃ r, (resolveSource .standard (some (.obj taggedValues)) taggedSource).outcome = .ok (.ok r) ∧
      (Entries.keys taggedValues).Nodup ∧
      (r.unbound (Entries.keys taggedValues)).Pairwise (· < ·) ∧
      r.unbound (Entries.keys taggedValues) = ["alpha", "zeta"] ∧
      ∃ l ∈ linesAll [] r.tree, l.input.Receives "tags" (.arr []) := by
  obtain ⟨r, hr, hbindings, hlines⟩ := exists_tagged
  have hkeys : (Entries.keys taggedValues).Nodup := by decide
  obtain ⟨hsorted, -, hreceived⟩ := resolveSource_unbound_iff hr hkeys
  have hlist : (0, "tags", some (.json (.arr []))) ∈ (linesAll [] r.tree).map
      fun l => (l.above.length, l.input.widget.binding, l.input.widget.initial) := by
    rw [hlines]
    exact List.mem_cons_self
  obtain ⟨l, hl, heq⟩ := List.mem_map.mp hlist
  obtain ⟨habove, hwidget⟩ := Prod.mk.inj heq
  have houtside : ¬ l.InArray := by
    rw [Line.InArray, List.eq_nil_of_length_eq_zero habove]
    decide
  refine ⟨r, hr, hkeys, hsorted, ?_, l, hl,
    ((hreceived "tags" (.arr []) rfl).2 l hl (Prod.mk.inj hwidget).1).mpr houtside⟩
  rw [Resolution.unbound, hbindings]
  simp [taggedValues, Entries.keys, List.mergeSort]

attribute [local instance] Host.standard in
/-- The value under the binding of the elements is not reported, and no input receives it. -/
theorem tagged_not_received :
    ∃ r, (resolveSource .standard (some (.obj taggedValues)) taggedSource).outcome = .ok (.ok r) ∧
      Entries.get? taggedValues "tags[].tag" = some (.str "x") ∧
      "tags[].tag" ∉ r.unbound (Entries.keys taggedValues) ∧
      ∀ d ∈ r.walk, ¬ d.Receives "tags[].tag" (.str "x") := by
  obtain ⟨r, hr, hbindings, hlines⟩ := exists_tagged
  have hmem : ∀ l ∈ linesAll [] r.tree,
      (l.above.length, l.input.widget.binding, l.input.widget.initial) ∈
        [(0, "tags", some (InitialValue.json (.arr []))), (1, "tags[].tag", none)] := by
    intro l hl
    rw [← hlines]
    exact List.mem_map_of_mem hl
  refine ⟨r, hr, rfl, ?_, fun d hd hreceives => ?_⟩
  · rw [Resolution.mem_unbound_iff, hbindings]
    decide
  · obtain ⟨l, hl, rfl⟩ := Resolution.mem_walk_iff.mp hd
    have hline := hmem l hl
    rw [hreceives.1, hreceives.2] at hline
    simp at hline

end Form

end Formwork
