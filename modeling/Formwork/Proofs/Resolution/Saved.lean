import Formwork.Proofs.Json.ReadBack
import Formwork.Proofs.Resolution.Members
import Formwork.Proofs.Resolution.Spans
import Formwork.Proofs.Resolution.Values

/-!
# Saved resolutions

A resolution that was saved is read back as itself exactly if all its numbers are legible. It
never nests too deeply for the reader: the levels of a form are limited, and so is the depth of
the rules and values that its inputs take over.

## Implementation notes

A number in a document that is greater than any float is read as infinite and verified like any
other. So a resolution can hold a number that its writer spells as a constant.
-/

namespace Formwork

namespace Field

variable [Host]

/-- The default of a field that is kept does not nest more deeply than what has room. -/
theorem depth_effectiveDefault_le {level : Nat} {f : Field} (h : f.isStorable level = true)
    {v : Json} (hv : f.effectiveDefault = some v) : v.depth ≤ roomLimit := by
  unfold effectiveDefault at hv
  split at hv
  · rcases Option.or_eq_some_iff.mp hv with hd | ⟨-, hchecked⟩
    · exact depth_default_le h hd
    · obtain ⟨b, -, rfl⟩ := Option.map_eq_some_iff.mp hchecked
      exact Nat.zero_le _
  · exact depth_default_le h hv

/-- A value that is given as it stands is the default. -/
theorem effectiveDefault_of_given? {reference : DateTime} {f : Field} {j : Json}
    (h : f.given? reference = some (.json j)) : f.effectiveDefault = some j := by
  cases hdate : f.dateDefault with
  | none =>
      rw [given?_of_no_dateDefault hdate] at h
      obtain ⟨v, hv, heq⟩ := Option.map_eq_some_iff.mp h
      rwa [InitialValue.json.inj heq] at hv
  | some v =>
      rw [given?_of_dateDefault hdate] at h
      obtain ⟨d, -, heq⟩ := Option.map_eq_some_iff.mp h
      cases heq

end Field

namespace Descriptor

/-- The document values of inputs have what the one of each input has. -/
theorem forall_mem_toJsonAll? {P : Json → Prop} {ds : List Descriptor} {js : List Json}
    (h : List.Forall₂ (fun d j => d.toJson? = some j) ds js)
    (hall : ∀ d ∈ ds, ∀ j, d.toJson? = some j → P j) : ∀ j ∈ js, P j := by
  intro j hj
  obtain ⟨d, hd, hjson⟩ := exists_left_of_mem h j hj
  exact hall d hd j hjson

end Descriptor

open Descriptor (widgetMembers? nodeJson)

section Described

variable {s : Surroundings}

variable [Host]

/-- What an input has if those directly below it have it, the document values of all inputs of a
described field have, level by level. -/
theorem Description.Describes.forall_toJson? {P : Nat → Json → Prop} {good : Field → Prop}
    (hnode : ∀ {level g q members children}, level ≤ 32 → good g →
      widgetMembers? (g.widgetAt s q) = some members →
      (∀ c ∈ children, P (level + 1) c) → P level (nodeJson members children))
    {level : Nat} {n : Json} {f : Field} (h : Describes level n f)
    (hgood : ∀ g ∈ f.nested, good g) :
    ∀ q j, (f.describe s q).toJson? = some j → P level j := by
  induction h with
  | leaf bound attributes payload default =>
      intro q j hj
      rw [Field.describe, Descriptor.toJson?_eq_some_iff] at hj
      obtain ⟨members, children, hmembers, hall, rfl⟩ := hj
      refine hnode bound (hgood _ (Field.self_mem_nested _)) hmembers ?_
      exact Descriptor.forall_mem_toJsonAll? hall (by simp)
  | @array level ms a node items count bound attributes element flat inner length default ih =>
      intro q j hj
      rw [Field.nested, List.forall_mem_cons] at hgood
      rw [Field.describe, Descriptor.toJson?_eq_some_iff] at hj
      obtain ⟨members, children, hmembers, hall, rfl⟩ := hj
      refine hnode bound hgood.1 hmembers (Descriptor.forall_mem_toJsonAll? hall ?_)
      intro d hd
      rw [List.mem_singleton.mp hd]
      exact ih hgood.2 _
  | @object level ms a nodes properties bound attributes element keys named inner default ih =>
      intro q j hj
      rw [Field.nested, List.forall_mem_cons] at hgood
      rw [Field.describe, Descriptor.toJson?_eq_some_iff] at hj
      obtain ⟨members, children, hmembers, hall, rfl⟩ := hj
      refine hnode bound hgood.1 hmembers (Descriptor.forall_mem_toJsonAll? hall ?_)
      have hproperties := (Field.forall_zip_iff keys fun f => (∀ g ∈ f.nested, good g) →
        ∀ q j, (f.describe s q).toJson? = some j → P (level + 1) j).mp ih
      intro d hd
      rw [Field.describeProperties_eq_map] at hd
      obtain ⟨e, he, rfl⟩ := List.mem_map.mp hd
      exact hproperties e he (fun g hg => hgood.2 g (Field.mem_nestedIn.mpr ⟨e, he, hg⟩)) _

/-- The values that inputs start with have the property in their written form. -/
def Surroundings.Hold (P : Json → Prop) (s : Surroundings) : Prop :=
  ∀ key v j, Entries.get? s.values key = some v → v.toJson? = some j → P j

omit [Host] in
theorem Surroundings.Hold.initial {P : Json → Prop} (h : s.Hold P) {g : Field} {q : Place}
    {v : InitialValue} {j : Json} (hv : (g.widgetAt s q).initial = some v)
    (hj : v.toJson? = some j) : P j := by
  by_cases harray : q.inArray = true
  · rw [Field.widgetAt, if_pos harray] at hv
    cases hv
  · rw [Field.widgetAt, if_neg harray] at hv
    exact h _ v j hv hj

/-- The members of an input nest one level more deeply than what has room, for its rules are in a
list. -/
theorem depth_mem_widgetMembers? (hvalues : s.Hold fun j => j.depth ≤ roomLimit) {g : Field}
    {kept : Nat} (hg : g.isStorable kept = true) {q : Place} {members : List (String × Json)}
    (h : widgetMembers? (g.widgetAt s q) = some members) :
    ∀ m ∈ members, m.2.depth ≤ roomLimit + 1 := by
  refine Descriptor.forall_mem_widgetMembers? (P := fun j => j.depth ≤ roomLimit + 1) h
    (fun _ => Nat.zero_le _) (fun _ => Nat.zero_le _) ?_ (Nat.zero_le _) (Nat.zero_le _) ?_ ?_ ?_
  · refine Json.depth_arr_le_iff.mpr fun j hj => ?_
    obtain ⟨rule, hrule, rfl⟩ := List.mem_map.mp hj
    exact Rule.depth_toJson_le hg hrule
  · intro c _
    exact Nat.le_trans c.depth_toJson (by decide)
  · refine Json.depth_arr_le_iff.mpr fun j hj => ?_
    obtain ⟨c, -, rfl⟩ := List.mem_map.mp hj
    exact Nat.le_trans c.depth_toJson (by decide)
  · intro v j hv hj
    exact Nat.le_succ_of_le (hvalues.initial hv hj)

/-- How deeply the input of a field at a level nests: the list of its children and the object
around it add two for each level below. -/
def inputDepth (level : Nat) : Nat :=
  roomLimit + 2 + 2 * (33 - level)

theorem depth_nodeJson_le (hvalues : s.Hold fun j => j.depth ≤ roomLimit) {level : Nat}
    {g : Field} {q : Place} {members : List (String × Json)} {children : List Json}
    (hlevel : level ≤ 32) (hg : ∃ kept, g.isStorable kept = true)
    (hmembers : widgetMembers? (g.widgetAt s q) = some members)
    (hchildren : ∀ c ∈ children, c.depth ≤ inputDepth (level + 1)) :
    (nodeJson members children).depth ≤ inputDepth level := by
  have hdepth : inputDepth level = inputDepth (level + 1) + 1 + 1 := by
    unfold inputDepth
    omega
  rw [hdepth, nodeJson, Json.depth_obj_le_iff]
  intro m hm
  rcases List.mem_append.mp hm with hm | hm
  · obtain ⟨kept, hg⟩ := hg
    have hmember := depth_mem_widgetMembers? hvalues hg hmembers m hm
    unfold inputDepth
    omega
  · rw [Descriptor.eq_of_mem_childMembers hm]
    exact Json.depth_arr_le_iff.mpr hchildren

variable {p : Number → Prop}

omit [Host] in
theorem regular_nodeJson (hvalues : s.Hold (Json.Regular p))
    (hgrid : ∀ n ≤ s.options.gridWidth.val, p (.int n)) {g : Field} {q : Place}
    {members : List (String × Json)} {children : List Json} (hg : g.Regular p)
    (hmembers : widgetMembers? (g.widgetAt s q) = some members)
    (hchildren : ∀ c ∈ children, c.Regular p) : (nodeJson members children).Regular p := by
  have hparts : ∀ m ∈ members, m.2.Regular p := by
    refine Descriptor.forall_mem_widgetMembers? hmembers (fun _ => Json.regular_str)
      (fun _ => Json.regular_bool) ?_ ?_ ?_ (fun c _ => c.regular_toJson) ?_ ?_
    · refine Json.regular_arr.mpr fun j hj => ?_
      obtain ⟨rule, hrule, rfl⟩ := List.mem_map.mp hj
      exact Rule.regular_toJson hg hrule
    · exact Json.regular_num.mpr (hgrid _ (g.spanIn_le _ _ _))
    · exact Json.regular_num.mpr (hgrid _ (g.mobileSpan_le _ _))
    · refine Json.regular_arr.mpr fun j hj => ?_
      obtain ⟨c, hc, rfl⟩ := List.mem_map.mp hj
      exact Choice.regular_toJson (hg.options c hc)
    · intro v j hv hj
      exact hvalues.initial hv hj
  rw [nodeJson, Json.regular_obj]
  refine ⟨Descriptor.nodup_keys_node hmembers, fun m hm => ?_⟩
  rcases List.mem_append.mp hm with hm | hm
  · exact hparts m hm
  · rw [Descriptor.eq_of_mem_childMembers hm]
    exact Json.regular_arr.mpr hchildren

end Described

/-- Values are written under their keys, one by one. -/
theorem InitialValues.toMembers?_eq_some_iff {values : InitialValues}
    {members : List (String × Json)} :
    toMembers? values = some members ↔
      List.Forall₂ (fun e m => e.1 = m.1 ∧ e.2.toJson? = some m.2) values members := by
  rw [toMembers?, mapM_eq_some_iff]
  refine iff_of_eq (congrArg (List.Forall₂ · values members) ?_)
  funext e m
  obtain ⟨key, j⟩ := m
  simp [Option.bind_eq_some_iff, and_comm]

/-- The members for the initial values have the keys of the values. -/
theorem InitialValues.keys_members {values : InitialValues} {members : List (String × Json)}
    (h : List.Forall₂ (fun e m => e.1 = m.1 ∧ e.2.toJson? = some m.2) values members) :
    Entries.keys members = Entries.keys values := by
  induction h with
  | nil => rfl
  | cons hem _ ih => exact congrArg₂ List.cons hem.1.symm ih

theorem Resolution.toJson?_eq_some_iff {r : Resolution} {v : Json} :
    r.toJson? = some v ↔ ∃ fields values,
      List.Forall₂ (fun d j => d.toJson? = some j) r.tree fields ∧
      List.Forall₂ (fun e m => e.1 = m.1 ∧ e.2.toJson? = some m.2) r.values values ∧
      v = .obj [("valid", .bool true), ("fields", .arr fields),
        ("initialValues", .obj values)] := by
  rw [Resolution.toJson?]
  simp only [Option.bind_eq_bind, Option.bind_eq_some_iff, Descriptor.toJsonAll?_eq_some_iff,
    InitialValues.toMembers?_eq_some_iff, Option.pure_def, Option.some.injEq]
  constructor
  · rintro ⟨fields, hfields, values, hvalues, rfl⟩
    exact ⟨fields, values, hfields, hvalues, rfl⟩
  · rintro ⟨fields, values, hfields, hvalues, rfl⟩
    exact ⟨fields, hfields, values, hvalues, rfl⟩

namespace Form

variable {options : Options} {initial : Overrides} {source : Source} {r : Resolution}

section

variable [Host]

/-- What holds of texts, of the defaults of the fields and of the values of the caller holds of
all values of a resolution. -/
theorem Resolves.hold {P : Json → Prop} (h : Resolves options initial source r)
    (text : ∀ s, P (.str s))
    (default : ∀ f ∈ r.form.fields, ∀ g ∈ f.nested, ∀ v, g.effectiveDefault = some v → P v)
    (caller : ∀ e ∈ initial.getD [], P e.2) :
    Surroundings.Hold P ⟨options, r.form.layout, r.values⟩ := by
  intro key v j hv hj
  have hkey : Entries.get? r.values key = some v := hv
  rw [h.get?_values, Option.or_eq_some_iff] at hkey
  rcases hkey with hcaller | ⟨-, hgiven⟩
  · obtain ⟨w, hw, rfl⟩ := Option.map_eq_some_iff.mp hcaller
    rw [← Option.some.inj hj]
    exact caller _ (Entries.mem_of_last? hw)
  · obtain ⟨g, hlast, hg⟩ := last?_given_eq_some_iff.mp hgiven
    obtain ⟨f, hf, hbound⟩ := List.mem_flatMap.mp hlast.mem
    cases v with
    | json value =>
        rw [← Option.some.inj hj]
        exact default f hf g (Field.mem_nested_of_mem_bound hbound) value
          (Field.effectiveDefault_of_given? hg)
    | date d =>
        obtain ⟨s, -, rfl⟩ := Option.map_eq_some_iff.mp hj
        exact text s

/-- Each field of a resolution is described at the top, and can be copied. -/
theorem Resolves.described (h : Resolves options initial source r) :
    ∀ f ∈ r.form.fields, ∃ n, Description.Describes 0 n f ∧ f.Copyable 0 := by
  obtain ⟨document, -, ms, nodes, -, -, hall, -, -⟩ := h.document
  intro f hf
  obtain ⟨n, -, hn⟩ := exists_left_of_mem hall f hf
  exact ⟨n, hn⟩

/-- What holds of the written form of each field holds of that of each tree of inputs. -/
theorem Resolves.forall_mem_fields {P : Json → Prop} (h : Resolves options initial source r)
    {fields : List Json} (hfields : List.Forall₂ (fun d j => d.toJson? = some j) r.tree fields)
    (hall : ∀ f ∈ r.form.fields, ∀ q j,
      (f.describe ⟨options, r.form.layout, r.values⟩ q).toJson? = some j → P j) :
    ∀ j ∈ fields, P j := by
  refine Descriptor.forall_mem_toJsonAll? hfields fun d hd => ?_
  rw [h.tree, describe] at hd
  obtain ⟨f, hf, rfl⟩ := List.mem_map.mp hd
  exact hall f hf _

/-- What holds of all values holds of the members for them. -/
theorem Resolves.forall_mem_values {P : Json → Prop} (h : Resolves options initial source r)
    (hhold : Surroundings.Hold P ⟨options, r.form.layout, r.values⟩)
    {values : List (String × Json)}
    (hvalues : List.Forall₂ (fun e m => e.1 = m.1 ∧ e.2.toJson? = some m.2) r.values values) :
    ∀ m ∈ values, P m.2 := by
  have hall : ∀ e ∈ r.values, Entries.get? r.values e.1 = some e.2 := fun e he =>
    Entries.get?_of_mem h.nodup_keys he
  intro m hm
  obtain ⟨e, he, -, hjson⟩ := exists_left_of_mem hvalues m hm
  exact hhold e.1 e.2 m.2 (hall e he) hjson

/-- A resolution does not nest too deeply to be read. -/
theorem Resolves.depth_le (h : Resolves options initial source r) {v : Json}
    (hv : r.toJson? = some v) : v.depth ≤ Json.openLimit := by
  obtain ⟨fields, values, hfields, hvalues, rfl⟩ := Resolution.toJson?_eq_some_iff.mp hv
  have hstorable : ∀ f ∈ r.form.fields, ∀ g ∈ f.nested, ∃ kept, g.isStorable kept = true := by
    intro f hf
    obtain ⟨n, -, hcopyable⟩ := h.described f hf
    exact hcopyable.exists_isStorable
  have hcaller : ∀ e ∈ initial.getD [], e.2.depth ≤ roomLimit := by
    have hcopyable := h.copyable
    cases initial with
    | none => simp
    | some ms =>
        have hdepth : (Json.obj ms).depth ≤ roomLimit := by
          calc
            (Json.obj ms).depth ≤ (Json.obj ms).height := Json.depth_le_height _
            _ ≤ Host.callerRoom := Form.copyable_some_iff.mp hcopyable
            _ ≤ roomLimit := Host.callerRoom_le
        exact Json.depth_obj_le_iff.mp (Nat.le_succ_of_le hdepth)
  have hdefault : ∀ f ∈ r.form.fields, ∀ g ∈ f.nested, ∀ v, g.effectiveDefault = some v →
      v.depth ≤ roomLimit := by
    intro f hf g hg v hv
    obtain ⟨kept, hkept⟩ := hstorable f hf g hg
    exact Field.depth_effectiveDefault_le hkept hv
  have hhold := h.hold (P := fun j => j.depth ≤ roomLimit) (fun _ => Nat.zero_le _)
    hdefault hcaller
  have hinputs : ∀ j ∈ fields, j.depth ≤ inputDepth 0 := by
    refine h.forall_mem_fields hfields fun f hf => ?_
    obtain ⟨n, hn, hcopyable⟩ := h.described f hf
    exact hn.forall_toJson? (P := fun level j => j.depth ≤ inputDepth level)
      (depth_nodeJson_le hhold) hcopyable.exists_isStorable
  have hmembers := h.forall_mem_values hhold hvalues
  have hdepth : (Json.obj [("valid", .bool true), ("fields", .arr fields),
      ("initialValues", .obj values)]).depth ≤ inputDepth 0 + 1 + 1 := by
    refine Json.depth_obj_le_iff.mpr ?_
    simp only [List.forall_mem_cons, List.not_mem_nil, false_implies, implies_true, and_true]
    refine ⟨Nat.zero_le _, Json.depth_arr_le_iff.mpr hinputs, Json.depth_obj_le_iff.mpr ?_⟩
    exact fun m hm => Nat.le_trans (hmembers m hm) (by decide)
  exact Nat.le_trans hdepth (by decide)

/-- A resolution is regular if its document, the values of the caller and the numbers up to the
width of the grid are. -/
theorem Resolves.regular {p : Number → Prop} (h : Resolves options initial source r)
    (hdocument : ∀ document, source.load = .ok document → document.Regular p)
    (hcaller : (Json.obj (initial.getD [])).Regular p)
    (hgrid : ∀ n ≤ options.gridWidth.val, p (.int n)) {v : Json} (hv : r.toJson? = some v) :
    v.Regular p := by
  obtain ⟨fields, values, hfields, hvalues, rfl⟩ := Resolution.toJson?_eq_some_iff.mp hv
  have hregular : ∀ f ∈ r.form.fields, ∀ g ∈ f.nested, g.Regular p := by
    obtain ⟨document, hload, hdescribed⟩ := h.document
    exact hdescribed.regular (hdocument document hload)
  have hhold := h.hold (P := Json.Regular p) (fun _ => Json.regular_str)
    (fun f hf g hg v hd => (hregular f hf g hg).effectiveDefault hd)
    (Json.regular_obj.mp hcaller).2
  have hinputs : ∀ j ∈ fields, j.Regular p := by
    refine h.forall_mem_fields hfields fun f hf => ?_
    obtain ⟨n, hn, -⟩ := h.described f hf
    exact hn.forall_toJson? (P := fun _ => Json.Regular p)
      (fun _ hg => regular_nodeJson hhold hgrid hg) (hregular f hf)
  have hkeys : Entries.keys values = Entries.keys r.values := InitialValues.keys_members hvalues
  have hmembers : (Json.obj values).Regular p := by
    refine Json.regular_obj.mpr ⟨?_, h.forall_mem_values hhold hvalues⟩
    rw [hkeys]
    exact h.nodup_keys
  refine Json.regular_obj.mpr ⟨by simp [Entries.keys], ?_⟩
  simp only [List.forall_mem_cons, List.not_mem_nil, false_implies, implies_true, and_true]
  exact ⟨Json.regular_bool, Json.regular_arr.mpr hinputs, hmembers⟩

/-- A resolution that was saved is read back as itself exactly if it is regular and all its numbers
are legible. It is so if the numbers of the document, of the caller and of the grid are. -/
theorem resolveSource_saved_iff {v : Json}
    (h : (resolveSource options (initial.map .obj) source).outcome = .ok (.ok r))
    (hv : r.toJson? = some v) :
    ((Source.text (v.render Json.indented)).load = .ok v ↔ v.Regular Number.Legible) ∧
    ((∀ document, source.load = .ok document → document.Regular Number.Legible) →
      (Json.obj (initial.getD [])).Regular Number.Legible →
      (Number.int options.gridWidth.val).Legible → v.Regular Number.Legible) := by
  have hr : Resolves options initial source r := resolves_of_resolveSource h
  constructor
  · have hdepth := hr.depth_le hv
    obtain ⟨fields, values, -, -, rfl⟩ := Resolution.toJson?_eq_some_iff.mp hv
    exact Source.load_render_iff hdepth
  · intro hdocument hcaller hwidth
    refine hr.regular hdocument hcaller (fun n hn => ?_) hv
    exact Nat.le_trans (Number.digitCount_mono hn) hwidth

end

/-- A document with a number that is no whole number. -/
def fractionSource : Source :=
  .text ("\x7b\"fields\": [\x7b\"name\": \"n\", \"type\": \"number\", "
    ++ "\"defaultValue\": 0.5\x7d]\x7d")

attribute [local instance] Host.standard in
/-- The number is written and read back as it is. -/
theorem resolveSource_saved_fraction :
    ∃ r v, (resolveSource .standard ((none : Overrides).map .obj) fractionSource).outcome =
        .ok (.ok r) ∧ r.toJson? = some v ∧
      (Source.text (v.render Json.indented)).load = .ok v := by
  have hfound : ((resolution? .standard ((none : Overrides).map .obj) fractionSource).bind
      Resolution.toJson?).isSome = true := by
    decide +kernel
  obtain ⟨v, hfound⟩ := Option.isSome_iff_exists.mp hfound
  obtain ⟨r, hr, hv⟩ := Option.bind_eq_some_iff.mp hfound
  have hresolved := resolution?_eq_some_iff.mp hr
  have hload : fractionSource.load.toOption = some (.obj [("fields", .arr [.obj [
      ("name", .str "n"), ("type", .str "number"),
      ("defaultValue", .num (.float (.finite false 1022 0)))]])]) := by
    decide +kernel
  have hdocument : ∀ document, fractionSource.load = .ok document →
      document.Regular Number.Legible := by
    intro document hdocument
    rw [hdocument] at hload
    rw [Option.some.inj hload]
    simp [Entries.keys, Number.Legible]
  obtain ⟨hiff, hregular⟩ := resolveSource_saved_iff hresolved hv
  refine ⟨r, v, hresolved, hv, hiff.mpr (hregular hdocument ?_ ?_)⟩
  · simp [Entries.keys]
  · show Number.digitCount 24 ≤ Text.digitLimit
    decide +kernel

/-- A document with a number that is greater than any float. -/
def overflowSource : Source :=
  .text ("\x7b\"fields\": [\x7b\"name\": \"n\", \"type\": \"number\", "
    ++ "\"defaultValue\": 1e400\x7d]\x7d")

attribute [local instance] Host.standard in
/-- The number resolves to an infinite one, which is written as a constant and refused. -/
theorem overflow_not_readBack :
    ∃ r v, (resolveSource .standard ((none : Overrides).map .obj) overflowSource).outcome =
        .ok (.ok r) ∧ r.toJson? = some v ∧
      ∀ document, (Source.text (v.render Json.indented)).load ≠ .ok document := by
  have hfound : ((resolution? .standard ((none : Overrides).map .obj) overflowSource).bind
      Resolution.toJson?).map
        (fun v => (Json.read .refused (Json.print Json.indented 0 v)).toOption) = some none := by
    decide +kernel
  obtain ⟨v, hfound, hload⟩ := Option.map_eq_some_iff.mp hfound
  obtain ⟨r, hr, hv⟩ := Option.bind_eq_some_iff.mp hfound
  refine ⟨r, v, resolution?_eq_some_iff.mp hr, hv, fun document hdocument => ?_⟩
  rw [Source.load_render_eq_ok_iff.mp hdocument] at hload
  cases hload

end Form

end Formwork
