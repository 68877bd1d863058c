import Formwork.Proofs.Description.Numbers
import Formwork.Resolution.Basic

/-!
# The members of an input

An input is written with its members in a fixed order, each at most once. What they hold comes
from the field: its rules, its bounds, its options and its frame. None of it nests deeper than
what can be copied, and all of it is regular if the field is.
-/

namespace Formwork

theorem mem_memberOf_iff {α : Type} {key : String} {toJson : α → Json} {o : Option α}
    {m : String × Json} : m ∈ memberOf key toJson o ↔ ∃ a, o = some a ∧ m = (key, toJson a) := by
  cases o <;> simp [memberOf]

theorem keys_memberOf_sublist {α : Type} (key : String) (toJson : α → Json) (o : Option α) :
    (Entries.keys (memberOf key toJson o)).Sublist [key] := by
  cases o with
  | none => exact List.nil_sublist _
  | some a => exact .refl _

namespace Descriptor

theorem toJsonAll?_eq_some_iff {ds : List Descriptor} {js : List Json} :
    toJsonAll? ds = some js ↔ List.Forall₂ (fun d j => d.toJson? = some j) ds js := by
  induction ds generalizing js with
  | nil => cases js <;> simp [toJsonAll?]
  | cons d ds ih =>
      simp only [toJsonAll?, Option.bind_eq_bind, Option.bind_eq_some_iff, ih, Option.pure_def,
        Option.some.injEq]
      constructor
      · rintro ⟨j, hj, rest, hrest, rfl⟩
        exact .cons hj hrest
      · rintro (_ | ⟨hj, hrest⟩)
        exact ⟨_, hj, _, hrest, rfl⟩

/-- The member of an input for its children, if it has any. -/
def childMembers (children : List Json) : List (String × Json) :=
  if children.isEmpty then [] else [("children", .arr children)]

theorem eq_of_mem_childMembers {children : List Json} {m : String × Json}
    (h : m ∈ childMembers children) : m = ("children", .arr children) := by
  unfold childMembers at h
  split at h
  · cases h
  · exact List.mem_singleton.mp h

/-- The document value of an input, put together from its members and its children. -/
def nodeJson (members : List (String × Json)) (children : List Json) : Json :=
  .obj (members ++ childMembers children)

theorem toJson?_eq_some_iff {w : Widget} {cs : List Descriptor} {j : Json} :
    (Descriptor.node w cs).toJson? = some j ↔ ∃ members children,
      widgetMembers? w = some members ∧
      List.Forall₂ (fun c j => c.toJson? = some j) cs children ∧ j = nodeJson members children := by
  rw [toJson?]
  simp only [Option.bind_eq_bind, Option.bind_eq_some_iff, toJsonAll?_eq_some_iff,
    Option.pure_def, Option.some.injEq]
  constructor
  · rintro ⟨members, hmembers, children, hchildren, rfl⟩
    exact ⟨members, children, hmembers, hchildren, rfl⟩
  · rintro ⟨members, children, hmembers, hchildren, rfl⟩
    exact ⟨members, hmembers, children, hchildren, rfl⟩

/-- The members of an input that it always has. -/
def fixedMembers (w : Widget) : List (String × Json) :=
  [("name", .str w.field.name), ("label", .str w.field.displayLabel),
    ("type", .str w.field.type.name), ("path", .str w.path), ("valuePath", .str w.binding),
    ("rules", .arr (w.rules.map Rule.toJson)), ("span", natJson w.span),
    ("mobileSpan", natJson w.mobileSpan), ("newline", .bool w.newline),
    ("valueProp", .str w.valueProperty)]

/-- The members of an input for the options that it offers. -/
def optionMembers (w : Widget) : List (String × Json) :=
  if w.options.isEmpty then [] else [("options", .arr (w.options.map Choice.toJson))]

/-- An input is written with its initial value if it has one. -/
theorem widgetMembers?_eq_some_iff {w : Widget} {members : List (String × Json)} :
    widgetMembers? w = some members ↔ ∃ initial : Option Json,
      (∀ j, initial = some j → ∃ v, w.initial = some v ∧ v.toJson? = some j) ∧
      (initial = none → w.initial = none) ∧
      members = fixedMembers w ++ memberOf "card" Card.toJson w.card ++ optionMembers w
        ++ memberOf "format" .str w.dateFormat ++ memberOf "initialValue" id initial := by
  unfold widgetMembers?
  cases hinitial : w.initial with
  | none =>
      simp only [Option.bind_eq_bind, Option.bind_some, Option.pure_def, Option.some.injEq]
      constructor
      · rintro rfl
        exact ⟨none, by simp, by simp, rfl⟩
      · rintro ⟨_ | j, hj, -, rfl⟩
        · rfl
        · obtain ⟨v, hv, -⟩ := hj j rfl
          cases hv
  | some v =>
      simp only [Option.bind_eq_bind, Option.bind_eq_some_iff, Option.map_eq_some_iff,
        Option.pure_def, Option.some.injEq]
      constructor
      · rintro ⟨_, ⟨j, hj, rfl⟩, rfl⟩
        exact ⟨some j, fun _ h => ⟨v, rfl, by rwa [← Option.some.inj h]⟩, by simp, rfl⟩
      · rintro ⟨_ | j, hj, hnone, rfl⟩
        · cases hnone rfl
        · obtain ⟨_, rfl, hj⟩ := hj j rfl
          exact ⟨_, ⟨j, hj, rfl⟩, rfl⟩

/-- The keys of an input, in their order. -/
def nodeKeys : List String :=
  ["name", "label", "type", "path", "valuePath", "rules", "span", "mobileSpan", "newline",
    "valueProp", "card", "options", "format", "initialValue", "children"]

/-- An input has each of its keys at most once. -/
theorem nodup_keys_node {w : Widget} {members : List (String × Json)} {children : List Json}
    (h : widgetMembers? w = some members) :
    (Entries.keys (members ++ childMembers children)).Nodup := by
  obtain ⟨initial, -, -, rfl⟩ := widgetMembers?_eq_some_iff.mp h
  have hoptions : (Entries.keys (optionMembers w)).Sublist ["options"] := by
    unfold optionMembers
    split
    · exact List.nil_sublist _
    · exact .refl _
  have hchildren : (Entries.keys (childMembers children)).Sublist ["children"] := by
    unfold childMembers
    split
    · exact List.nil_sublist _
    · exact .refl _
  have hsublist : (Entries.keys (fixedMembers w ++ memberOf "card" Card.toJson w.card
      ++ optionMembers w ++ memberOf "format" .str w.dateFormat
      ++ memberOf "initialValue" id initial ++ childMembers children)).Sublist nodeKeys := by
    simp only [Entries.keys, List.map_append] at hoptions hchildren ⊢
    exact (((((List.Sublist.refl _).append (keys_memberOf_sublist _ _ _)).append hoptions).append
      (keys_memberOf_sublist _ _ _)).append (keys_memberOf_sublist _ _ _)).append hchildren
  exact hsublist.nodup (by decide)

/-- What holds of all parts of an input holds of its members. -/
theorem forall_mem_widgetMembers? {P : Json → Prop} {w : Widget}
    {members : List (String × Json)} (h : widgetMembers? w = some members)
    (text : ∀ s, P (.str s)) (truth : ∀ b, P (.bool b))
    (rules : P (.arr (w.rules.map Rule.toJson)))
    (span : P (natJson w.span)) (mobileSpan : P (natJson w.mobileSpan))
    (card : ∀ c, w.card = some c → P c.toJson)
    (options : P (.arr (w.options.map Choice.toJson)))
    (initial : ∀ v j, w.initial = some v → v.toJson? = some j → P j) :
    ∀ m ∈ members, P m.2 := by
  obtain ⟨j, hj, -, rfl⟩ := widgetMembers?_eq_some_iff.mp h
  have hfixed : ∀ m ∈ fixedMembers w, P m.2 := by
    simp [fixedMembers, text, truth, rules, span, mobileSpan]
  have hoptions : ∀ m ∈ optionMembers w, P m.2 := by
    unfold optionMembers
    split <;> simp [options]
  intro m hm
  simp only [List.mem_append, mem_memberOf_iff] at hm
  rcases hm with (((hm | ⟨c, hc, rfl⟩) | hm) | ⟨format, -, rfl⟩) | ⟨value, hvalue, rfl⟩
  · exact hfixed m hm
  · exact card c hc
  · exact hoptions m hm
  · exact text format
  · obtain ⟨v, hv, hjson⟩ := hj value hvalue
    exact initial v value hv hjson

end Descriptor

variable {p : Number → Prop}

/-- The number is a bound of the field. -/
def Field.IsBound (x : Number) : Field → Prop
  | .leaf _ (.number min max _) _ => min = some x ∨ max = some x
  | _ => False

theorem Field.Regular.isBound {f : Field} (h : f.Regular p) {x : Number} (hx : f.IsBound x) :
    p x := by
  cases f with
  | leaf a l d =>
      cases l with
      | number min max step =>
          obtain ⟨hmin, hmax⟩ := h.bounds rfl
          exact hx.elim (hmin x) (hmax x)
      | _ => exact hx.elim
  | _ => exact hx.elim

/-- A rule that was not authored tells texts and its bounds. -/
theorem Rule.exists_members {r : Rule} (hr : ∀ copies, r ≠ .custom copies) :
    ∃ ms, r.toJson = .obj ms ∧ (Entries.keys ms).Nodup ∧
      ∀ m ∈ ms, (∃ s, m.2 = .str s) ∨ ∃ x, (r.min? = some x ∨ r.max? = some x) ∧ m.2 = .num x := by
  have hmembers : r.toJson = .obj ([("kind", .str r.kind), ("message", r.message)]
      ++ memberOf "min" .num r.min? ++ memberOf "max" .num r.max?
      ++ memberOf "transform" .str (if r.transforms then some "parse_date" else none)) := by
    cases r with
    | custom copies => exact absurd rfl (hr copies)
    | _ => rfl
  have hmessage : ∃ s, r.message = .str s := by
    cases r with
    | custom copies => exact absurd rfl (hr copies)
    | _ => exact ⟨_, rfl⟩
  refine ⟨_, hmembers, ?_, fun m hm => ?_⟩
  · have hkeys : (Entries.keys ([("kind", .str r.kind), ("message", r.message)]
        ++ memberOf "min" .num r.min? ++ memberOf "max" .num r.max?
        ++ memberOf "transform" .str (if r.transforms then some "parse_date" else none))).Sublist
          ["kind", "message", "min", "max", "transform"] := by
      simp only [Entries.keys, List.map_append]
      exact (((List.Sublist.refl _).append (keys_memberOf_sublist _ _ _)).append
        (keys_memberOf_sublist _ _ _)).append (keys_memberOf_sublist _ _ _)
    exact hkeys.nodup (by decide)
  · simp only [List.mem_append, List.mem_cons, List.not_mem_nil, or_false,
      mem_memberOf_iff] at hm
    rcases hm with (((rfl | rfl) | ⟨x, hx, rfl⟩) | ⟨x, hx, rfl⟩) | ⟨s, -, rfl⟩
    · exact .inl ⟨_, rfl⟩
    · exact .inl hmessage
    · exact .inr ⟨x, .inl hx, rfl⟩
    · exact .inr ⟨x, .inr hx, rfl⟩
    · exact .inl ⟨s, rfl⟩

/-- The rules that a field has of its own have no other bounds than those of the field. -/
theorem Field.of_mem_ownRules {f : Field} {reference : DateTime} {r : Rule}
    (hr : r ∈ f.ownRules reference) : (∀ copies, r ≠ .custom copies) ∧
      ∀ x, r.min? = some x ∨ r.max? = some x → f.IsBound x := by
  unfold Field.ownRules at hr
  rcases List.mem_append.mp hr with hr | hr
  · split at hr
    · rw [List.mem_singleton.mp hr]
      exact ⟨nofun, nofun⟩
    · cases hr
  · cases f with
    | leaf a l d =>
        cases l with
        | number min max step =>
            simp only [Option.mem_toList, Option.map_eq_some_iff] at hr
            obtain ⟨bounds, hbounds, rfl⟩ := hr
            refine ⟨nofun, fun x hx => ?_⟩
            rw [← Range.min?_of_mem hbounds, ← Range.max?_of_mem hbounds]
            exact hx
        | date format showTime =>
            rw [List.mem_singleton.mp hr]
            exact ⟨nofun, nofun⟩
        | _ => cases hr
    | _ => cases hr

theorem Rule.depth_toJson_le [Host] {level : Nat} {f : Field} (h : f.isStorable level = true)
    {reference : DateTime} {r : Rule} (hr : r ∈ f.rules reference) :
    r.toJson.depth ≤ roomLimit := by
  unfold Field.rules at hr
  split at hr
  · rename_i descriptors hrules
    obtain ⟨descriptor, hmem, rfl⟩ := List.mem_map.mp hr
    rw [toJson_custom]
    exact Field.depth_rule_le h hrules hmem
  · obtain ⟨ms, hjson, -, hms⟩ := Rule.exists_members (Field.of_mem_ownRules hr).1
    have hdepth : (Json.obj ms).depth ≤ 0 + 1 := by
      refine Json.depth_obj_le_iff.mpr fun m hm => ?_
      rcases hms m hm with ⟨s, hs⟩ | ⟨x, -, hx⟩
      · rw [hs]
        exact Nat.le_refl 0
      · rw [hx]
        exact Nat.le_refl 0
    rw [hjson]
    exact Nat.le_trans hdepth (by decide)

theorem Rule.regular_toJson {f : Field} (h : f.Regular p) {reference : DateTime}
    {r : Rule} (hr : r ∈ f.rules reference) : r.toJson.Regular p := by
  unfold Field.rules at hr
  split at hr
  · rename_i descriptors hrules
    obtain ⟨descriptor, hmem, rfl⟩ := List.mem_map.mp hr
    rw [toJson_custom]
    exact h.rules descriptors hrules descriptor hmem
  · obtain ⟨hown, hbounds⟩ := Field.of_mem_ownRules hr
    obtain ⟨ms, hjson, hkeys, hms⟩ := Rule.exists_members hown
    rw [hjson]
    refine Json.regular_obj.mpr ⟨hkeys, fun m hm => ?_⟩
    rcases hms m hm with ⟨s, hs⟩ | ⟨x, hbound, hx⟩
    · rw [hs]
      exact Json.regular_str
    · rw [hx]
      exact Json.regular_num.mpr (h.isBound (hbounds x hbound))

theorem Choice.depth_toJson (c : Choice) : c.toJson.depth ≤ 1 := by
  have hvalue : c.value.toJson.depth = 0 := by
    cases c.value <;> rfl
  refine Json.depth_obj_le_iff.mpr ?_
  simp [hvalue, Json.depth]

theorem Choice.regular_toJson {c : Choice} (h : c.value.toJson.Regular p) :
    c.toJson.Regular p := by
  unfold Choice.toJson
  simp [h, Entries.keys]

/-- A frame tells texts and truth values. -/
theorem Card.exists_members (c : Card) : ∃ ms, c.toJson = .obj ms ∧ (Entries.keys ms).Nodup ∧
    ∀ m ∈ ms, (∃ s, m.2 = .str s) ∨ ∃ b, m.2 = .bool b := by
  refine ⟨_, rfl, ?_, fun m hm => ?_⟩
  · have hkeys : (Entries.keys (memberOf "title" .str c.title
        ++ memberOf "description" .str c.description ++ memberOf "bordered" .bool c.bordered
        ++ memberOf "size" (.str ·.name) c.size ++ memberOf "extra" .str c.extra)).Sublist
          ["title", "description", "bordered", "size", "extra"] := by
      simp only [Entries.keys, List.map_append]
      exact ((((keys_memberOf_sublist _ _ _).append (keys_memberOf_sublist _ _ _)).append
        (keys_memberOf_sublist _ _ _)).append (keys_memberOf_sublist _ _ _)).append
          (keys_memberOf_sublist _ _ _)
    exact hkeys.nodup (by decide)
  · simp only [List.mem_append, mem_memberOf_iff] at hm
    rcases hm with (((⟨s, -, rfl⟩ | ⟨s, -, rfl⟩) | ⟨b, -, rfl⟩) | ⟨size, -, rfl⟩) | ⟨s, -, rfl⟩
    · exact .inl ⟨s, rfl⟩
    · exact .inl ⟨s, rfl⟩
    · exact .inr ⟨b, rfl⟩
    · exact .inl ⟨_, rfl⟩
    · exact .inl ⟨s, rfl⟩

theorem Card.depth_toJson (c : Card) : c.toJson.depth ≤ 1 := by
  obtain ⟨ms, hjson, -, hms⟩ := c.exists_members
  rw [hjson]
  refine Json.depth_obj_le_iff.mpr fun m hm => ?_
  rcases hms m hm with ⟨s, hs⟩ | ⟨b, hb⟩
  · rw [hs]
    exact Nat.le_refl 0
  · rw [hb]
    exact Nat.le_refl 0

theorem Card.regular_toJson (c : Card) : c.toJson.Regular p := by
  obtain ⟨ms, hjson, hkeys, hms⟩ := c.exists_members
  rw [hjson]
  refine Json.regular_obj.mpr ⟨hkeys, fun m hm => ?_⟩
  rcases hms m hm with ⟨s, hs⟩ | ⟨b, hb⟩
  · rw [hs]
    exact Json.regular_str
  · rw [hb]
    exact Json.regular_bool

end Formwork
