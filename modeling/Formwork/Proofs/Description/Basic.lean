import Formwork.Proofs.Entries
import Formwork.Proofs.Field.Nested
import Formwork.Proofs.Related
import Formwork.Proofs.Value.Accepts

/-!
# The grammar of descriptions

A description is an object whose members say what a field is. The grammar relates
descriptions to the fields that they describe, member by member and without any order
of checks. Members that no rule names may hold anything.

## Implementation notes

An attribute may be absent or null, and both say nothing. Only the frame and the
default tell null from absent, so their rules speak of the member itself.
-/

namespace Formwork

/-- The lower bound is not greater than the upper one. -/
def Bounds.Ordered (b : Bounds) : Prop :=
  ∀ l ∈ b.lower, ∀ u ∈ b.upper, l ≤ u

/-- The count lies within the bounds. -/
def Bounds.Allows (b : Bounds) (n : Nat) : Prop :=
  (∀ l ∈ b.lower, l ≤ n) ∧ ∀ u ∈ b.upper, n ≤ u

/-- The first number, if both are given, is not greater than the second. -/
def Number.NotAbove (a b : Option Number) : Prop :=
  ∀ x ∈ a, ∀ y ∈ b, y.lt x = false

/-- The value is not outside of the bounds of a leaf for numbers. -/
def Leaf.Contains (v : Json) : Leaf → Prop
  | .number min max _ =>
    Number.NotAbove min (Checked.number? v) ∧ Number.NotAbove (Checked.number? v) max
  | _ => True

namespace Description

open Checked (Members)

variable {α : Type}

/-- A member says what its value is related to; one that is absent or null says nothing. -/
def Says (relation : Json → α → Prop) (ms : Members) (key : String) : Option α → Prop
  | none => ∀ v, Entries.get? ms key = some v → v = .null
  | some a => ∃ v, Entries.get? ms key = some v ∧ relation v a

/-- The value is the text. -/
def Text (v : Json) (s : String) : Prop :=
  v = .str s

/-- The value is the truth value. -/
def Truth (v : Json) (b : Bool) : Prop :=
  v = .bool b

/-- The value is the number. -/
def Numeric (v : Json) (x : Number) : Prop :=
  v = .num x

/-- The value is a number greater than zero. -/
def Size (v : Json) (x : Number) : Prop :=
  v = .num x ∧ (Number.int 0).lt x = true

/-- The value is a number, of either kind, that is exactly the whole number. -/
def Whole (v : Json) (n : Nat) : Prop :=
  ∃ x, v = .num x ∧ x.place? = some (.at (n * Binary64.unitsPerOne))

/-- The value is the whole number, whose range its type tells. -/
def WholeIn {range : Nat → Prop} (v : Json) (n : { n // range n }) : Prop :=
  Whole v n.val

/-- The value is the name of the choice. -/
def Named (name : α → String) (v : Json) (a : α) : Prop :=
  v = .str (name a)

/-- The value is the list of the objects. -/
def Objects (v : Json) (objects : List Members) : Prop :=
  v = .arr (objects.map .obj)

/-- The members describe a frame. -/
structure CardOf (ms : Members) (c : Card) : Prop where
  title : Says Text ms "title" c.title
  description : Says Text ms "description" c.description
  bordered : Says Truth ms "bordered" c.bordered
  size : Says (Named CardSize.name) ms "size" c.size
  extra : Says Text ms "extra" c.extra

/-- The member for a frame: absent without one, and never null. -/
def CardMember (ms : Members) : Option Card → Prop
  | none => Entries.get? ms "card" = none
  | some c => ∃ frame, Entries.get? ms "card" = some (.obj frame) ∧ CardOf frame c

/-- The members describe what fields of all types may say of themselves, but for the name. -/
structure SharedOf (ms : Members) (a : Attributes) : Prop where
  required : Says Truth ms "required" a.required
  label : Says Text ms "label" a.label
  placeholder : Says Text ms "placeholder" a.placeholder
  newline : Says Truth ms "newline" a.newline
  span : Says WholeIn ms "span" a.span
  rules : Says Objects ms "rules" a.rules
  card : CardMember ms a.card

/-- The members describe the attributes of a field of the type. -/
structure AttributesOf (ms : Members) (type : FieldType) (a : Attributes) : Prop where
  name : Entries.get? ms "name" = some (.str a.name)
  name_ne : a.name ≠ ""
  type : Entries.get? ms "type" = some (.str type.name)
  shared : SharedOf ms a

/-- The members describe bounds under two keys. -/
structure BoundsOf (ms : Members) (lowerKey upperKey : String) (b : Bounds) : Prop where
  lower : Says Whole ms lowerKey b.lower
  upper : Says Whole ms upperKey b.upper
  ordered : b.Ordered

/-- The value describes an option. -/
def ChoiceOf (v : Json) (c : Choice) : Prop :=
  ∃ ms, v = .obj ms ∧ Entries.get? ms "label" = some (.str c.label) ∧
    Entries.get? ms "value" = some c.value.toJson

/-- The members describe options, at least one. -/
def OptionsOf (ms : Members) (options : List Choice) : Prop :=
  ∃ vs, Entries.get? ms "options" = some (.arr vs) ∧ options ≠ [] ∧
    List.Forall₂ ChoiceOf vs options

/-- The members describe what the type of a leaf adds. -/
def LeafOf (ms : Members) : Leaf → Prop
  | .string length => BoundsOf ms "minLength" "maxLength" length
  | .longtext length rows =>
    BoundsOf ms "minLength" "maxLength" length ∧ Says WholeIn ms "rows" rows
  | .number min max step =>
    Says Numeric ms "min" min ∧ Says Numeric ms "max" max ∧ Says Numeric ms "step" step ∧
      Number.NotAbove min max
  | .checkbox checked => Says Truth ms "defaultChecked" checked
  | .radio options => OptionsOf ms options
  | .select options mode => OptionsOf ms options ∧ Says (Named SelectMode.name) ms "mode" mode
  | .upload multiple maxCount maxSize accept listStyle =>
    Says Truth ms "multiple" multiple ∧ Says WholeIn ms "maxCount" maxCount ∧
      Says Size ms "maxSize" maxSize ∧ Says Text ms "accept" accept ∧
      Says (Named FileListStyle.name) ms "listType" listStyle
  | .date format showTime => Says Text ms "format" format ∧ Says Truth ms "showTime" showTime
  | .json => True

variable [Host]

/-- The authored default is one that the leaf accepts and, for a number, contains. -/
def LeafDefault (l : Leaf) (v : Json) : Prop :=
  l.Accepts v ∧ l.Contains v

/-- The authored default is a list of allowed length of what the items accept. -/
def ArrayDefault (items : Field) (count : Bounds) (v : Json) : Prop :=
  ∃ vs, v = .arr vs ∧ count.Allows vs.length ∧ ∀ w ∈ vs, items.Accepts w

/-- The authored default is an object of entries that the properties accept. -/
def ObjectDefault (properties : List (String × Field)) (v : Json) : Prop :=
  ∃ es, v = .obj es ∧ ∀ e ∈ es, ∃ f, properties.lookup e.1 = some f ∧ f.Accepts e.2

/-- A description at a level describes a field. Levels are counted from zero at the top, and there
are none below the thirty-second. -/
inductive Describes : Nat → Json → Field → Prop
  | leaf {level ms a l} (bound : level ≤ 32) (attributes : AttributesOf ms l.type a)
      (payload : LeafOf ms l)
      (default : ∀ v ∈ Entries.get? ms "defaultValue", LeafDefault l v) :
      Describes level (.obj ms) (.leaf a l (Entries.get? ms "defaultValue"))
  | array {level ms a node items count} (bound : level ≤ 32)
      (attributes : AttributesOf ms .array a)
      (element : Entries.get? ms "items" = some node) (flat : items.type ≠ .array)
      (inner : Describes (level + 1) node items)
      (length : BoundsOf ms "minItems" "maxItems" count)
      (default : ∀ v ∈ Entries.get? ms "defaultValue", ArrayDefault items count v) :
      Describes level (.obj ms) (.array a items count (Entries.get? ms "defaultValue"))
  | object {level ms a nodes properties} (bound : level ≤ 32)
      (attributes : AttributesOf ms .object a)
      (element : Entries.get? ms "properties" = some (.obj nodes))
      (keys : Entries.keys nodes = Entries.keys properties) (named : "" ∉ Entries.keys properties)
      (inner : ∀ p ∈ nodes.zip properties, Describes (level + 1) p.1.2 p.2.2)
      (default : ∀ v ∈ Entries.get? ms "defaultValue", ObjectDefault properties v) :
      Describes level (.obj ms) (.object a properties (Entries.get? ms "defaultValue"))

/-- The grammar derives a description at a level. -/
def Derivable (level : Nat) (n : Json) : Prop :=
  ∃ f, Describes level n f

end Description

namespace Field

open Description

variable [Host]

/-- The value is one that a description may have as the default of the field. -/
def TakesDefault (v : Json) : Field → Prop
  | .leaf _ l _ => LeafDefault l v
  | .array _ items count _ => ArrayDefault items count v
  | .object _ properties _ => ObjectDefault properties v

/-- What a field takes as a default passes its check. -/
theorem accepts_of_takesDefault {f : Field} {v : Json} (h : f.TakesDefault v) : f.Accepts v := by
  cases f with
  | leaf a l d => exact h.1
  | array a items count d =>
      obtain ⟨vs, rfl, -, hall⟩ := h
      exact ⟨vs, rfl, fun w hw => acceptsInside_of_accepts (hall w hw)⟩
  | object a properties d =>
      obtain ⟨es, rfl, hall⟩ := h
      refine ⟨es, rfl, fun e he => ?_⟩
      obtain ⟨p, hp, haccepts⟩ := hall e he
      exact ⟨p, hp, acceptsInside_of_accepts haccepts⟩

end Field

variable [Host]

theorem Description.Describes.default {level : Nat} {ms : Checked.Members} {f : Field}
    (h : Describes level (.obj ms) f) : f.default = Entries.get? ms "defaultValue" := by
  cases h <;> rfl

theorem Description.Describes.takesDefault {level : Nat} {n : Json} {f : Field}
    (h : Describes level n f) : ∀ v ∈ f.default, f.TakesDefault v := by
  cases h with
  | leaf _ _ _ default => exact default
  | array _ _ _ _ _ _ default => exact default
  | object _ _ _ _ _ _ default => exact default

end Formwork
