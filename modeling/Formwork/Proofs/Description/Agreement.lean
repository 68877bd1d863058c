import Formwork.Proofs.Description.Alike
import Formwork.Proofs.Description.Document

/-!
# Values that say the same

Two values that stand for the same part of a document say the same if they describe the same, or
fields that are alike. Two objects say the same as soon as those of their members do that are read:
no part looks at the order of its members or at any other member.
-/

namespace Formwork

namespace Description

open Checked (Members)
open Formwork.Field (Alike PropertiesAlike RulesReordered)

/-- The value is an object that describes a frame. -/
def FrameOf (v : Json) (c : Card) : Prop :=
  ∃ ms, v = .obj ms ∧ CardOf ms c

/-- The value is a list that describes options, at least one. -/
def ChoicesOf (v : Json) (options : List Choice) : Prop :=
  ∃ vs, v = .arr vs ∧ options ≠ [] ∧ List.Forall₂ ChoiceOf vs options

/-- The value is an object that describes properties at a level. -/
def PropertiesOf [Host] (level : Nat) (v : Json) (properties : List (String × Field)) : Prop :=
  ∃ nodes, v = .obj nodes ∧ Entries.keys nodes = Entries.keys properties ∧
    "" ∉ Entries.keys properties ∧ ∀ p ∈ nodes.zip properties, Describes level p.1.2 p.2.2

/-- The value is a list that describes fields of different names which can be copied. -/
def FieldsOf [Host] (v : Json) (fields : List Field) : Prop :=
  ∃ nodes, v = .arr nodes ∧ List.Forall₂ (fun n f => Describes 0 n f ∧ f.Copyable 0) nodes fields ∧
    (fields.map Field.name).Nodup

/-- What the first value describes at a level has something alike that the second one describes. -/
def Redescribed {α : Type} (describes : Nat → Json → α → Prop) (alike : α → α → Prop)
    (v v' : Json) : Prop :=
  ∀ level a, describes level v a → ∃ a', describes level v' a' ∧ alike a a'

/-- The values say the same as what they stand for. -/
def Part.Same [Host] : Part → Json → Json → Prop
  | .value, v, v' => Reordered v v'
  | .card, v, v' => ∀ c, FrameOf v c ↔ FrameOf v' c
  | .layout, v, v' => ∀ l, LayoutValue v l ↔ LayoutValue v' l
  | .option, v, v' => ∀ c, ChoiceOf v c ↔ ChoiceOf v' c
  | .options, v, v' => ∀ options, ChoicesOf v options ↔ ChoicesOf v' options
  | .field, v, v' => Redescribed Describes Alike v v' ∧ Redescribed Describes Alike v' v
  | .properties, v, v' => Redescribed PropertiesOf PropertiesAlike v v' ∧
      Redescribed PropertiesOf PropertiesAlike v' v
  | .fields, v, v' => (∃ fields, FieldsOf v fields) ↔ ∃ fields, FieldsOf v' fields
  | .document, v, v' => (∃ form, DocumentOf v form) ↔ ∃ form, DocumentOf v' form

theorem Part.Same.symm [Host] {part : Part} {v v' : Json} (h : part.Same v v') :
    part.Same v' v := by
  cases part with
  | value => exact Reordered.symm h
  | card | layout | option | options => exact fun a => (h a).symm
  | field | properties => exact And.symm h
  | fields | document => exact Iff.symm h

theorem rel_symm {R S : Json → Json → Prop} (h : ∀ v v', R v v' → S v' v) {o o' : Option Json}
    (ho : Option.Rel R o o') : Option.Rel S o' o := by
  cases ho with
  | some hv => exact .some (h _ _ hv)
  | none => exact .none

/-- The members that are read are the same in both objects, and what they stand for is the same. -/
def Agree [Host] (part : Part) (ms ms' : Members) : Prop :=
  ∀ key, part.member? ms' key = part.member? ms key ∧
    ∀ inside, part.member? ms key = some inside →
      Option.Rel inside.Same (Entries.get? ms key) (Entries.get? ms' key)

variable {ms ms' : Members}

theorem Agree.symm [Host] {part : Part} (h : Agree part ms ms') : Agree part ms' ms := by
  intro key
  obtain ⟨hread, hsame⟩ := h key
  refine ⟨hread.symm, fun inside hinside => ?_⟩
  exact rel_symm (fun _ _ hv => hv.symm) (hsame inside (hread.symm.trans hinside))

section Members

/-- A member that is there has one in the other object that says the same. -/
theorem get?_of_rel {R : Json → Json → Prop} {key : String} {v : Json}
    (h : Option.Rel R (Entries.get? ms key) (Entries.get? ms' key))
    (hv : Entries.get? ms key = some v) : ∃ v', Entries.get? ms' key = some v' ∧ R v v' := by
  rw [hv] at h
  generalize Entries.get? ms' key = o at h ⊢
  cases h with
  | some hvalue => exact ⟨_, rfl, hvalue⟩

theorem get?_eq_none_of_rel {R : Json → Json → Prop} {key : String}
    (h : Option.Rel R (Entries.get? ms key) (Entries.get? ms' key))
    (hv : Entries.get? ms key = none) : Entries.get? ms' key = none := by
  rw [hv] at h
  generalize Entries.get? ms' key = o at h ⊢
  cases h
  rfl

variable {α : Type} {relation : Json → α → Prop} {key : String} {o : Option α}

theorem Says.absent (h : Option.Rel Reordered (Entries.get? ms key) (Entries.get? ms' key))
    (hmember : Says relation ms key none) : Says relation ms' key none := by
  intro v' hv'
  obtain ⟨v, hv, hvalue⟩ := get?_of_rel (rel_symm (fun _ _ hv => hv.symm) h) hv'
  rw [hmember v hv] at hvalue
  exact hvalue.symm.eq_of_scalar trivial

theorem Says.reordered (hrelation : ∀ v v' a, Reordered v v' → relation v a → relation v' a)
    (h : Option.Rel Reordered (Entries.get? ms key) (Entries.get? ms' key))
    (hmember : Says relation ms key o) : Says relation ms' key o := by
  cases o with
  | none => exact hmember.absent h
  | some a =>
      obtain ⟨v, hv, hva⟩ := hmember
      obtain ⟨v', hv', hvalue⟩ := get?_of_rel h hv
      exact ⟨v', hv', hrelation v v' a hvalue hva⟩

/-- What only scalars say does not depend on any order. -/
theorem Says.scalar (hscalar : ∀ v a, relation v a → v.IsScalar)
    (h : Option.Rel Reordered (Entries.get? ms key) (Entries.get? ms' key))
    (hmember : Says relation ms key o) : Says relation ms' key o := by
  refine hmember.reordered (fun v v' a hv ha => ?_) h
  rwa [hv.eq_of_scalar (hscalar v a ha)]

theorem isScalar_text (v : Json) (s : String) (h : Text v s) : v.IsScalar := by
  rw [h]
  trivial

theorem isScalar_truth (v : Json) (b : Bool) (h : Truth v b) : v.IsScalar := by
  rw [h]
  trivial

theorem isScalar_numeric (v : Json) (x : Number) (h : Numeric v x) : v.IsScalar := by
  rw [h]
  trivial

theorem isScalar_size (v : Json) (x : Number) (h : Size v x) : v.IsScalar := by
  rw [h.1]
  trivial

theorem isScalar_whole (v : Json) (n : Nat) (h : Whole v n) : v.IsScalar := by
  obtain ⟨x, rfl, -⟩ := h
  trivial

theorem isScalar_wholeIn {range : Nat → Prop} (v : Json) (n : { n // range n })
    (h : WholeIn v n) : v.IsScalar :=
  isScalar_whole v n.val h

theorem isScalar_named {name : α → String} (v : Json) (a : α) (h : Named name v a) :
    v.IsScalar := by
  rw [h]
  trivial

end Members

section Records

theorem Agree.cardOf [Host] {c : Card} (h : Agree .card ms ms') (hc : CardOf ms c) :
    CardOf ms' c where
  title := hc.title.scalar isScalar_text ((h "title").2 .value rfl)
  description := hc.description.scalar isScalar_text ((h "description").2 .value rfl)
  bordered := hc.bordered.scalar isScalar_truth ((h "bordered").2 .value rfl)
  size := hc.size.scalar isScalar_named ((h "size").2 .value rfl)
  extra := hc.extra.scalar isScalar_text ((h "extra").2 .value rfl)

theorem gutter_of_reordered (v v' : Json) (g : Nat × Nat) (h : Reordered v v') (hg : Gutter v g) :
    Gutter v' g := by
  obtain ⟨a, b, rfl, ha, hb⟩ := hg
  obtain ⟨vs', rfl, hall⟩ := h.arr
  obtain ⟨a', _, haa, hrest, rfl⟩ := List.forall₂_cons_left_iff.mp hall
  obtain ⟨b', _, hbb, hnil, rfl⟩ := List.forall₂_cons_left_iff.mp hrest
  rw [List.forall₂_nil_left_iff.mp hnil, haa.eq_of_scalar (isScalar_whole a _ ha),
    hbb.eq_of_scalar (isScalar_whole b _ hb)]
  exact ⟨a, b, rfl, ha, hb⟩

theorem Agree.layoutOf [Host] {l : Layout} (h : Agree .layout ms ms') (hl : LayoutOf ms l) :
    LayoutOf ms' l where
  columns := hl.columns.scalar isScalar_wholeIn ((h "columns").2 .value rfl)
  mobileColumns := hl.mobileColumns.scalar isScalar_wholeIn ((h "mobileColumns").2 .value rfl)
  gutter := hl.gutter.reordered gutter_of_reordered ((h "gutter").2 .value rfl)

theorem Agree.choiceOf [Host] {c : Choice} (h : Agree .option ms ms') (hc : ChoiceOf (.obj ms) c) :
    ChoiceOf (.obj ms') c := by
  obtain ⟨_, hms, hlabel, hvalue⟩ := hc
  cases hms
  obtain ⟨label, hlabel', hl⟩ := get?_of_rel ((h "label").2 .value rfl) hlabel
  obtain ⟨value, hvalue', hv⟩ := get?_of_rel ((h "value").2 .value rfl) hvalue
  have hscalar : c.value.toJson.IsScalar := by
    cases c.value <;> trivial
  rw [Reordered.eq_of_scalar hl trivial] at hlabel'
  rw [Reordered.eq_of_scalar hv hscalar] at hvalue'
  exact ⟨ms', rfl, hlabel', hvalue'⟩

/-- A list of objects in another order is one of objects in another order. -/
theorem objects_of_reordered {rules : List Members} {vs : List Json}
    (h : List.Forall₂ Reordered (rules.map .obj) vs) :
    ∃ others, vs = others.map .obj ∧
      List.Forall₂ (fun r r' => Reordered (.obj r) (.obj r')) rules others := by
  rw [List.forall₂_map_left_iff] at h
  induction h with
  | nil => exact ⟨[], rfl, .nil⟩
  | cons hrule _ ih =>
      obtain ⟨others, rfl, hall⟩ := ih
      obtain ⟨other, rfl, -⟩ := hrule.obj
      exact ⟨other :: others, rfl, .cons hrule hall⟩

theorem rules_of_reordered {rules : Option (List Members)}
    (h : Option.Rel Reordered (Entries.get? ms "rules") (Entries.get? ms' "rules"))
    (hrules : Says Objects ms "rules" rules) :
    ∃ others, Says Objects ms' "rules" others ∧ RulesReordered rules others := by
  cases rules with
  | none => exact ⟨none, hrules.absent h, .none⟩
  | some rules =>
      obtain ⟨v, hv, rfl⟩ := hrules
      obtain ⟨v', hv', hvalue⟩ := get?_of_rel h hv
      obtain ⟨vs', rfl, hall⟩ := hvalue.arr
      obtain ⟨others, rfl, hothers⟩ := objects_of_reordered hall
      exact ⟨some others, ⟨_, hv', rfl⟩, .some hothers⟩

theorem cardMember_of_rel [Host] {c : Option Card} (h : Option.Rel (Part.Same .card)
    (Entries.get? ms "card") (Entries.get? ms' "card")) (hc : CardMember ms c) :
    CardMember ms' c := by
  cases c with
  | none => exact get?_eq_none_of_rel h hc
  | some c =>
      obtain ⟨frame, hframe, hof⟩ := hc
      obtain ⟨v', hv', hsame⟩ := get?_of_rel h hframe
      obtain ⟨frame', rfl, hof'⟩ := (hsame c).mp ⟨frame, rfl, hof⟩
      exact ⟨frame', hv', hof'⟩

end Records

section Fields

variable [Host] {type : FieldType} {a : Attributes}

/-- Fields whose members agree have the same attributes, but for the order in the rules. -/
theorem Agree.attributesOf (h : Agree .field ms ms') (ha : AttributesOf ms type a) :
    ∃ rules, AttributesOf ms' type { a with rules := rules } ∧ RulesReordered a.rules rules := by
  obtain ⟨name, hname, hn⟩ := get?_of_rel ((h "name").2 .value rfl) ha.name
  obtain ⟨ty, htype, ht⟩ := get?_of_rel ((h "type").2 .value rfl) ha.type
  obtain ⟨rules, hrules, hothers⟩ := rules_of_reordered ((h "rules").2 .value rfl) ha.shared.rules
  rw [Reordered.eq_of_scalar hn trivial] at hname
  rw [Reordered.eq_of_scalar ht trivial] at htype
  refine ⟨rules, ⟨hname, ha.name_ne, htype, ?_⟩, hothers⟩
  exact {
    required := ha.shared.required.scalar isScalar_truth ((h "required").2 .value rfl)
    label := ha.shared.label.scalar isScalar_text ((h "label").2 .value rfl)
    placeholder := ha.shared.placeholder.scalar isScalar_text ((h "placeholder").2 .value rfl)
    newline := ha.shared.newline.scalar isScalar_truth ((h "newline").2 .value rfl)
    span := ha.shared.span.scalar isScalar_wholeIn ((h "span").2 .value rfl)
    rules := hrules
    card := cardMember_of_rel ((h "card").2 .card rfl) ha.shared.card }

/-- A member that is read of fields of the type agrees. -/
theorem Agree.payload (h : Agree .field ms ms') (ha : AttributesOf ms type a) {key : String}
    {inside : Part} (hkey : (attributeKeys ++ payloadKeys type).lookup key = some inside) :
    Option.Rel inside.Same (Entries.get? ms key) (Entries.get? ms' key) := by
  apply (h key).2 inside
  rw [← hkey, Part.member?, Field.typeOf?_eq_some_iff.mpr ha.type]
  rfl

theorem Agree.value (h : Agree .field ms ms') (ha : AttributesOf ms type a) {key : String}
    (hkey : (attributeKeys ++ payloadKeys type).lookup key = some .value) :
    Option.Rel Reordered (Entries.get? ms key) (Entries.get? ms' key) :=
  h.payload ha hkey

omit [Host] in
theorem boundsOf_of_rel {lowerKey upperKey : String} {b : Bounds}
    (hlower : Option.Rel Reordered (Entries.get? ms lowerKey) (Entries.get? ms' lowerKey))
    (hupper : Option.Rel Reordered (Entries.get? ms upperKey) (Entries.get? ms' upperKey))
    (hb : BoundsOf ms lowerKey upperKey b) : BoundsOf ms' lowerKey upperKey b where
  lower := hb.lower.scalar isScalar_whole hlower
  upper := hb.upper.scalar isScalar_whole hupper
  ordered := hb.ordered

theorem optionsOf_of_rel {options : List Choice} (h : Option.Rel (Part.Same .options)
    (Entries.get? ms "options") (Entries.get? ms' "options")) (ho : OptionsOf ms options) :
    OptionsOf ms' options := by
  obtain ⟨vs, hvs, hne, hall⟩ := ho
  obtain ⟨v', hv', hsame⟩ := get?_of_rel h hvs
  obtain ⟨vs', rfl, hof⟩ := (hsame options).mp ⟨vs, rfl, hne, hall⟩
  exact ⟨vs', hv', hof⟩

theorem Agree.leafOf {l : Leaf} (h : Agree .field ms ms') (ha : AttributesOf ms l.type a)
    (hl : LeafOf ms l) : LeafOf ms' l := by
  cases l with
  | string length => exact boundsOf_of_rel (h.value ha rfl) (h.value ha rfl) hl
  | longtext length rows =>
      exact ⟨boundsOf_of_rel (h.value ha rfl) (h.value ha rfl) hl.1,
        hl.2.scalar isScalar_wholeIn (h.value ha rfl)⟩
  | number min max step =>
      obtain ⟨hmin, hmax, hstep, hordered⟩ := hl
      exact ⟨hmin.scalar isScalar_numeric (h.value ha rfl),
        hmax.scalar isScalar_numeric (h.value ha rfl),
        hstep.scalar isScalar_numeric (h.value ha rfl), hordered⟩
  | checkbox checked => exact Says.scalar isScalar_truth (h.value ha rfl) hl
  | radio options => exact optionsOf_of_rel (h.payload ha rfl) hl
  | select options mode =>
      exact ⟨optionsOf_of_rel (h.payload ha rfl) hl.1,
        hl.2.scalar isScalar_named (h.value ha rfl)⟩
  | upload multiple maxCount maxSize accept listStyle =>
      obtain ⟨hmultiple, hcount, hsize, haccept, hstyle⟩ := hl
      exact ⟨hmultiple.scalar isScalar_truth (h.value ha rfl),
        hcount.scalar isScalar_wholeIn (h.value ha rfl),
        hsize.scalar isScalar_size (h.value ha rfl),
        haccept.scalar isScalar_text (h.value ha rfl),
        hstyle.scalar isScalar_named (h.value ha rfl)⟩
  | date format showTime =>
      exact ⟨hl.1.scalar isScalar_text (h.value ha rfl),
        hl.2.scalar isScalar_truth (h.value ha rfl)⟩
  | json => trivial

omit [Host] in
/-- What holds of a default holds of the default in another order. -/
theorem default_of_rel {P Q : Json → Prop} {d d' : Option Json} (h : Option.Rel Reordered d d')
    (hPQ : ∀ v v', Reordered v v' → P v → Q v') (hd : ∀ v ∈ d, P v) : ∀ v ∈ d', Q v := by
  cases h with
  | some hv =>
      rintro _ ⟨⟩
      exact hPQ _ _ hv (hd _ rfl)
  | none => nofun

/-- Descriptions whose members agree describe fields that are alike. -/
theorem Agree.describes {level : Nat} {f : Field} (h : Agree .field ms ms')
    (hf : Describes level (.obj ms) f) : ∃ f', Describes level (.obj ms') f' ∧ f.Alike f' := by
  have hdefault : Option.Rel Reordered (Entries.get? ms "defaultValue")
      (Entries.get? ms' "defaultValue") := (h "defaultValue").2 .value rfl
  cases hf with
  | leaf bound attributes payload default =>
      obtain ⟨rules, attributes', hrules⟩ := h.attributesOf attributes
      refine ⟨_, .leaf bound attributes' (h.leafOf attributes payload) ?_, ?_⟩
      · exact default_of_rel hdefault (fun _ _ => Reordered.leafDefault) default
      · exact Field.alike_leaf rfl (Field.isStorable_eq · hrules hdefault)
  | array bound attributes element flat inner length default =>
      obtain ⟨rules, attributes', hrules⟩ := h.attributesOf attributes
      obtain ⟨node', element', hsame⟩ := get?_of_rel (h.payload attributes rfl) element
      obtain ⟨items', inner', hitems⟩ := hsame.1 _ _ inner
      refine ⟨_, .array bound attributes' element' (hitems.type ▸ flat) inner'
        (boundsOf_of_rel (h.value attributes rfl) (h.value attributes rfl) length) ?_, ?_⟩
      · exact default_of_rel hdefault (fun _ _ => Reordered.arrayDefault hitems) default
      · exact Field.alike_array rfl (Field.isStorable_eq · hrules hdefault) hitems
  | object bound attributes element keys named inner default =>
      obtain ⟨rules, attributes', hrules⟩ := h.attributesOf attributes
      obtain ⟨v', element', hsame⟩ := get?_of_rel (h.payload attributes rfl) element
      obtain ⟨others, ⟨nodes', rfl, keys', named', inner'⟩, halike⟩ :=
        hsame.1 _ _ ⟨_, rfl, keys, named, inner⟩
      refine ⟨_, .object bound attributes' element' keys' named' inner' ?_, ?_⟩
      · exact default_of_rel hdefault (fun _ _ => Reordered.objectDefault halike) default
      · exact Field.alike_object rfl (Field.isStorable_eq · hrules hdefault) halike

end Fields

end Description

end Formwork
