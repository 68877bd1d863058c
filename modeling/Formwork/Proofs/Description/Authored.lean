import Formwork.Field.Authored
import Formwork.Proofs.Description.Acceptance

/-!
# The authored form is a description

A field that is described by anything is described by its authored form, at the same
level. Members that were absent or null are left out of it, and numbers that are whole
come back as integers; the grammar reads the same from both.
-/

namespace Formwork

@[simp] theorem get?_memberOf {α : Type} (key other : String) (toJson : α → Json) (o : Option α) :
    Entries.get? (memberOf key toJson o) other = if other = key then o.map toJson else none := by
  cases o <;> simp [memberOf, Entries.get?_cons]

namespace Description

open Checked (Members)

variable {α : Type} {ms : Members}

/-- What members say is said again by a member with a form of the same value. -/
theorem Says.authored {relation : Json → α → Prop} {toJson : α → Json} {other : Members}
    {key : String} {o : Option α} (h : Says relation ms key o)
    (hform : ∀ v a, relation v a → relation (toJson a) a)
    (hget : Entries.get? other key = o.map toJson) : Says relation other key o := by
  cases o with
  | none =>
      intro v hv
      rw [hget] at hv
      cases hv
  | some a =>
      obtain ⟨v, -, hr⟩ := h
      exact ⟨toJson a, hget, hform v a hr⟩

theorem whole_natJson (n : Nat) : Whole (natJson n) n :=
  ⟨.int n, rfl, rfl⟩

theorem BoundsOf.authored {other : Members} {lowerKey upperKey : String} {b : Bounds}
    (h : BoundsOf ms lowerKey upperKey b)
    (hlower : Entries.get? other lowerKey = b.lower.map natJson)
    (hupper : Entries.get? other upperKey = b.upper.map natJson) :
    BoundsOf other lowerKey upperKey b :=
  ⟨h.lower.authored (fun _ n _ => whole_natJson n) hlower,
    h.upper.authored (fun _ n _ => whole_natJson n) hupper, h.ordered⟩

theorem OptionsOf.authored {other : Members} {options : List Choice} (h : OptionsOf ms options)
    (hget : Entries.get? other "options" = some (.arr (options.map Choice.toJson))) :
    OptionsOf other options := by
  obtain ⟨-, -, hne, -⟩ := h
  refine ⟨_, hget, hne, ?_⟩
  rw [List.forall₂_map_left_iff, List.forall₂_same]
  intro c _
  exact ⟨_, rfl, rfl, by simp [Entries.get?_cons]⟩

theorem CardOf.authored {c : Card} (h : CardOf ms c) : ∃ frame, c.toJson = .obj frame ∧
    CardOf frame c := by
  refine ⟨_, rfl, ?_⟩
  constructor
  · exact h.title.authored (fun _ _ _ => rfl) (by simp)
  · exact h.description.authored (fun _ _ _ => rfl) (by simp)
  · exact h.bordered.authored (fun _ _ _ => rfl) (by simp)
  · exact h.size.authored (fun _ _ _ => rfl) (by simp)
  · exact h.extra.authored (fun _ _ _ => rfl) (by simp)

/-- The keys of members that all types of fields share, but for the name and the type. -/
def sharedKeys : List String :=
  ["label", "required", "placeholder", "newline", "span", "rules", "card"]

theorem get?_attributes_members {a : Attributes} {type : FieldType} {key : String}
    (hkey : key ∉ "name" :: "type" :: sharedKeys) : Entries.get? (a.members type) key = none := by
  simp only [sharedKeys, List.mem_cons, not_or] at hkey
  simp [Attributes.members, Entries.get?_cons, hkey]

theorem get?_attributes_members_append {a : Attributes} {type : FieldType} {more : Members}
    {key : String} (hkey : key ∉ "name" :: "type" :: sharedKeys) :
    Entries.get? (a.members type ++ more) key = Entries.get? more key := by
  simp [get?_attributes_members hkey]

/-- The attributes of a field are described by their members with more members after them, if
these are for none of the attributes. -/
theorem AttributesOf.authored {type : FieldType} {a : Attributes} (h : AttributesOf ms type a)
    {more : Members} (hmore : ∀ key ∈ sharedKeys, Entries.get? more key = none) :
    AttributesOf (a.members type ++ more) type a := by
  simp only [sharedKeys, List.forall_mem_cons] at hmore
  obtain ⟨hl, hr, hp, hn, hs, hu, hc, -⟩ := hmore
  refine ⟨by simp [Attributes.members, Entries.get?_cons], h.name_ne,
    by simp [Attributes.members, Entries.get?_cons], ?_⟩
  have shared := h.shared
  constructor
  · exact shared.required.authored (fun _ _ _ => rfl)
      (by simp [Attributes.members, Entries.get?_cons, hr])
  · exact shared.label.authored (fun _ _ _ => rfl)
      (by simp [Attributes.members, Entries.get?_cons, hl])
  · exact shared.placeholder.authored (fun _ _ _ => rfl)
      (by simp [Attributes.members, Entries.get?_cons, hp])
  · exact shared.newline.authored (fun _ _ _ => rfl)
      (by simp [Attributes.members, Entries.get?_cons, hn])
  · exact shared.span.authored (fun _ n _ => whole_natJson n.val)
      (by simp [Attributes.members, Entries.get?_cons, hs])
  · exact shared.rules.authored (fun _ _ _ => rfl)
      (by simp [Attributes.members, Entries.get?_cons, hu])
  · have hcard : Entries.get? (a.members type ++ more) "card" = a.card.map Card.toJson := by
      simp [Attributes.members, Entries.get?_cons, hc]
    have described := shared.card
    cases hk : a.card with
    | none => simpa [CardMember, hk] using hcard
    | some c =>
        rw [hk] at described hcard
        obtain ⟨frame, -, hf⟩ := described
        obtain ⟨authored, hj, ha⟩ := hf.authored
        exact ⟨authored, by rw [hcard, ← hj]; rfl, ha⟩

theorem get?_leaf_members_of_mem {l : Leaf} {key : String} (hkey : key ∈ sharedKeys) :
    Entries.get? l.members key = none := by
  simp only [sharedKeys, List.mem_cons, List.not_mem_nil, or_false] at hkey
  rcases hkey with rfl | rfl | rfl | rfl | rfl | rfl | rfl <;>
    cases l <;> simp [Leaf.members, Bounds.members, Entries.get?_cons]

theorem get?_leaf_members_default {l : Leaf} :
    Entries.get? l.members "defaultValue" = none := by
  cases l <;> simp [Leaf.members, Bounds.members, Entries.get?_cons]

/-- What the type of a leaf adds is described by the members for it among others that are for
something else. -/
theorem LeafOf.authored {l : Leaf} (h : LeafOf ms l) {other : Members}
    (hother : ∀ key, key ∉ "defaultValue" :: "name" :: "type" :: sharedKeys →
      Entries.get? other key = Entries.get? l.members key) : LeafOf other l := by
  have hget : ∀ key v, key ∉ "defaultValue" :: "name" :: "type" :: sharedKeys →
      Entries.get? l.members key = v → Entries.get? other key = v := by
    intro key v hkey hv
    rw [hother key hkey, hv]
  cases l with
  | string length =>
      exact BoundsOf.authored h (hget _ _ (by decide) (by simp [Leaf.members, Bounds.members]))
        (hget _ _ (by decide) (by simp [Leaf.members, Bounds.members]))
  | longtext length rows =>
      refine ⟨h.1.authored (hget _ _ (by decide) (by simp [Leaf.members, Bounds.members]))
        (hget _ _ (by decide) (by simp [Leaf.members, Bounds.members])), ?_⟩
      exact h.2.authored (fun _ n _ => whole_natJson n.val)
        (hget _ _ (by decide) (by simp [Leaf.members, Bounds.members]))
  | number min max step =>
      obtain ⟨hmin, hmax, hstep, hrange⟩ := h
      exact ⟨hmin.authored (fun _ _ _ => rfl) (hget _ _ (by decide) (by simp [Leaf.members])),
        hmax.authored (fun _ _ _ => rfl) (hget _ _ (by decide) (by simp [Leaf.members])),
        hstep.authored (fun _ _ _ => rfl) (hget _ _ (by decide) (by simp [Leaf.members])), hrange⟩
  | checkbox checked =>
      exact Says.authored h (fun _ _ _ => rfl) (hget _ _ (by decide) (by simp [Leaf.members]))
  | radio options =>
      exact OptionsOf.authored h
        (hget _ _ (by decide) (by simp [Leaf.members, Entries.get?_cons]))
  | select options mode =>
      refine ⟨h.1.authored (hget _ _ (by decide) (by simp [Leaf.members, Entries.get?_cons])), ?_⟩
      exact h.2.authored (fun _ _ _ => rfl)
        (hget _ _ (by decide) (by simp [Leaf.members, Entries.get?_cons]))
  | upload multiple maxCount maxSize accept style =>
      obtain ⟨hm, hc, hs, ha, hy⟩ := h
      exact ⟨hm.authored (fun _ _ _ => rfl) (hget _ _ (by decide) (by simp [Leaf.members])),
        hc.authored (fun _ n _ => whole_natJson n.val)
          (hget _ _ (by decide) (by simp [Leaf.members])),
        hs.authored (fun _ _ hsize => ⟨rfl, hsize.2⟩)
          (hget _ _ (by decide) (by simp [Leaf.members])),
        ha.authored (fun _ _ _ => rfl) (hget _ _ (by decide) (by simp [Leaf.members])),
        hy.authored (fun _ _ _ => rfl) (hget _ _ (by decide) (by simp [Leaf.members]))⟩
  | date format showTime =>
      exact ⟨h.1.authored (fun _ _ _ => rfl) (hget _ _ (by decide) (by simp [Leaf.members])),
        h.2.authored (fun _ _ _ => rfl) (hget _ _ (by decide) (by simp [Leaf.members]))⟩
  | json => trivial

theorem keys_propertiesToJson (properties : List (String × Field)) :
    Entries.keys (Field.propertiesToJson properties) = Entries.keys properties := by
  induction properties with
  | nil => simp [Field.propertiesToJson, Entries.keys]
  | cons p rest ih =>
      simp only [Entries.keys] at ih
      simp [Field.propertiesToJson, Entries.keys, ih]

/-- Each property stands beside its own authored form. -/
theorem mem_zip_propertiesToJson {properties : List (String × Field)}
    {p : (String × Json) × (String × Field)}
    (hp : p ∈ (Field.propertiesToJson properties).zip properties) :
    p.2 ∈ properties ∧ p.1.2 = p.2.2.toJson := by
  induction properties with
  | nil => simp at hp
  | cons q rest ih =>
      obtain ⟨key, f⟩ := q
      rw [Field.propertiesToJson, List.zip_cons_cons, List.mem_cons] at hp
      rcases hp with rfl | hp
      · exact ⟨List.mem_cons_self, rfl⟩
      · obtain ⟨hmem, hform⟩ := ih hp
        exact ⟨List.mem_cons_of_mem _ hmem, hform⟩

variable [Host]

/-- The case of a leaf: the members of its type and its default value follow the attributes. -/
theorem Describes.authored_leaf {level : Nat} {a : Attributes} {l : Leaf}
    (bound : level ≤ 32) (attributes : AttributesOf ms l.type a) (payload : LeafOf ms l)
    (default : ∀ v ∈ Entries.get? ms "defaultValue", LeafDefault l v) :
    Describes level (Field.leaf a l (Entries.get? ms "defaultValue")).toJson
      (.leaf a l (Entries.get? ms "defaultValue")) := by
  generalize Entries.get? ms "defaultValue" = d at default
  let more := l.members ++ memberOf "defaultValue" id d
  have hd : Entries.get? (a.members l.type ++ more) "defaultValue" = d := by
    rw [get?_attributes_members_append (by decide)]
    simp [more, get?_leaf_members_default]
  have authored : Describes level (.obj (a.members l.type ++ more))
      (.leaf a l (Entries.get? (a.members l.type ++ more) "defaultValue")) := by
    refine .leaf bound (attributes.authored ?_) (payload.authored ?_) (by rwa [hd])
    · intro key hkey
      have hne : key ≠ "defaultValue" := by
        rintro rfl
        exact absurd hkey (by decide)
      simp [more, get?_leaf_members_of_mem hkey, hne]
    · intro key hkey
      rw [List.mem_cons, not_or] at hkey
      rw [get?_attributes_members_append hkey.2]
      simp [more, hkey.1]
  rwa [hd, ← List.append_assoc] at authored

/-- The case of an array: its items, which are described by their authored form, its length and
its default value follow the attributes. -/
theorem Describes.authored_array {level : Nat} {a : Attributes} {items : Field} {count : Bounds}
    (bound : level ≤ 32) (attributes : AttributesOf ms .array a)
    (flat : items.type ≠ .array) (length : BoundsOf ms "minItems" "maxItems" count)
    (default : ∀ v ∈ Entries.get? ms "defaultValue", ArrayDefault items count v)
    (inner : Describes (level + 1) items.toJson items) :
    Describes level (Field.array a items count (Entries.get? ms "defaultValue")).toJson
      (.array a items count (Entries.get? ms "defaultValue")) := by
  generalize Entries.get? ms "defaultValue" = d at default
  let more := ("items", items.toJson) :: count.members "minItems" "maxItems"
    ++ memberOf "defaultValue" id d
  have hd : Entries.get? (a.members .array ++ more) "defaultValue" = d := by
    rw [get?_attributes_members_append (by decide)]
    simp [more, Entries.get?_cons, Bounds.members]
  have authored : Describes level (.obj (a.members .array ++ more))
      (.array a items count (Entries.get? (a.members .array ++ more) "defaultValue")) := by
    refine .array bound (attributes.authored ?_) ?_ flat inner (length.authored ?_ ?_)
      (by rwa [hd])
    · simp [more, sharedKeys, Entries.get?_cons, Bounds.members]
    · rw [get?_attributes_members_append (by decide)]
      simp [more, Entries.get?_cons]
    · rw [get?_attributes_members_append (by decide)]
      simp [more, Entries.get?_cons, Bounds.members]
    · rw [get?_attributes_members_append (by decide)]
      simp [more, Entries.get?_cons, Bounds.members]
  rwa [hd, ← List.append_assoc] at authored

/-- The case of an object: its properties, each described by its authored form, and its default
value follow the attributes. -/
theorem Describes.authored_object {level : Nat} {a : Attributes}
    {properties : List (String × Field)} (bound : level ≤ 32)
    (attributes : AttributesOf ms .object a) (named : "" ∉ Entries.keys properties)
    (default : ∀ v ∈ Entries.get? ms "defaultValue", ObjectDefault properties v)
    (inner : ∀ p ∈ properties, Describes (level + 1) p.2.toJson p.2) :
    Describes level (Field.object a properties (Entries.get? ms "defaultValue")).toJson
      (.object a properties (Entries.get? ms "defaultValue")) := by
  generalize Entries.get? ms "defaultValue" = d at default
  let more := [("properties", Json.obj (Field.propertiesToJson properties))]
    ++ memberOf "defaultValue" id d
  have hd : Entries.get? (a.members .object ++ more) "defaultValue" = d := by
    rw [get?_attributes_members_append (by decide)]
    simp [more, Entries.get?_cons]
  have authored : Describes level (.obj (a.members .object ++ more))
      (.object a properties (Entries.get? (a.members .object ++ more) "defaultValue")) := by
    refine .object bound (attributes.authored ?_) ?_ (keys_propertiesToJson properties) named
      ?_ (by rwa [hd])
    · simp [more, sharedKeys, Entries.get?_cons]
    · rw [get?_attributes_members_append (by decide)]
      simp [more, Entries.get?_cons]
    · intro p hp
      obtain ⟨hmem, hform⟩ := mem_zip_propertiesToJson hp
      rw [hform]
      exact inner p.2 hmem
  rwa [hd, ← List.append_assoc] at authored

/-- The authored form of a field that is described at a level describes it at this level. -/
theorem Describes.authored {level : Nat} {n : Json} {f : Field} (h : Describes level n f) :
    Describes level f.toJson f := by
  induction h with
  | leaf bound attributes payload default =>
      exact .authored_leaf bound attributes payload default
  | array bound attributes _ flat _ length default ih =>
      exact .authored_array bound attributes flat length default ih
  | object bound attributes _ keys named _ default ih =>
      have inner := (Field.forall_zip_iff keys fun f => Describes _ f.toJson f).mp ih
      exact .authored_object bound attributes named default inner

end Description

end Formwork
