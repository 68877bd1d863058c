import Formwork.Verification.Field

/-!
# Nested fields

A field holds the fields that lie in it at any depth. They are listed with each field
before those that it encloses, and what holds of a field together with all that lies
in it is proved by induction over what it encloses directly.
-/

namespace Formwork.Field

/-- What follows for a field from what it encloses directly holds for all fields. -/
@[induction_eliminator]
theorem induct {motive : Field → Prop}
    (leaf : ∀ a l d, motive (.leaf a l d))
    (array : ∀ a items count d, motive items → motive (.array a items count d))
    (object : ∀ a properties d, (∀ p ∈ properties, motive p.2) → motive (.object a properties d)) :
    ∀ f, motive f
  | .leaf a l d => leaf a l d
  | .array a items count d => array a items count d (induct leaf array object items)
  | .object a properties d => by
      refine object a properties d fun p hp => ?_
      exact induct leaf array object p.2
termination_by f => sizeOf f
decreasing_by
  · simp; omega
  · have := List.sizeOf_lt_of_mem hp
    cases p
    simp at this ⊢
    omega

mutual

/-- The field and all that lie in it, each before those that it encloses. -/
def nested : Field → List Field
  | .leaf a l d => [.leaf a l d]
  | .array a items count d => .array a items count d :: items.nested
  | .object a properties d => .object a properties d :: nestedIn properties

/-- The fields that lie in properties, the properties themselves included. -/
def nestedIn : List (String × Field) → List Field
  | [] => []
  | (_, f) :: rest => f.nested ++ nestedIn rest

end

theorem mem_nestedIn {g : Field} {properties : List (String × Field)} :
    g ∈ nestedIn properties ↔ ∃ p ∈ properties, g ∈ p.2.nested := by
  induction properties with
  | nil => simp [nestedIn]
  | cons p rest ih => simp [nestedIn, ih]

theorem self_mem_nested (f : Field) : f ∈ f.nested := by
  cases f <;> simp [nested]

theorem nestedIn_eq_flatMap (properties : List (String × Field)) :
    nestedIn properties = properties.flatMap fun e => e.2.nested := by
  induction properties with
  | nil => rfl
  | cons e rest ih => rw [nestedIn, ih, List.flatMap_cons]

theorem nested_eq_cons (f : Field) : f.nested = f :: f.children.flatMap fun e => e.2.nested := by
  cases f with
  | leaf a l d => rfl
  | array a items count d => simp [nested, children]
  | object a properties d => rw [nested, nestedIn_eq_flatMap, children]

/-- What follows for a field from the fields one level below holds for all fields. -/
theorem induct_children {motive : Field → Prop}
    (step : ∀ f, (∀ e ∈ f.children, motive e.2) → motive f) (f : Field) : motive f := by
  induction f with
  | leaf a l d => exact step _ fun e he => by cases he
  | array a items count d ih => exact step _ fun e he => by rwa [List.mem_singleton.mp he]
  | object a properties d ih => exact step _ ih

variable [Host]

/-- The host has room for copies of the rules and the default of a field at a level. -/
def isStorable (level : Nat) (f : Field) : Bool :=
  (f.attributes.rules.getD []).all (fun rule => (Json.obj rule).height ≤ Host.ruleRoom level)
    && (f.default.map Json.height).getD 0 ≤ Host.defaultRoom level

/-- A field is kept as it is if there is room for the copies, and not at all else. -/
theorem copied?_eq (level : Nat) (f : Field) :
    f.copied? level = if f.isStorable level then some f else none := by
  have hrules : f.attributes.rules.mapM (·.mapM (Json.copyObject? (Host.ruleRoom level))) =
      if (f.attributes.rules.getD []).all fun rule =>
        (Json.obj rule).height ≤ Host.ruleRoom level
      then some f.attributes.rules else none := by
    cases f.attributes.rules with
    | none => rfl
    | some rules =>
      simp only [Option.mapM_some, Json.mapM_copyObject?, Option.getD_some]
      split <;> rfl
  have hdefault : f.default.mapM (Json.copy? (Host.defaultRoom level)) =
      if (f.default.map Json.height).getD 0 ≤ Host.defaultRoom level
      then some f.default else none := by
    cases f.default with
    | none => simp
    | some v =>
      simp only [Option.mapM_some, Json.copy?_eq, Option.map_some, Option.getD_some]
      split <;> rfl
  simp only [copied?, hrules, hdefault, isStorable, Bool.and_eq_true, decide_eq_true_iff]
  split
  case isTrue hr =>
    split
    case isTrue hd =>
      rw [if_pos ⟨hr, hd⟩]
      cases f <;> rfl
    case isFalse hd => exact (if_neg fun h => hd h.2).symm
  case isFalse hr => exact (if_neg fun h => hr h.1).symm

theorem store_eq (level : Nat) (f : Field) :
    store level f = if f.isStorable level then pure f else .fail (.fault .storage) := by
  rw [store, copied?_eq]
  by_cases h : f.isStorable level = true
  · rw [if_pos h, if_pos h]
  · rw [if_neg h, if_neg h]

/-- There is room for copies of the rules and the default of the field at its level, and of those
of all that lies in it. -/
inductive Copyable : Nat → Field → Prop
  | intro {level f} (storable : f.isStorable level = true)
      (children : ∀ e ∈ f.children, Copyable (level + 1) e.2) : Copyable level f

variable {level : Nat}

theorem Copyable.storable {f : Field} (h : f.Copyable level) : f.isStorable level = true := by
  cases h
  assumption

/-- What can be copied of a field can be copied of those one level below. -/
theorem Copyable.child {f : Field} (h : f.Copyable level) {e : String × Field}
    (he : e ∈ f.children) : e.2.Copyable (level + 1) := by
  cases h with
  | intro storable children => exact children e he

theorem copyable_iff {f : Field} :
    f.Copyable level ↔
      f.isStorable level = true ∧ ∀ e ∈ f.children, e.2.Copyable (level + 1) :=
  ⟨fun h => ⟨h.storable, fun _ => h.child⟩, fun h => ⟨h.1, h.2⟩⟩

theorem copyable_leaf {a : Attributes} {l : Leaf} {d : Option Json} :
    (Field.leaf a l d).Copyable level ↔ (Field.leaf a l d).isStorable level = true := by
  rw [copyable_iff, children]
  simp

theorem copyable_array {a : Attributes} {items : Field} {count : Bounds} {d : Option Json} :
    (Field.array a items count d).Copyable level ↔
      (Field.array a items count d).isStorable level = true ∧ items.Copyable (level + 1) := by
  rw [copyable_iff, children, List.forall_mem_singleton]

theorem copyable_object {a : Attributes} {properties : List (String × Field)} {d : Option Json} :
    (Field.object a properties d).Copyable level ↔
      (Field.object a properties d).isStorable level = true ∧
        ∀ p ∈ properties, p.2.Copyable (level + 1) := by
  rw [copyable_iff, children]

/-- What is kept does not nest more deeply than there is room on any host. -/
theorem depth_rule_le {f : Field} (h : f.isStorable level = true)
    {rules : List (List (String × Json))} (hrules : f.attributes.rules = some rules)
    {rule : List (String × Json)} (hrule : rule ∈ rules) : (Json.obj rule).depth ≤ roomLimit := by
  rw [isStorable, hrules, Bool.and_eq_true, List.all_eq_true] at h
  calc
    (Json.obj rule).depth ≤ (Json.obj rule).height := Json.depth_le_height _
    _ ≤ Host.ruleRoom level := of_decide_eq_true (h.1 rule hrule)
    _ ≤ roomLimit := Host.ruleRoom_le level

theorem depth_default_le {f : Field} (h : f.isStorable level = true) {v : Json}
    (hv : f.default = some v) : v.depth ≤ roomLimit := by
  rw [isStorable, hv, Bool.and_eq_true] at h
  calc
    v.depth ≤ v.height := Json.depth_le_height v
    _ ≤ Host.defaultRoom level := of_decide_eq_true h.2
    _ ≤ roomLimit := Host.defaultRoom_le level

/-- Nearer to the top there is no less room. -/
theorem isStorable_of_le {f : Field} {more : Nat} (hlevel : level ≤ more)
    (h : f.isStorable more = true) : f.isStorable level = true := by
  rw [isStorable, Bool.and_eq_true, List.all_eq_true] at h ⊢
  refine ⟨fun rule hrule => ?_, ?_⟩
  · have hroom := of_decide_eq_true (h.1 rule hrule)
    exact decide_eq_true (Nat.le_trans hroom (Host.ruleRoom_anti hlevel))
  · have hroom := of_decide_eq_true h.2
    exact decide_eq_true (Nat.le_trans hroom (Host.defaultRoom_anti hlevel))

theorem Copyable.of_le {f : Field} {more : Nat} (h : f.Copyable more) (hlevel : level ≤ more) :
    f.Copyable level := by
  induction h generalizing level with
  | intro storable _ ih =>
      exact .intro (isStorable_of_le hlevel storable) fun e he =>
        ih e he (Nat.add_le_add_right hlevel 1)

/-- Whatever lies in a field is kept at some level. -/
theorem Copyable.exists_isStorable {f : Field} (h : f.Copyable level) :
    ∀ g ∈ f.nested, ∃ l, g.isStorable l = true := by
  induction h with
  | intro storable _ ih =>
      rename_i level f
      intro g hg
      rw [nested_eq_cons, List.mem_cons, List.mem_flatMap] at hg
      rcases hg with rfl | ⟨e, he, hg⟩
      · exact ⟨_, storable⟩
      · exact ih e he g hg

end Formwork.Field
