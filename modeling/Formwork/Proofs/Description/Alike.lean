import Formwork.Proofs.Description.Reordering

/-!
# Fields that are alike

Two fields are alike if they have the same name and type and accept the same values, and if both or
neither can be copied. Descriptions that differ by edits describe fields that are alike, which is
all that the verdict on a document depends on.
-/

namespace Formwork

open Description (Reordered)

namespace Field

variable [Host]

/-- The fields have the same name and type and accept the same values, and can both be copied or
both not. -/
structure Alike (f g : Field) : Prop where
  name : f.name = g.name
  type : f.type = g.type
  accepts : ∀ v, f.Accepts v ↔ g.Accepts v
  inside : ∀ v, f.AcceptsInside v ↔ g.AcceptsInside v
  copyable : ∀ level, f.Copyable level ↔ g.Copyable level

theorem Alike.refl (f : Field) : f.Alike f :=
  ⟨rfl, rfl, fun _ => Iff.rfl, fun _ => Iff.rfl, fun _ => Iff.rfl⟩

theorem Alike.symm {f g : Field} (h : f.Alike g) : g.Alike f where
  name := h.name.symm
  type := h.type.symm
  accepts v := (h.accepts v).symm
  inside v := (h.inside v).symm
  copyable level := (h.copyable level).symm

/-- The properties have the same keys, each of them once, in any order, and the fields under each
key are alike. -/
structure PropertiesAlike (properties others : List (String × Field)) : Prop where
  nodup : (Entries.keys properties).Nodup
  nodup' : (Entries.keys others).Nodup
  left : ∀ p ∈ properties, ∃ q ∈ others, p.1 = q.1 ∧ p.2.Alike q.2
  right : ∀ q ∈ others, ∃ p ∈ properties, p.1 = q.1 ∧ p.2.Alike q.2

section Properties

variable {properties others : List (String × Field)}

theorem PropertiesAlike.symm (h : PropertiesAlike properties others) :
    PropertiesAlike others properties where
  nodup := h.nodup'
  nodup' := h.nodup
  left q hq := by
    obtain ⟨p, hp, hkey, halike⟩ := h.right q hq
    exact ⟨p, hp, hkey.symm, halike.symm⟩
  right p hp := by
    obtain ⟨q, hq, hkey, halike⟩ := h.left p hp
    exact ⟨q, hq, hkey.symm, halike.symm⟩

/-- The keys tell which property a field is alike, so it is enough that each of the others has one
and no key is left out. -/
theorem PropertiesAlike.of_right (hnodup : (Entries.keys properties).Nodup)
    (hnodup' : (Entries.keys others).Nodup)
    (hkeys : ∀ key ∈ Entries.keys properties, key ∈ Entries.keys others)
    (hright : ∀ q ∈ others, ∃ p ∈ properties, p.1 = q.1 ∧ p.2.Alike q.2) :
    PropertiesAlike properties others where
  nodup := hnodup
  nodup' := hnodup'
  left p hp := by
    obtain ⟨q, hq, hqp⟩ := List.mem_map.mp (hkeys p.1 (List.mem_map_of_mem hp))
    obtain ⟨p', hp', hpq, halike⟩ := hright q hq
    have heq : p' = p := List.inj_on_of_nodup_map hnodup hp' hp (hpq.trans hqp)
    exact ⟨q, hq, hqp.symm, heq ▸ halike⟩
  right := hright

/-- The field that is looked up under a key is alike in both. -/
theorem PropertiesAlike.lookup (h : PropertiesAlike properties others) {key : String} {f : Field}
    (hf : properties.lookup key = some f) : ∃ g, others.lookup key = some g ∧ f.Alike g := by
  obtain ⟨⟨key', g⟩, hq, rfl, halike⟩ := h.left (key, f) (Entries.mem_of_get? hf)
  exact ⟨g, Entries.get?_of_mem h.nodup' hq, halike⟩

/-- Both or neither have only fields that can be copied. -/
theorem PropertiesAlike.copyable {level : Nat} (h : PropertiesAlike properties others)
    (hall : ∀ p ∈ properties, p.2.Copyable level) : ∀ q ∈ others, q.2.Copyable level := by
  intro q hq
  obtain ⟨p, hp, -, halike⟩ := h.right q hq
  exact (halike.copyable level).mp (hall p hp)

theorem PropertiesAlike.accepts (h : PropertiesAlike properties others) {v : Json}
    {a a' : Attributes} {d d' : Option Json} (hv : (Field.object a properties d).Accepts v) :
    (Field.object a' others d').Accepts v := by
  obtain ⟨es, rfl, hall⟩ := hv
  refine ⟨es, rfl, fun e he => ?_⟩
  obtain ⟨f, hf, haccepts⟩ := hall e he
  obtain ⟨g, hg, halike⟩ := h.lookup hf
  exact ⟨g, hg, (halike.inside _).mp haccepts⟩

end Properties

/-- The rules are the same objects in another order of their members. -/
def RulesReordered (rules others : Option (List (List (String × Json)))) : Prop :=
  Option.Rel (List.Forall₂ fun r r' => Reordered (.obj r) (.obj r')) rules others

/-- Whether a field can be stored does not depend on the order of members. -/
theorem isStorable_eq (level : Nat) {f g : Field}
    (hrules : RulesReordered f.attributes.rules g.attributes.rules)
    (hdefault : Option.Rel Reordered f.default g.default) :
    f.isStorable level = g.isStorable level := by
  have hlist : ∀ {rules others : List (List (String × Json))},
      List.Forall₂ (fun r r' => Reordered (.obj r) (.obj r')) rules others →
      rules.all (fun rule => (Json.obj rule).height ≤ Host.ruleRoom level) =
        others.all fun rule => (Json.obj rule).height ≤ Host.ruleRoom level := by
    intro rules others h
    induction h with
    | nil => rfl
    | cons hrule _ ih => rw [List.all_cons, List.all_cons, ih, hrule.height_eq]
  unfold isStorable
  generalize f.attributes.rules = rules, g.attributes.rules = others at hrules
  generalize f.default = d, g.default = d' at hdefault
  congr 1
  · cases hrules with
    | some hall => exact hlist hall
    | none => rfl
  · cases hdefault with
    | some hv => rw [Option.map_some, Option.map_some, hv.height_eq]
    | none => rfl

section Alike

variable {a a' : Attributes} {d d' : Option Json}

theorem alike_leaf {l : Leaf} (hname : a.name = a'.name)
    (hstorable : ∀ level,
      (Field.leaf a l d).isStorable level = (Field.leaf a' l d').isStorable level) :
    (Field.leaf a l d).Alike (.leaf a' l d') where
  name := hname
  type := rfl
  accepts _ := Iff.rfl
  inside _ := Iff.rfl
  copyable level := by rw [copyable_leaf, copyable_leaf, hstorable]

theorem alike_array {items items' : Field} {count : Bounds} (hname : a.name = a'.name)
    (hstorable : ∀ level, (Field.array a items count d).isStorable level =
      (Field.array a' items' count d').isStorable level)
    (hitems : items.Alike items') :
    (Field.array a items count d).Alike (.array a' items' count d') where
  name := hname
  type := rfl
  accepts v := by simp only [Accepts, hitems.inside]
  inside _ := Iff.rfl
  copyable level := by rw [copyable_array, copyable_array, hstorable, hitems.copyable]

theorem alike_object {properties others : List (String × Field)} (hname : a.name = a'.name)
    (hstorable : ∀ level, (Field.object a properties d).isStorable level =
      (Field.object a' others d').isStorable level)
    (h : PropertiesAlike properties others) :
    (Field.object a properties d).Alike (.object a' others d') where
  name := hname
  type := rfl
  accepts _ := ⟨h.accepts, h.symm.accepts⟩
  inside _ := Iff.rfl
  copyable level := by
    rw [copyable_object, copyable_object, hstorable]
    exact and_congr_right fun _ => ⟨h.copyable, h.symm.copyable⟩

end Alike

end Field

namespace Description.Reordered

open Formwork.Field (Alike PropertiesAlike)

variable {v v' : Json}

variable [Host]

theorem acceptsInside {f : Field} (h : Reordered v v') (hv : f.AcceptsInside v) :
    f.AcceptsInside v' := by
  cases f with
  | leaf a l d => exact h.accepts_leaf hv
  | _ => trivial

/-- A field accepts a value in any order. -/
theorem accepts {f : Field} (h : Reordered v v') (hv : f.Accepts v) : f.Accepts v' := by
  cases f with
  | leaf a l d => exact h.accepts_leaf hv
  | array a items count d =>
      obtain ⟨vs, rfl, hall⟩ := hv
      obtain ⟨vs', rfl, hvs⟩ := h.arr
      exact ⟨vs', rfl, forall_mem hvs (fun _ _ => acceptsInside) hall⟩
  | object a properties d =>
      obtain ⟨es, rfl, hall⟩ := hv
      obtain ⟨es', rfl, hes⟩ := h.obj
      refine ⟨es', rfl, fun e' he' => ?_⟩
      obtain ⟨e, he, hkey, hvalue⟩ := hes e' he'
      obtain ⟨f, hf, haccepts⟩ := hall e he
      exact ⟨f, hkey ▸ hf, hvalue.acceptsInside haccepts⟩

/-- A default of an array is one in any order, with items that are alike. -/
theorem arrayDefault {items items' : Field} {count : Bounds} (hitems : items.Alike items')
    (h : Reordered v v') (hv : ArrayDefault items count v) : ArrayDefault items' count v' := by
  obtain ⟨vs, rfl, hcount, hall⟩ := hv
  obtain ⟨vs', rfl, hvs⟩ := h.arr
  refine ⟨vs', rfl, hvs.length_eq ▸ hcount, forall_mem hvs (fun v v' hv haccepts => ?_) hall⟩
  exact (hitems.accepts v').mp (hv.accepts haccepts)

/-- A default of an object is one in any order, with properties that are alike. -/
theorem objectDefault {properties others : List (String × Field)}
    (halike : PropertiesAlike properties others) (h : Reordered v v')
    (hv : ObjectDefault properties v) : ObjectDefault others v' := by
  obtain ⟨es, rfl, hall⟩ := hv
  obtain ⟨es', rfl, hes⟩ := h.obj
  refine ⟨es', rfl, fun e' he' => ?_⟩
  obtain ⟨e, he, hkey, hvalue⟩ := hes e' he'
  obtain ⟨f, hf, haccepts⟩ := hall e he
  obtain ⟨g, hg, hfg⟩ := halike.lookup hf
  exact ⟨g, hkey ▸ hg, (hfg.accepts _).mp (hvalue.accepts haccepts)⟩

end Description.Reordered

end Formwork
