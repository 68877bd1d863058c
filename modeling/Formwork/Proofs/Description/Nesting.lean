import Formwork.Proofs.Description.FirstFailure
import Formwork.Proofs.Resolution.Paths

/-!
# Nesting of descriptions

Descriptions lie in one another as items and properties, at most thirty-two steps below the top.
What is accepted at some level is accepted at every level at which nothing in it lies deeper than
that, so each description in an accepted one is accepted on its own, and a description stays
accepted when others are put around it until the limit is reached, as far as there is room for
copies of what it keeps. Beyond the limit verification ends at the first description, in pre-order,
that lies too deep.

## Main results

* `verify_nested`: an accepted description with all that lies in it, and with others around it.
-/

namespace Formwork

open Formwork.Field (verifyAt pathOf)

namespace Description

variable {level : Nat} {n : Json} {f : Field}

/-- The descriptions that lie directly in a description, each with its key: the items of an array
and the properties of an object. -/
def parts : Json → List (String × Json)
  | .obj ms =>
    match Field.typeOf? ms with
    | some .array =>
      match Entries.get? ms "items" with
      | some items => [("items", items)]
      | none => []
    | some .object =>
      match Entries.get? ms "properties" with
      | some (.obj properties) => properties
      | _ => []
    | _ => []
  | _ => []

theorem sizeOf_lt_of_mem {es : List (String × Json)} {e : String × Json} (he : e ∈ es) :
    sizeOf e.2 < sizeOf (Json.obj es) := by
  have hlt := List.sizeOf_lt_of_mem he
  obtain ⟨key, v⟩ := e
  simp at hlt ⊢
  omega

theorem sizeOf_lt_of_mem_parts {e : String × Json} (he : e ∈ parts n) :
    sizeOf e.2 < sizeOf n := by
  unfold parts at he
  split at he
  · split at he
    · split at he
      · rename_i items hitems
        rw [List.mem_singleton.mp he]
        exact sizeOf_lt_of_mem (Entries.mem_of_get? hitems)
      · cases he
    · split at he
      · rename_i properties hproperties
        exact (sizeOf_lt_of_mem he).trans (sizeOf_lt_of_mem (Entries.mem_of_get? hproperties))
      · cases he
    · cases he
  · cases he

/-- All descriptions in a description, each before those that lie in it, with the keys on the way to
them. -/
def within (n : Json) : List (List String × Json) :=
  ([], n) :: (parts n).attach.flatMap fun e =>
    have := sizeOf_lt_of_mem_parts e.2
    (within e.1.2).map fun p => (e.1.1 :: p.1, p.2)
termination_by sizeOf n

theorem within_eq_cons (n : Json) :
    within n =
      ([], n) :: (parts n).flatMap fun e => (within e.2).map fun p => (e.1 :: p.1, p.2) := by
  rw [within, List.flatMap_subtype (g := fun e => (within e.2).map fun p => (e.1 :: p.1, p.2))
    fun _ _ => rfl, List.unattach_attach]

theorem within_ne_nil (n : Json) : within n ≠ [] := by
  rw [within_eq_cons]
  exact List.cons_ne_nil _ _

/-- The greatest number of steps from a description to one that lies in it. -/
def nesting (n : Json) : Nat :=
  ((within n).map fun p => p.1.length).max (mt List.map_eq_nil_iff.mp (within_ne_nil n))

theorem nesting_le_iff {steps : Nat} :
    nesting n ≤ steps ↔ ∀ p ∈ within n, p.1.length ≤ steps := by
  rw [nesting, List.max_le_iff, List.forall_mem_map]

theorem exists_length_eq_nesting (n : Json) : ∃ p ∈ within n, p.1.length = nesting n :=
  List.mem_map.mp (List.max_mem _)

theorem mem_within_iff {p : List String × Json} :
    p ∈ within n ↔ p = ([], n) ∨ ∃ e ∈ parts n, ∃ q ∈ within e.2, (e.1 :: q.1, q.2) = p := by
  rw [within_eq_cons, List.mem_cons, List.mem_flatMap]
  simp only [List.mem_map]

/-- A description nests a step deeper than what lies directly in it. -/
theorem nesting_le_iff_parts {steps : Nat} :
    nesting n ≤ steps ↔ ∀ e ∈ parts n, nesting e.2 < steps := by
  constructor
  · intro h e he
    obtain ⟨q, hq, hlength⟩ := exists_length_eq_nesting e.2
    rw [← hlength]
    exact nesting_le_iff.mp h _ (mem_within_iff.mpr (.inr ⟨e, he, q, hq, rfl⟩))
  · intro h
    obtain ⟨p, hp, hlength⟩ := exists_length_eq_nesting n
    rw [← hlength]
    rcases mem_within_iff.mp hp with rfl | ⟨e, he, q, hq, rfl⟩
    · exact Nat.zero_le _
    · exact Nat.lt_of_le_of_lt (nesting_le_iff.mp (Nat.le_refl _) q hq) (h e he)

/-- A description with a single part nests a step deeper than this. -/
theorem nesting_of_part {key : String} {m : Json} (h : parts n = [(key, m)]) :
    nesting n = nesting m + 1 := by
  have hle : ∀ steps, nesting n ≤ steps ↔ nesting m < steps := fun steps => by
    rw [nesting_le_iff_parts, h, List.forall_mem_singleton]
  exact eq_of_forall_ge_iff hle

section Parts

variable {ms : Checked.Members} {a : Attributes}

theorem parts_array {items : Json} (attributes : AttributesOf ms .array a)
    (element : Entries.get? ms "items" = some items) :
    parts (.obj ms) = [("items", items)] := by
  simp only [parts, Field.typeOf?_eq_some_iff.mpr attributes.type, element]

theorem parts_object {properties : List (String × Json)} (attributes : AttributesOf ms .object a)
    (element : Entries.get? ms "properties" = some (.obj properties)) :
    parts (.obj ms) = properties := by
  simp only [parts, Field.typeOf?_eq_some_iff.mpr attributes.type, element]

theorem parts_leaf {l : Leaf} (attributes : AttributesOf ms l.type a) : parts (.obj ms) = [] := by
  simp only [parts, Field.typeOf?_eq_some_iff.mpr attributes.type]
  cases l <;> rfl

end Parts

section

variable [Host]

/-- What lies directly in a description describes what lies directly in the field. -/
theorem Describes.parts (h : Describes level n f) :
    List.Forall₂ (fun d e => d.1 = e.1 ∧ Describes (level + 1) d.2 e.2) (parts n) f.children := by
  cases h with
  | leaf _ attributes =>
      rw [parts_leaf attributes]
      exact .nil
  | array _ attributes element _ inner =>
      rw [parts_array attributes element]
      exact .cons ⟨rfl, inner⟩ .nil
  | object _ attributes element keys _ inner =>
      rw [parts_object attributes element]
      exact keys_zip_iff_forall₂.mp ⟨keys, inner⟩

/-- The default of a field stands in its description. -/
theorem Describes.member?_default (h : Describes level n f) :
    n.member? "defaultValue" = f.default := by
  cases h <;> rfl

/-- What is described at a level is described at those above it. -/
theorem Describes.mono (h : Describes level n f) {upper : Nat} (hupper : upper ≤ level) :
    Describes upper n f := by
  induction h generalizing upper with
  | leaf bound attributes payload default =>
      exact .leaf (hupper.trans bound) attributes payload default
  | array bound attributes element flat _ length default ih =>
      exact .array (hupper.trans bound) attributes element flat (ih (Nat.succ_le_succ hupper))
        length default
  | object bound attributes element keys named _ default ih =>
      exact .object (hupper.trans bound) attributes element keys named
        (fun p hp => ih p hp (Nat.succ_le_succ hupper)) default

/-- The ways to the descriptions in a description are those to the fields in the field. -/
theorem Describes.routes (h : Describes level n f) : (within n).map (·.1) = f.routes := by
  induction f using Field.induct_children generalizing level n with
  | step f ih =>
      rw [within_eq_cons, Field.routes_eq_cons, List.map_cons, List.map_flatMap]
      congr 1
      rw [← List.forall₂_eq_eq_eq]
      refine forall₂_flatMap_flatMap h.parts fun d e he hde => ?_
      rw [List.forall₂_eq_eq_eq, hde.1, ← ih e he hde.2, List.map_map, List.map_map]
      rfl

/-- Each description in a description describes the field at its place, at the top as well. -/
theorem Describes.nested (h : Describes level n f) (hc : f.Copyable 0) :
    List.Forall₂ (fun p g => Describes 0 p.2 g ∧ g.Copyable 0) (within n) f.nested := by
  induction f using Field.induct_children generalizing level n with
  | step f ih =>
      rw [within_eq_cons, Field.nested_eq_cons]
      refine .cons ⟨h.mono (Nat.zero_le _), hc⟩ ?_
      refine forall₂_flatMap_flatMap h.parts fun d e he hde => ?_
      have hce : e.2.Copyable 0 := (hc.child he).of_le (Nat.zero_le _)
      exact List.forall₂_map_left_iff.mpr (ih e he hde.2 hce)

/-- A description to which verification comes below the deepest level is refused, at its path. -/
theorem Leads.nesting {path : String} {way : List Enclosure} {last : Json}
    (h : Leads level n way last) (hdeep : level + way.length = 33) (hpath : path ≠ "") :
    (verifyAt level (some path) n).outcome =
      .error (.failure (.shape .nesting (some (along path way)))) := by
  induction h generalizing path with
  | here =>
      obtain rfl : _ = 33 := hdeep
      rfl
  | @step level n enclosure m way last first rest ih =>
      have hkey : path ++ "." ++ enclosure.key ≠ "" := by
        rw [← Field.joinPath_of_ne hpath]
        exact Field.joinPath_ne hpath _
      have hinner : level + 1 + way.length = 33 := by
        rw [List.length_cons] at hdeep
        omega
      exact first.passes_on hpath (ih hinner hkey)

/-- A description with others put around it, a number of times: an array with it as its items,
unless it describes an array itself, or an object with it as the only property. Those around it are
in order and without defaults, and the host has room for copies of their rules. The outermost one
is at the level. -/
inductive Wrapped (n : Json) : Nat → Nat → Json → Prop
  | none {upper} : Wrapped n upper 0 n
  | items {upper times w ms a count} (inner : Wrapped n (upper + 1) times w)
      (attributes : AttributesOf ms .array a) (element : Entries.get? ms "items" = some w)
      (flat : w.member? "type" ≠ some (.str FieldType.array.name))
      (length : BoundsOf ms "minItems" "maxItems" count)
      (default : Entries.get? ms "defaultValue" = .none)
      (rules : ∀ rules ∈ a.rules, ∀ rule ∈ rules, (Json.obj rule).height ≤ Host.ruleRoom upper) :
      Wrapped n upper (times + 1) (.obj ms)
  | property {upper times w ms a key} (inner : Wrapped n (upper + 1) times w)
      (attributes : AttributesOf ms .object a)
      (element : Entries.get? ms "properties" = some (.obj [(key, w)])) (named : key ≠ "")
      (default : Entries.get? ms "defaultValue" = .none)
      (rules : ∀ rules ∈ a.rules, ∀ rule ∈ rules, (Json.obj rule).height ≤ Host.ruleRoom upper) :
      Wrapped n upper (times + 1) (.obj ms)

section Wrapped

variable {times : Nat} {w : Json}

/-- Each description that is put around another one adds a level. -/
theorem Wrapped.nesting (h : Wrapped n level times w) : nesting w = nesting n + times := by
  induction h with
  | none => rfl
  | items inner attributes element _ _ _ _ ih =>
      rw [nesting_of_part (parts_array attributes element), ih, Nat.add_assoc]
  | property inner attributes element _ _ _ ih =>
      rw [nesting_of_part (parts_object attributes element), ih, Nat.add_assoc]

/-- A description of a field at a level, for whose copies the host has room there. -/
def IsDescribed (level : Nat) (n : Json) : Prop :=
  ∃ f, Describes level n f ∧ f.Copyable level

theorem IsDescribed.part (h : IsDescribed level n) {e : String × Json} (he : e ∈ parts n) :
    IsDescribed (level + 1) e.2 := by
  obtain ⟨f, hf, hc⟩ := h
  obtain ⟨g, hg, -, hdescribes⟩ := exists_right_of_mem hf.parts e he
  exact ⟨g.2, hdescribes, hc.child hg⟩

theorem Wrapped.named (h : Wrapped n level times w) {other : Nat} (hn : Describes other n f) :
    ∃ ms name, w = .obj ms ∧ Field.nameOf? ms = some name := by
  have hname {ms t a} (attributes : AttributesOf ms t a) : Field.nameOf? ms = some a.name :=
    Field.nameOf?_eq_some_iff.mpr ⟨attributes.name, attributes.name_ne⟩
  cases h with
  | none =>
      cases hn with
      | leaf _ attributes | array _ attributes | object _ attributes =>
          exact ⟨_, _, rfl, hname attributes⟩
  | items _ attributes | property _ attributes => exact ⟨_, _, rfl, hname attributes⟩

end Wrapped

end

end Description

end Formwork
