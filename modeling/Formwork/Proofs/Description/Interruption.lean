import Formwork.Proofs.Description.Document
import Formwork.Proofs.Value.Stalls

/-!
# Descriptions at which verification breaks off

Verification ends without a verdict exactly if it comes to a date text whose reading
breaks off. The relation here says where such a text stands, and that all that is
verified before it was accepted: the attributes, the properties and entries that come
earlier, and for a default the field that it is checked against.
-/

namespace Formwork

namespace Description

open Checked (Members)

variable [Host]

/-- The verification of a description at a level breaks off. -/
inductive BreaksOff : Nat → Json → Prop
  | date {level ms a v} (bound : level ≤ 32) (attributes : AttributesOf ms .date a)
      (default : Entries.get? ms "defaultValue" = some v) (stalls : DateText.Stalls v) :
      BreaksOff level (.obj ms)
  | items {level ms a inside} (bound : level ≤ 32) (attributes : AttributesOf ms .array a)
      (element : Entries.get? ms "items" = some (.obj inside))
      (flat : Entries.get? inside "type" ≠ some (.str FieldType.array.name))
      (inner : BreaksOff (level + 1) (.obj inside)) : BreaksOff level (.obj ms)
  | element {level ms a node items count vs} (bound : level ≤ 32)
      (attributes : AttributesOf ms .array a) (element : Entries.get? ms "items" = some node)
      (flat : items.type ≠ .array) (inner : Describes (level + 1) node items)
      (copyable : items.Copyable (level + 1)) (length : BoundsOf ms "minItems" "maxItems" count)
      (default : Entries.get? ms "defaultValue" = some (.arr vs))
      (allowed : count.Allows vs.length) (reached : Reached (items.Accepts ·) (items.Stalls ·) vs) :
      BreaksOff level (.obj ms)
  | property {level ms a before key node after} (bound : level ≤ 32)
      (attributes : AttributesOf ms .object a)
      (element : Entries.get? ms "properties" = some (.obj (before ++ (key, node) :: after)))
      (earlier : ∀ e ∈ before,
        e.1 ≠ "" ∧ ∃ f, Describes (level + 1) e.2 f ∧ f.Copyable (level + 1))
      (named : key ≠ "") (inner : BreaksOff (level + 1) node) : BreaksOff level (.obj ms)
  | entry {level ms a nodes properties es} (bound : level ≤ 32)
      (attributes : AttributesOf ms .object a)
      (element : Entries.get? ms "properties" = some (.obj nodes))
      (keys : Entries.keys nodes = Entries.keys properties) (named : "" ∉ Entries.keys properties)
      (inner : ∀ p ∈ nodes.zip properties, Describes (level + 1) p.1.2 p.2.2)
      (copyable : ∀ p ∈ properties, p.2.Copyable (level + 1))
      (default : Entries.get? ms "defaultValue" = some (.obj es))
      (reached : Reached (fun e => ∃ f, properties.lookup e.1 = some f ∧ f.Accepts e.2)
        (fun e => ∃ f, properties.lookup e.1 = some f ∧ f.Stalls e.2) es) :
      BreaksOff level (.obj ms)

theorem BreaksOff.bound {level : Nat} {n : Json} (h : BreaksOff level n) : level ≤ 32 := by
  cases h <;> assumption

end Description

namespace Field

open Checked Description

variable {α : Type} {path name : String} {ms : Members} {a : Attributes}

@[simp] theorem checked_ne_fault {x : Checked α} {e : Fault} :
    (checked path name x).outcome ≠ .error (.fault e) := by
  cases x <;> simp [checked]

theorem faulty_eq_fault_iff {x : Audit Fault α} {e : Fault} :
    (faulty x).outcome = .error (.fault e) ↔ x.outcome = .error e := by
  simp [faulty, mapError_eq_error_iff]

variable [Host] {level : Nat}

@[simp] theorem store_ne_imprecise {f : Field} :
    (store level f).outcome ≠ .error (.fault .imprecise) := by
  unfold store
  split <;> simp

omit [Host] in
/-- What rewrites failures only, and into failures, keeps faults as they are. -/
theorem mapError_eq_fault_iff {g : Stop → Stop} (hfault : ∀ e, g (.fault e) = .fault e)
    (hfailure : ∀ f e, g (.failure f) ≠ .fault e) {x : Except Stop α} {e : Fault} :
    x.mapError g = .error (.fault e) ↔ x = .error (.fault e) := by
  rw [mapError_eq_error_iff]
  constructor
  · intro h
    obtain ⟨s, hx, hs⟩ := h
    cases s with
    | fault fault => rwa [← hs, hfault fault]
    | failure f => exact absurd hs (hfailure f e)
  · intro h
    exact ⟨_, h, hfault e⟩

omit [Host] in
/-- Faults are passed on by enclosing fields as they are. -/
theorem mapError_within_eq_fault_iff {x : Except Stop α} {e : Enclosure} {fault : Fault} :
    x.mapError (Stop.within e) = .error (.fault fault) ↔ x = .error (.fault fault) :=
  mapError_eq_fault_iff (fun _ => rfl) fun f _ h => by cases f <;> cases h

theorem leafOf_ne_imprecise {default : Option Json} {x : Checked Leaf} :
    (leafOf level path name a default x).outcome ≠ .error (.fault .imprecise) := by
  intro h
  simp [leafOf, Audit.outcome_bind_eq_error_iff, -Audit.outcome_bind] at h

theorem choiceOf_ne_imprecise {x : Checked Leaf} :
    (choiceOf level path name ms a x).outcome ≠ .error (.fault .imprecise) := by
  intro h
  simp [choiceOf, Audit.outcome_bind_eq_error_iff, -Audit.outcome_bind] at h

theorem dateOf_eq_imprecise_iff :
    (dateOf level path name ms a).outcome = .error (.fault .imprecise) ↔
      ∃ v, Entries.get? ms "defaultValue" = some v ∧ DateText.Stalls v := by
  unfold dateOf authoredDefault
  cases Entries.get? ms "defaultValue" with
  | none => simp [Audit.outcome_bind_eq_error_iff, -Audit.outcome_bind]
  | some v =>
      simp only [Audit.outcome_bind_eq_error_iff, faulty_eq_fault_iff, tryDate_eq_error_iff,
        true_and, Option.some.injEq, exists_eq_left', or_iff_left_iff_imp]
      intro h
      obtain ⟨d, -, h⟩ := h
      split at h
      · cases h
      · simp [Audit.outcome_bind_eq_error_iff, -Audit.outcome_bind] at h

theorem defaultElements_eq_imprecise_iff {items : Field} (index : Nat) {vs : List Json} :
    (defaultElements path name items index vs).outcome = .error (.fault .imprecise) ↔
      Reached (items.Accepts ·) (items.Stalls ·) vs := by
  induction vs generalizing index with
  | nil => simp [defaultElements]
  | cons v rest ih =>
      rw [reached_cons_iff, ← ih (index + 1), defaultElements, ← check_eq_none_iff]
      apply (Audit.outcome_bind_none_eq_error_iff (by simp)).trans
      rw [faulty_eq_fault_iff, check_eq_error_iff, faulty_eq_ok_iff, eq_self, true_and]

omit [Host] in
/-- A flaw that a condition stands for is no fault, so a fault comes from what follows. -/
theorem ite_refuse_eq_fault_iff {β : Type} {p : Prop} [Decidable p] {flaw : Flaw}
    {next : β → Audit Stop α} {x : Audit Stop α} {e : Fault} :
    (if p then refuse path name flaw >>= next else x).outcome = .error (.fault e) ↔
      ¬ p ∧ x.outcome = .error (.fault e) := by
  by_cases h : p <;> simp [h, Audit.outcome_bind_eq_error_iff, -Audit.outcome_bind]

theorem arrayDefault_eq_imprecise_iff {items : Field} {count : Bounds} {default : Option Json} :
    (arrayDefault path name items count default).outcome = .error (.fault .imprecise) ↔
      ∃ vs, default = some (.arr vs) ∧ count.Allows vs.length ∧
        Reached (items.Accepts ·) (items.Stalls ·) vs := by
  cases default with
  | none => simp [arrayDefault]
  | some v =>
      cases v with
      | arr vs =>
          obtain ⟨lower, upper⟩ := count
          cases lower <;> cases upper <;>
            simp [arrayDefault, Bounds.Allows, ite_refuse_eq_fault_iff,
              defaultElements_eq_imprecise_iff, and_assoc]
      | _ => simp [arrayDefault]

theorem defaultEntries_eq_imprecise_iff {properties : List (String × Field)}
    {es : List (String × Json)} :
    (defaultEntries path name properties es).outcome = .error (.fault .imprecise) ↔
      Reached (fun e => ∃ f, properties.lookup e.1 = some f ∧ f.Accepts e.2)
        (fun e => ∃ f, properties.lookup e.1 = some f ∧ f.Stalls e.2) es := by
  induction es with
  | nil => simp [defaultEntries]
  | cons e rest ih =>
      obtain ⟨key, v⟩ := e
      rw [reached_cons_iff, ← ih, defaultEntries]
      cases properties.lookup key with
      | none => simp
      | some f =>
          simp only [Option.some.injEq, exists_eq_left', ← check_eq_none_iff]
          apply (Audit.outcome_bind_none_eq_error_iff (by simp)).trans
          rw [faulty_eq_fault_iff, check_eq_error_iff, faulty_eq_ok_iff, eq_self, true_and]

section Inner

variable {child : String → Json → Audit Stop Field} {inner : Json → Field → Prop}
  {breaks : Json → Prop}

omit [Host] in
theorem propertiesOf_eq_imprecise_iff
    (hchild : ∀ path n f, (child path n).outcome = .ok f ↔ inner n f)
    (hbreaks : ∀ path n, (child path n).outcome = .error (.fault .imprecise) ↔ breaks n)
    {nodes : List (String × Json)} :
    (propertiesOf child path name nodes).outcome = .error (.fault .imprecise) ↔
      Reached (fun e => e.1 ≠ "" ∧ ∃ f, inner e.2 f) (fun e => e.1 ≠ "" ∧ breaks e.2) nodes := by
  induction nodes with
  | nil => simp [propertiesOf]
  | cons e rest ih =>
      obtain ⟨key, n⟩ := e
      rw [reached_cons_iff, ← ih, propertiesOf]
      by_cases hkey : key = ""
      · simp [hkey]
      · rw [if_neg hkey]
        simp only [Audit.outcome_bind_eq_error_iff, Audit.outcome_mapError,
          mapError_within_eq_fault_iff, mapError_eq_ok_iff, hchild, hbreaks, Audit.outcome_pure,
          reduceCtorEq, and_false, exists_false, or_false, ne_eq, hkey, not_false_eq_true,
          true_and, exists_and_right]

theorem arrayOf_eq_imprecise_iff
    (hchild : ∀ path n f, (child path n).outcome = .ok f ↔ inner n f)
    (hbreaks : ∀ path n, (child path n).outcome = .error (.fault .imprecise) ↔ breaks n) :
    (arrayOf level child path name ms a).outcome = .error (.fault .imprecise) ↔
      ∃ inside, Entries.get? ms "items" = some (.obj inside) ∧
        Entries.get? inside "type" ≠ some (.str FieldType.array.name) ∧
        (breaks (.obj inside) ∨
          ∃ items count vs, inner (.obj inside) items ∧ BoundsOf ms "minItems" "maxItems" count ∧
            Entries.get? ms "defaultValue" = some (.arr vs) ∧ count.Allows vs.length ∧
            Reached (items.Accepts ·) (items.Stalls ·) vs) := by
  unfold arrayOf authoredDefault
  split
  · rename_i inside hinside
    simp only [hinside, Option.some.injEq, Json.obj.injEq, exists_eq_left']
    by_cases harray : Entries.get? inside "type" = some (.str FieldType.array.name)
    · simp [harray]
    · rw [if_neg harray]
      simp only [Audit.outcome_bind_eq_error_iff, Audit.outcome_mapError,
        mapError_within_eq_fault_iff, mapError_eq_ok_iff, hchild, hbreaks, checked_ne_fault,
        checked_eq_ok_iff, bounds_eq_ok_iff, arrayDefault_eq_imprecise_iff, store_ne_imprecise,
        ne_eq, harray, not_false_eq_true, true_and, false_or, and_false, exists_false, or_false,
        exists_and_left]
  · rename_i hne
    apply iff_of_false (by simp)
    intro h
    obtain ⟨inside, h, -⟩ := h
    exact hne inside h

theorem objectOf_eq_imprecise_iff
    (hchild : ∀ path n f, (child path n).outcome = .ok f ↔ inner n f)
    (hbreaks : ∀ path n, (child path n).outcome = .error (.fault .imprecise) ↔ breaks n) :
    (objectOf level child path name ms a).outcome = .error (.fault .imprecise) ↔
      ∃ nodes, Entries.get? ms "properties" = some (.obj nodes) ∧
        (Reached (fun e => e.1 ≠ "" ∧ ∃ f, inner e.2 f) (fun e => e.1 ≠ "" ∧ breaks e.2) nodes ∨
          ∃ properties es, (Entries.keys nodes = Entries.keys properties ∧
            "" ∉ Entries.keys properties ∧ ∀ p ∈ nodes.zip properties, inner p.1.2 p.2.2) ∧
            Entries.get? ms "defaultValue" = some (.obj es) ∧
            Reached (fun e => ∃ f, properties.lookup e.1 = some f ∧ f.Accepts e.2)
              (fun e => ∃ f, properties.lookup e.1 = some f ∧ f.Stalls e.2) es) := by
  unfold objectOf authoredDefault
  split
  · rename_i nodes hnodes
    simp only [hnodes, Option.some.injEq, Json.obj.injEq, exists_eq_left',
      Audit.outcome_bind_eq_error_iff, propertiesOf_eq_imprecise_iff hchild hbreaks,
      propertiesOf_eq_ok_iff hchild]
    refine or_congr_right (exists_congr fun properties => ?_)
    rw [exists_and_left]
    refine and_congr_right fun _ => ?_
    cases Entries.get? ms "defaultValue" with
    | none => simp
    | some v =>
        cases v with
        | obj es =>
            simp [Audit.outcome_bind_eq_error_iff, defaultEntries_eq_imprecise_iff,
              -Audit.outcome_bind]
        | _ => simp [Audit.outcome_bind_eq_error_iff, -Audit.outcome_bind]
  · rename_i hne
    apply iff_of_false (by simp)
    intro h
    obtain ⟨nodes, h, -⟩ := h
    exact hne nodes h

theorem payload_eq_imprecise_iff {t : FieldType} :
    (payload level child path name ms a t).outcome = .error (.fault .imprecise) ↔
      match t with
      | .date => ∃ v, Entries.get? ms "defaultValue" = some v ∧ DateText.Stalls v
      | .array => (arrayOf level child path name ms a).outcome = .error (.fault .imprecise)
      | .object => (objectOf level child path name ms a).outcome = .error (.fault .imprecise)
      | _ => False := by
  cases t with
  | array => rfl
  | object => rfl
  | date => exact dateOf_eq_imprecise_iff
  | radio => exact iff_of_false choiceOf_ne_imprecise id
  | select => exact iff_of_false choiceOf_ne_imprecise id
  | _ => exact iff_of_false leafOf_ne_imprecise id

end Inner

section Level

variable {child : String → Json → Audit Stop Field}

/-- If the levels below break off as described, then so does what a type adds at this level. -/
theorem breaksOff_of_payload
    (hchild : ∀ path n f, (child path n).outcome = .ok f ↔
      Describes (level + 1) n f ∧ f.Copyable (level + 1))
    (hbreaks : ∀ path n, (child path n).outcome = .error (.fault .imprecise) ↔
      BreaksOff (level + 1) n)
    (hbound : level ≤ 32) {t : FieldType} (ha : AttributesOf ms t a)
    (h : (payload level child path name ms a t).outcome = .error (.fault .imprecise)) :
    BreaksOff level (.obj ms) := by
  rw [payload_eq_imprecise_iff] at h
  cases t with
  | date =>
      obtain ⟨v, hv, hstalls⟩ := h
      exact .date hbound ha hv hstalls
  | array =>
      obtain ⟨inside, hinside, hflat, h | h⟩ := (arrayOf_eq_imprecise_iff hchild hbreaks).mp h
      · exact .items hbound ha hinside hflat h
      · obtain ⟨items, count, vs, ⟨hi, hc⟩, hcount, hd, hallowed, hreached⟩ := h
        have hne : items.type ≠ .array := by
          obtain ⟨_, hms, ht⟩ := hi.type
          cases hms
          intro harray
          exact hflat (harray ▸ ht)
        exact .element hbound ha hinside hne hi hc hcount hd hallowed hreached
  | object =>
      obtain ⟨nodes, hnodes, h | h⟩ := (objectOf_eq_imprecise_iff hchild hbreaks).mp h
      · obtain ⟨before, ⟨key, node⟩, after, rfl, hearlier, hkey, hnode⟩ := h
        exact .property hbound ha hnodes hearlier hkey hnode
      · obtain ⟨properties, es, ⟨hkeys, hnamed, hall⟩, hd, hreached⟩ := h
        have hc := (forall_zip_iff hkeys (Copyable (level + 1))).mp fun p hp => (hall p hp).2
        exact .entry hbound ha hnodes hkeys hnamed (fun p hp => (hall p hp).1) hc hd hreached
  | _ => cases h

/-- What a type adds breaks off if the description tells so, and the levels below do. -/
theorem payload_of_breaksOff
    (hchild : ∀ path n f, (child path n).outcome = .ok f ↔
      Describes (level + 1) n f ∧ f.Copyable (level + 1))
    (hbreaks : ∀ path n, (child path n).outcome = .error (.fault .imprecise) ↔
      BreaksOff (level + 1) n)
    {n : Json} (h : BreaksOff level n) : ∃ ms a t, n = .obj ms ∧ AttributesOf ms t a ∧
      ∀ path name, (payload level child path name ms a t).outcome = .error (.fault .imprecise) := by
  cases h with
  | date _ attributes default stalls =>
      refine ⟨_, _, .date, rfl, attributes, fun path name => ?_⟩
      exact dateOf_eq_imprecise_iff.mpr ⟨_, default, stalls⟩
  | items _ attributes element flat inner =>
      refine ⟨_, _, .array, rfl, attributes, fun path name => ?_⟩
      exact (arrayOf_eq_imprecise_iff hchild hbreaks).mpr ⟨_, element, flat, .inl inner⟩
  | element _ attributes element flat inner copyable length default allowed reached =>
      obtain ⟨inside, rfl, ht⟩ := inner.type
      have hflat : Entries.get? inside "type" ≠ some (.str FieldType.array.name) := by
        rw [ht]
        intro h
        exact flat (FieldType.name_injective (by simpa using h))
      refine ⟨_, _, .array, rfl, attributes, fun path name => ?_⟩
      exact (arrayOf_eq_imprecise_iff hchild hbreaks).mpr ⟨inside, element, hflat,
        .inr ⟨_, _, _, ⟨inner, copyable⟩, length, default, allowed, reached⟩⟩
  | property _ attributes element earlier named inner =>
      refine ⟨_, _, .object, rfl, attributes, fun path name => ?_⟩
      exact (objectOf_eq_imprecise_iff hchild hbreaks).mpr
        ⟨_, element, .inl ⟨_, _, _, rfl, earlier, named, inner⟩⟩
  | entry _ attributes element keys named inner copyable default reached =>
      have hall := (forall_zip_iff keys (Copyable (level + 1))).mpr copyable
      refine ⟨_, _, .object, rfl, attributes, fun path name => ?_⟩
      exact (objectOf_eq_imprecise_iff hchild hbreaks).mpr ⟨_, element,
        .inr ⟨_, _, ⟨keys, named, fun p hp => ⟨inner p hp, hall p hp⟩⟩, default, reached⟩⟩

end Level

/-- Verification of a description breaks off exactly if the description tells so. -/
theorem verifyBelow_eq_imprecise_iff {levels : Nat}
    (hlevels : level + levels = nestingLimit + 1) {path : Option String} {n : Json} :
    (verifyBelow levels path n).outcome = .error (.fault .imprecise) ↔ BreaksOff level n := by
  induction levels generalizing level path n with
  | zero =>
      refine iff_of_false (by simp [verifyBelow]) ?_
      intro h
      have hbound := h.bound
      unfold nestingLimit at hlevels
      omega
  | succ levels ih =>
      have hlevels' : level + 1 + levels = nestingLimit + 1 := by omega
      have hchild : ∀ path n f, (verifyBelow levels (some path) n).outcome = .ok f ↔
          Describes (level + 1) n f ∧ f.Copyable (level + 1) :=
        fun path n f => verifyBelow_eq_ok_iff hlevels'
      have hbreaks : ∀ path n, (verifyBelow levels (some path) n).outcome =
          .error (.fault .imprecise) ↔ BreaksOff (level + 1) n := fun path n => ih hlevels'
      have hbound : level ≤ 32 := by
        unfold nestingLimit at hlevels
        omega
      rw [verifyBelow_succ hlevels, verifyNode_eq_iff (by simp)]
      constructor
      · intro h
        obtain ⟨ms, a, t, rfl, ha, h⟩ := h
        exact breaksOff_of_payload hchild hbreaks hbound ha h
      · intro h
        obtain ⟨ms, a, t, rfl, ha, hpayload⟩ := payload_of_breaksOff hchild hbreaks h
        exact ⟨ms, a, t, rfl, ha, hpayload _ _⟩

theorem verify_eq_imprecise_iff {path : Option String} {n : Json} :
    (verify path n).outcome = .error (.fault .imprecise) ↔ BreaksOff 0 n :=
  verifyBelow_eq_imprecise_iff (Nat.zero_add _)

end Field

namespace Form

open Description

variable [Host]

/-- The verification of a document breaks off: at a field after others, with different names, that
are accepted. -/
def DocumentBreaksOff (document : Json) : Prop :=
  ∃ ms before node after fields, document = .obj ms ∧
    Entries.get? ms "fields" = some (.arr (before ++ node :: after)) ∧
    List.Forall₂ (fun n f => Describes 0 n f ∧ f.Copyable 0) before fields ∧
    (fields.map Field.name).Nodup ∧ BreaksOff 0 node

omit [Host] in
/-- A failure keeps being a failure and a fault a fault when it is placed. -/
theorem mapError_placed_eq_fault_iff {α : Type} {x : Except Stop α} {index : Nat} {e : Fault} :
    x.mapError (placed index) = .error (.fault e) ↔ x = .error (.fault e) :=
  Field.mapError_eq_fault_iff (fun _ => rfl) fun f _ h => by cases f <;> cases h

theorem verifyFields_eq_imprecise_iff {index : Nat} {seen : List String} {nodes : List Json} :
    (verifyFields index seen nodes).outcome = .error (.fault .imprecise) ↔
      ∃ before node after fields, nodes = before ++ node :: after ∧
        List.Forall₂ (fun n f => Describes 0 n f ∧ f.Copyable 0) before fields ∧
        (fields.map Field.name).Nodup ∧ (∀ f ∈ fields, f.name ∉ seen) ∧ BreaksOff 0 node := by
  induction nodes generalizing index seen with
  | nil => simp [verifyFields]
  | cons n rest ih =>
      simp only [verifyFields, Audit.outcome_bind_eq_error_iff, Audit.outcome_mapError,
        mapError_placed_eq_fault_iff, mapError_eq_ok_iff, Field.verify_eq_ok_iff,
        Field.verify_eq_imprecise_iff]
      constructor
      · rintro (h | ⟨f, hf, h⟩)
        · exact ⟨[], n, rest, [], rfl, .nil, List.nodup_nil, by simp, h⟩
        · by_cases hseen : seen.contains f.name = true
          · rw [if_pos hseen] at h
            cases h
          · rw [if_neg hseen] at h
            simp only [Audit.outcome_bind_eq_error_iff, ih, Audit.outcome_pure, reduceCtorEq,
              and_false, exists_false, or_false] at h
            obtain ⟨before, node, after, fields, rfl, hall, hnodup, hnew, hnode⟩ := h
            have hf' : f.name ∉ seen := by simpa using hseen
            obtain ⟨hnodup, hnew⟩ := nodup_names_cons_iff.mpr ⟨hf', hnodup, hnew⟩
            exact ⟨n :: before, node, after, f :: fields, rfl, .cons hf hall, hnodup, hnew, hnode⟩
      · intro h
        obtain ⟨before, node, after, fields, hnodes, hall, hnodup, hnew, hnode⟩ := h
        cases hall with
        | nil =>
            obtain ⟨rfl, -⟩ := List.cons.inj hnodes
            exact .inl hnode
        | @cons m f before fields hf hall =>
            obtain ⟨rfl, rfl⟩ := List.cons.inj hnodes
            obtain ⟨hf', hnodup, hnew⟩ := nodup_names_cons_iff.mp ⟨hnodup, hnew⟩
            refine .inr ⟨f, hf, ?_⟩
            rw [if_neg (by simpa using hf')]
            simp only [Audit.outcome_bind_eq_error_iff, ih, Audit.outcome_pure, reduceCtorEq,
              and_false, exists_false, or_false]
            exact ⟨before, node, after, fields, rfl, hall, hnodup, hnew, hnode⟩

theorem verifyParts_eq_imprecise_iff {document : Json} :
    (verifyParts document).outcome = .error (.fault .imprecise) ↔ DocumentBreaksOff document := by
  unfold verifyParts DocumentBreaksOff
  cases document with
  | obj ms =>
      dsimp only
      split
      · rename_i nodes hnodes
        simp only [hnodes, Audit.outcome_bind_eq_error_iff, verifyFields_eq_imprecise_iff,
          Audit.outcome_ofExcept, mapError_eq_error_iff, Audit.outcome_note, Audit.outcome_pure,
          reduceCtorEq, and_false, exists_false, or_false, List.not_mem_nil, not_false_eq_true,
          implies_true, true_and, Json.obj.injEq, Option.some.injEq, Json.arr.injEq,
          exists_and_left, exists_eq_left']
      · rename_i hne
        apply iff_of_false (by simp)
        intro h
        obtain ⟨_, before, node, after, fields, hms, h, -⟩ := h
        cases hms
        exact hne _ h
  | _ => simp

/-- No other fault than a date text that breaks off is left of the verification of a document. -/
theorem verifyDocument_eq_fault_iff {document : Json} {e : Fault} :
    (verifyDocument document).outcome = .error (.fault e) ↔
      e = .imprecise ∧ DocumentBreaksOff document := by
  rw [verifyDocument, Audit.outcome_mapError, mapError_eq_error_iff,
    ← verifyParts_eq_imprecise_iff]
  constructor
  · intro h
    obtain ⟨s, hs, h⟩ := h
    cases s with
    | failure f => cases h
    | fault fault =>
        cases fault with
        | imprecise =>
            cases h
            exact ⟨rfl, hs⟩
        | storage => cases h
  · intro h
    obtain ⟨rfl, h⟩ := h
    exact ⟨_, h, rfl⟩

end Form

variable [Host]

/-- The verification of a source breaks off: the source holds a document at which it does. -/
def Source.BreaksOff (source : Source) : Prop :=
  ∃ document, source.load = .ok document ∧ Form.DocumentBreaksOff document

namespace Form

omit [Host] in
theorem outcome_documentOf (source : Source) :
    (documentOf source).outcome = source.load.mapError fun _ => .failure .malformed := by
  unfold documentOf
  cases source.load <;> rfl

/-- The verification of a source ends with a verdict unless it breaks off. -/
theorem verify_eq_error_iff {source : Source} {e : Fault} :
    (verify source).outcome = .error e ↔ e = .imprecise ∧ source.BreaksOff := by
  have hx : (documentOf source >>= verifyDocument).outcome = .error (.fault e) ↔
      e = .imprecise ∧ source.BreaksOff := by
    simp only [Audit.outcome_bind_eq_error_iff, outcome_documentOf, mapError_eq_ok_iff,
      mapError_eq_error_iff, reduceCtorEq, and_false, exists_false, false_or,
      verifyDocument_eq_fault_iff, Source.BreaksOff]
    constructor
    · intro h
      obtain ⟨document, hd, he, h⟩ := h
      exact ⟨he, document, hd, h⟩
    · intro h
      obtain ⟨he, document, hd, h⟩ := h
      exact ⟨document, hd, he, h⟩
  rw [← hx]
  simp only [verify]
  cases (documentOf source >>= verifyDocument).outcome with
  | ok form => simp
  | error s => cases s <;> simp

/-- A source with a valid verdict holds a document that describes the form. -/
theorem verify_eq_ok_iff {source : Source} {form : Form} :
    (verify source).outcome = .ok (.ok form) ↔
      ∃ document, source.load = .ok document ∧ Description.DocumentOf document form := by
  have hx : (documentOf source >>= verifyDocument).outcome = .ok form ↔
      ∃ document, source.load = .ok document ∧ Description.DocumentOf document form := by
    simp only [Audit.outcome_bind_eq_ok_iff, outcome_documentOf, mapError_eq_ok_iff,
      verifyDocument, Audit.outcome_mapError, verifyParts_eq_ok_iff]
  rw [← hx]
  simp only [verify]
  cases (documentOf source >>= verifyDocument).outcome with
  | ok form => simp
  | error s => cases s <;> simp

end Form

end Formwork
