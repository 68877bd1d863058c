import Formwork.Proofs.Description.Leaves

/-!
# Verification accepts the grammar

A field is what verification gives for a description exactly if the grammar says that
the description describes it and its rules and defaults can be copied. Each part of
the verification is compared with the rule that it decides; the levels that are left
are the levels that the grammar still allows.
-/

namespace Formwork

theorem FieldType.ofName?_eq_some_iff {s : String} {t : FieldType} :
    ofName? s = some t ↔ s = t.name := by
  constructor
  · intro h
    exact (by simpa using List.find?_some h : t.name = s).symm
  · rintro rfl
    exact ofName?_name t

theorem FieldType.name_injective {s t : FieldType} (h : s.name = t.name) : s = t := by
  have hs := ofName?_name s
  rw [h, ofName?_name] at hs
  exact (Option.some.inj hs).symm

namespace Field

open Checked Description

variable {α : Type} {path name : String} {ms : Members} {a : Attributes}

theorem nameOf?_eq_some_iff {s : String} :
    nameOf? ms = some s ↔ Entries.get? ms "name" = some (.str s) ∧ s ≠ "" := by
  unfold nameOf?
  split
  · rename_i t ht
    by_cases hs : t = ""
    · simp only [ht, hs, if_true, reduceCtorEq, Option.some.injEq, Json.str.injEq, false_iff]
      intro h
      obtain ⟨rfl, hne⟩ := h
      exact hne rfl
    · simp only [ht, hs, if_false, Option.some.injEq, Json.str.injEq, iff_self_and]
      rintro rfl
      exact hs
  · rename_i hne
    simp only [reduceCtorEq, false_iff, not_and]
    intro h
    exact absurd h (hne s)

theorem typeOf?_eq_some_iff {t : FieldType} :
    typeOf? ms = some t ↔ Entries.get? ms "type" = some (.str t.name) := by
  unfold typeOf?
  split
  · rename_i s hs
    simp [hs, FieldType.ofName?_eq_some_iff]
  · rename_i hne
    simpa using hne t.name

@[simp] theorem outcome_refuse {flaw : Flaw} :
    (refuse path name flaw : Audit Stop α).outcome =
      .error (.failure (.field ⟨some (path ++ flaw.suffix), [], name, flaw⟩)) := rfl

theorem checked_eq_ok_iff {x : Checked α} {b : α} :
    (checked path name x).outcome = .ok b ↔ x = .ok b := by
  cases x <;> simp [checked]

theorem faulty_eq_ok_iff {x : Audit Fault α} {b : α} :
    (faulty x).outcome = .ok b ↔ x.outcome = .ok b := by
  simp [faulty]

variable [Host] {level : Nat}

theorem store_eq_ok_iff {f g : Field} :
    (store level f).outcome = .ok g ↔ f = g ∧ g.isStorable level = true := by
  rw [store_eq]
  split
  · rename_i h
    simp only [Audit.outcome_pure, Except.ok.injEq, iff_self_and]
    rintro rfl
    exact h
  · rename_i h
    simp only [Audit.outcome_fail, reduceCtorEq, false_iff, not_and]
    rintro rfl
    exact h

theorem leafOf_eq_ok_iff {default : Option Json} {x : Checked Leaf} {f : Field} :
    (leafOf level path name a default x).outcome = .ok f ↔
      ∃ l, x = .ok l ∧ f = .leaf a l default ∧ f.isStorable level = true := by
  simp only [leafOf, Audit.outcome_bind_eq_ok_iff, checked_eq_ok_iff, store_eq_ok_iff,
    @eq_comm _ f]

/-- The field of a level is a leaf of the type that the members describe, with its authored
default. -/
def LeafFrom (level : Nat) (ms : Members) (a : Attributes) (t : FieldType) (f : Field) : Prop :=
  ∃ l, l.type = t ∧ LeafOf ms l ∧ DefaultFits ms l ∧
    f = .leaf a l (Entries.get? ms "defaultValue") ∧ f.isStorable level = true

theorem leafOf_eq_ok_iff_leafFrom {t : FieldType} {x : Checked Leaf} {f : Field}
    (hx : ∀ l, x = .ok l ↔ l.type = t ∧ LeafOf ms l ∧ DefaultFits ms l) :
    (leafOf level path name a (authoredDefault ms) x).outcome = .ok f ↔
      LeafFrom level ms a t f := by
  simp only [leafOf_eq_ok_iff, LeafFrom, hx, authoredDefault, and_assoc]

theorem choiceOf_eq_ok_iff {t : FieldType} (ht : t = .radio ∨ t = .select) {x : Checked Leaf}
    {f : Field} (hx : ∀ l, x = .ok l ↔ l.type = t ∧ LeafOf ms l) :
    (choiceOf level path name ms a x).outcome = .ok f ↔ LeafFrom level ms a t f := by
  simp only [choiceOf, Audit.outcome_bind_eq_ok_iff, checked_eq_ok_iff, store_eq_ok_iff, hx,
    Audit.outcome_pure, Except.ok.injEq, authoredDefault]
  constructor
  · intro h
    obtain ⟨l, ⟨hl, hm⟩, g, ⟨rfl, hs⟩, _, hd, rfl⟩ := h
    exact ⟨l, hl, hm, (choiceDefault_eq_ok_iff (hl ▸ ht)).mp hd, rfl, hs⟩
  · intro h
    obtain ⟨l, hl, hm, hd, rfl, hs⟩ := h
    exact ⟨l, ⟨hl, hm⟩, _, ⟨rfl, hs⟩, (), (choiceDefault_eq_ok_iff (hl ▸ ht)).mpr hd, rfl⟩

omit [Host] in
/-- A condition for a flaw that is followed by more checks does not hold if all succeed. -/
theorem ite_refuse_eq_ok_iff {β : Type} {p : Prop} [Decidable p] {flaw : Flaw}
    {next : β → Audit Stop α} {x : Audit Stop α} {b : α} :
    (if p then refuse path name flaw >>= next else x).outcome = .ok b ↔
      ¬ p ∧ x.outcome = .ok b := by
  by_cases h : p <;> simp [h, Audit.outcome_bind_eq_ok_iff, -Audit.outcome_bind]

theorem dateOf_eq_ok_iff {f : Field} :
    (dateOf level path name ms a).outcome = .ok f ↔ LeafFrom level ms a .date f := by
  have hfits : ∀ format showTime, DefaultFits ms (.date format showTime) ↔
      ∀ v ∈ Entries.get? ms "defaultValue", DateText.IsDate v := by
    intro format showTime
    simp [DefaultFits, LeafDefault, Leaf.Accepts, Leaf.Contains]
  have hleaf : LeafFrom level ms a .date f ↔
      (∀ v ∈ Entries.get? ms "defaultValue", DateText.IsDate v) ∧
      ∃ format, Says Text ms "format" format ∧ ∃ showTime, Says Truth ms "showTime" showTime ∧
        Field.leaf a (.date format showTime) (Entries.get? ms "defaultValue") = f ∧
          f.isStorable level = true := by
    constructor
    · intro h
      obtain ⟨l, hl, hm, hd, rfl, hs⟩ := h
      cases l with
      | date format showTime =>
          exact ⟨(hfits _ _).mp hd, format, hm.1, showTime, hm.2, rfl, hs⟩
      | _ => cases hl
    · intro h
      obtain ⟨hd, format, hf, showTime, ht, rfl, hs⟩ := h
      exact ⟨.date format showTime, rfl, ⟨hf, ht⟩, (hfits _ _).mpr hd, rfl, hs⟩
  rw [hleaf]
  unfold dateOf authoredDefault
  cases Entries.get? ms "defaultValue" with
  | none =>
      simp only [Audit.outcome_bind_eq_ok_iff, checked_eq_ok_iff, optional_text, optional_bool,
        store_eq_ok_iff, Option.mem_def, reduceCtorEq, false_implies, implies_true, true_and]
  | some v =>
      simp only [Audit.outcome_bind_eq_ok_iff, faulty_eq_ok_iff, ite_refuse_eq_ok_iff,
        checked_eq_ok_iff, optional_text, optional_bool, store_eq_ok_iff, Option.mem_some_iff,
        forall_eq']
      constructor
      · rintro ⟨_ | d, hd, hsome, h⟩
        · exact absurd rfl hsome
        · exact ⟨⟨d, tryDate_eq_some_iff.mp hd⟩, h⟩
      · intro h
        obtain ⟨⟨d, hd⟩, h⟩ := h
        exact ⟨some d, tryDate_eq_some_iff.mpr hd, by simp, h⟩

theorem defaultElements_eq_ok_iff {items : Field} (index : Nat) {vs : List Json} {u : Unit} :
    (defaultElements path name items index vs).outcome = .ok u ↔ ∀ v ∈ vs, items.Accepts v := by
  induction vs generalizing index with
  | nil => simp [defaultElements]
  | cons v rest ih =>
      rw [List.forall_mem_cons, ← ih (index + 1), ← check_eq_none_iff, ← faulty_eq_ok_iff]
      exact Audit.outcome_bind_none_eq_ok_iff (by simp)

theorem arrayDefault_eq_ok_iff {items : Field} {count : Bounds} {default : Option Json} {u : Unit} :
    (arrayDefault path name items count default).outcome = .ok u ↔
      ∀ v ∈ default, ArrayDefault items count v := by
  cases default with
  | none => simp [arrayDefault]
  | some v =>
      simp only [Option.mem_some_iff, forall_eq', ArrayDefault]
      cases v with
      | arr vs =>
          obtain ⟨lower, upper⟩ := count
          cases lower <;> cases upper <;>
            simp [arrayDefault, Bounds.Allows, ite_refuse_eq_ok_iff, defaultElements_eq_ok_iff,
              and_assoc]
      | _ => simp [arrayDefault]

theorem defaultEntries_eq_ok_iff {properties : List (String × Field)}
    {es : List (String × Json)} {u : Unit} :
    (defaultEntries path name properties es).outcome = .ok u ↔
      ∀ e ∈ es, ∃ f, properties.lookup e.1 = some f ∧ f.Accepts e.2 := by
  induction es with
  | nil => simp [defaultEntries]
  | cons e rest ih =>
      obtain ⟨key, v⟩ := e
      rw [List.forall_mem_cons, ← ih, defaultEntries]
      cases properties.lookup key with
      | none => simp
      | some f =>
          simp only [Option.some.injEq, exists_eq_left', ← check_eq_none_iff]
          rw [← faulty_eq_ok_iff]
          exact Audit.outcome_bind_none_eq_ok_iff (by simp)

section Inner

variable {child : String → Json → Audit Stop Field} {inner : Json → Field → Prop}

omit [Host] in
theorem propertiesOf_eq_ok_iff (hchild : ∀ path n f, (child path n).outcome = .ok f ↔ inner n f)
    {nodes : List (String × Json)} {properties : List (String × Field)} :
    (propertiesOf child path name nodes).outcome = .ok properties ↔
      Entries.keys nodes = Entries.keys properties ∧ "" ∉ Entries.keys properties ∧
        ∀ p ∈ nodes.zip properties, inner p.1.2 p.2.2 := by
  induction nodes generalizing properties with
  | nil => cases properties <;> simp [propertiesOf, Entries.keys]
  | cons e rest ih =>
      obtain ⟨key, n⟩ := e
      rw [propertiesOf]
      by_cases hkey : key = ""
      · rw [if_pos hkey]
        apply iff_of_false (by simp)
        intro h
        obtain ⟨hkeys, hnamed, -⟩ := h
        rw [← hkeys] at hnamed
        simp [Entries.keys, hkey] at hnamed
      · simp only [if_neg hkey, Audit.outcome_bind_eq_ok_iff, Audit.outcome_mapError,
          mapError_eq_ok_iff, hchild, ih, Audit.outcome_pure, Except.ok.injEq]
        constructor
        · intro h
          obtain ⟨f, hf, fs, ⟨hkeys, hnamed, hrest⟩, rfl⟩ := h
          have hne : ¬ "" = key := fun h => hkey h.symm
          refine ⟨by simpa [Entries.keys] using hkeys, by simpa [Entries.keys, hne] using hnamed,
            ?_⟩
          rw [List.zip_cons_cons, List.forall_mem_cons]
          exact ⟨hf, hrest⟩
        · intro h
          obtain ⟨hkeys, hnamed, hall⟩ := h
          cases properties with
          | nil => simp [Entries.keys] at hkeys
          | cons q fs =>
              obtain ⟨key', f⟩ := q
              rw [List.zip_cons_cons, List.forall_mem_cons] at hall
              simp only [Entries.keys, List.map_cons, List.cons.injEq, List.mem_cons,
                not_or] at hkeys hnamed
              obtain ⟨rfl, hkeys⟩ := hkeys
              exact ⟨f, hall.1, fs, ⟨hkeys, hnamed.2, hall.2⟩, rfl⟩

/-- The field of a level is an array whose items come from the member for them. -/
def ArrayFrom (level : Nat) (inner : Json → Field → Prop) (ms : Members) (a : Attributes)
    (f : Field) : Prop :=
  ∃ node items count, Entries.get? ms "items" = some node ∧ items.type ≠ .array ∧
    inner node items ∧ BoundsOf ms "minItems" "maxItems" count ∧
    (∀ v ∈ Entries.get? ms "defaultValue", ArrayDefault items count v) ∧
    f = .array a items count (Entries.get? ms "defaultValue") ∧ f.isStorable level = true

theorem arrayOf_eq_ok_iff (hchild : ∀ path n f, (child path n).outcome = .ok f ↔ inner n f)
    (htype : ∀ n f, inner n f →
      ∃ ms, n = .obj ms ∧ Entries.get? ms "type" = some (.str f.type.name)) {f : Field} :
    (arrayOf level child path name ms a).outcome = .ok f ↔ ArrayFrom level inner ms a f := by
  unfold arrayOf ArrayFrom authoredDefault
  split
  · rename_i itemMembers hitems
    have hflat : ∀ items, inner (.obj itemMembers) items →
        (items.type ≠ .array ↔
          ¬ Entries.get? itemMembers "type" = some (.str FieldType.array.name)) := by
      intro items h
      obtain ⟨_, hms, ht⟩ := htype _ _ h
      cases hms
      rw [ht]
      simp only [Option.some.injEq, Json.str.injEq]
      exact not_congr ⟨fun h => h ▸ rfl, FieldType.name_injective⟩
    by_cases harray : Entries.get? itemMembers "type" = some (.str FieldType.array.name)
    · rw [if_pos harray]
      apply iff_of_false (by simp)
      intro h
      obtain ⟨node, items, count, hnode, hne, hi, -⟩ := h
      rw [hitems] at hnode
      cases hnode
      exact (hflat items hi).mp hne harray
    · simp only [if_neg harray, Audit.outcome_bind_eq_ok_iff, Audit.outcome_mapError,
        mapError_eq_ok_iff, hchild, checked_eq_ok_iff, bounds_eq_ok_iff, arrayDefault_eq_ok_iff,
        store_eq_ok_iff]
      constructor
      · intro h
        obtain ⟨items, hi, count, hc, _, hd, rfl, hs⟩ := h
        exact ⟨_, items, count, hitems, (hflat items hi).mpr harray, hi, hc, hd, rfl, hs⟩
      · intro h
        obtain ⟨node, items, count, hnode, -, hi, hc, hd, rfl, hs⟩ := h
        rw [hitems] at hnode
        cases hnode
        exact ⟨items, hi, count, hc, (), hd, rfl, hs⟩
  · rename_i hne
    apply iff_of_false (by simp)
    intro h
    obtain ⟨node, items, count, hnode, -, hi, -⟩ := h
    obtain ⟨itemMembers, rfl, -⟩ := htype _ _ hi
    exact hne itemMembers hnode

/-- The field of a level is an object whose properties come from the member for them. -/
def ObjectFrom (level : Nat) (inner : Json → Field → Prop) (ms : Members) (a : Attributes)
    (f : Field) : Prop :=
  ∃ nodes properties, Entries.get? ms "properties" = some (.obj nodes) ∧
    Entries.keys nodes = Entries.keys properties ∧ "" ∉ Entries.keys properties ∧
    (∀ p ∈ nodes.zip properties, inner p.1.2 p.2.2) ∧
    (∀ v ∈ Entries.get? ms "defaultValue", ObjectDefault properties v) ∧
    f = .object a properties (Entries.get? ms "defaultValue") ∧ f.isStorable level = true

theorem objectOf_eq_ok_iff (hchild : ∀ path n f, (child path n).outcome = .ok f ↔ inner n f)
    {f : Field} :
    (objectOf level child path name ms a).outcome = .ok f ↔ ObjectFrom level inner ms a f := by
  unfold objectOf ObjectFrom authoredDefault
  split
  · rename_i nodes hnodes
    simp only [hnodes, Option.some.injEq, Json.obj.injEq, exists_and_left, exists_eq_left',
      Audit.outcome_bind_eq_ok_iff, propertiesOf_eq_ok_iff hchild, and_assoc]
    refine exists_congr fun properties => and_congr_right fun _ => and_congr_right fun _ =>
      and_congr_right fun _ => ?_
    cases Entries.get? ms "defaultValue" with
    | none => simp [store_eq_ok_iff, @eq_comm _ f]
    | some v =>
        cases v with
        | obj es =>
            simp [Audit.outcome_bind_eq_ok_iff, defaultEntries_eq_ok_iff, store_eq_ok_iff,
              ObjectDefault, @eq_comm _ f, -Audit.outcome_bind]
        | _ => simp [Audit.outcome_bind_eq_ok_iff, ObjectDefault, -Audit.outcome_bind]
  · rename_i hne
    apply iff_of_false (by simp)
    intro h
    obtain ⟨nodes, properties, hnodes, -⟩ := h
    exact hne nodes hnodes

theorem payload_eq_ok_iff (hchild : ∀ path n f, (child path n).outcome = .ok f ↔ inner n f)
    (htype : ∀ n f, inner n f →
      ∃ ms, n = .obj ms ∧ Entries.get? ms "type" = some (.str f.type.name))
    {t : FieldType} {f : Field} :
    (payload level child path name ms a t).outcome = .ok f ↔
      match t with
      | .array => ArrayFrom level inner ms a f
      | .object => ObjectFrom level inner ms a f
      | t => LeafFrom level ms a t f := by
  cases t with
  | string => exact leafOf_eq_ok_iff_leafFrom fun _ => string_eq_ok_iff
  | longtext => exact leafOf_eq_ok_iff_leafFrom fun _ => longtext_eq_ok_iff
  | number => exact leafOf_eq_ok_iff_leafFrom fun _ => number_eq_ok_iff
  | checkbox => exact leafOf_eq_ok_iff_leafFrom fun _ => checkbox_eq_ok_iff
  | radio => exact choiceOf_eq_ok_iff (.inl rfl) fun _ => radio_eq_ok_iff
  | select => exact choiceOf_eq_ok_iff (.inr rfl) fun _ => select_eq_ok_iff
  | upload => exact leafOf_eq_ok_iff_leafFrom fun _ => upload_eq_ok_iff
  | array => exact arrayOf_eq_ok_iff hchild htype
  | object => exact objectOf_eq_ok_iff hchild
  | date => exact dateOf_eq_ok_iff
  | json => exact leafOf_eq_ok_iff_leafFrom fun _ => json_eq_ok_iff

/-- With a name, a type and attributes in order, the outcome is that of what the type adds. -/
theorem verifyNode_of_attributesOf {path : Option String} {t : FieldType}
    (h : AttributesOf ms t a) : (verifyNode level child path (.obj ms)).outcome =
      (payload level child (path.getD a.name) a.name ms a t).outcome := by
  have hname := nameOf?_eq_some_iff.mpr ⟨h.name, h.name_ne⟩
  have htype := typeOf?_eq_some_iff.mpr h.type
  have hshared : Checked.attributes ms a.name = .ok a := attributes_eq_ok_iff.mpr ⟨rfl, h.shared⟩
  simp only [verifyNode, hname, htype, checked, hshared, Audit.outcome_bind, Audit.outcome_pure,
    Audit.outcome_note]
  change ((payload level child (path.getD a.name) a.name ms a t).outcome >>= fun f => .ok f) = _
  cases (payload level child (path.getD a.name) a.name ms a t).outcome <;> rfl

theorem verifyNode_of_not_attributesOf {path : Option String} {n : Json}
    (h : ∀ ms a t, n = .obj ms → ¬ AttributesOf ms t a) :
    ∃ f, (verifyNode level child path n).outcome = .error (.failure f) := by
  cases n with
  | obj ms =>
      simp only [verifyNode]
      cases hname : nameOf? ms with
      | none => exact ⟨_, rfl⟩
      | some name =>
          cases htype : typeOf? ms with
          | none => exact ⟨_, rfl⟩
          | some t =>
              obtain ⟨hget, hne⟩ := nameOf?_eq_some_iff.mp hname
              cases hshared : Checked.attributes ms name with
              | error flaw => exact ⟨_, by simp only [checked, hshared]; rfl⟩
              | ok a =>
                  obtain ⟨rfl, hs⟩ := attributes_eq_ok_iff.mp hshared
                  exact absurd ⟨hget, hne, typeOf?_eq_some_iff.mp htype, hs⟩ (h ms a t rfl)
  | _ => exact ⟨_, rfl⟩

/-- An outcome that is no failure comes from what the type adds. -/
theorem verifyNode_eq_iff {path : Option String} {n : Json} {o : Except Stop Field}
    (ho : ∀ f, o ≠ .error (.failure f)) :
    (verifyNode level child path n).outcome = o ↔
      ∃ ms a t, n = .obj ms ∧ AttributesOf ms t a ∧
        (payload level child (path.getD a.name) a.name ms a t).outcome = o := by
  constructor
  · intro h
    by_cases hattributes : ∃ ms a t, n = .obj ms ∧ AttributesOf ms t a
    · obtain ⟨ms, a, t, rfl, ha⟩ := hattributes
      exact ⟨ms, a, t, rfl, ha, (verifyNode_of_attributesOf ha).symm.trans h⟩
    · have hnone : ∀ ms a t, n = .obj ms → ¬ AttributesOf ms t a :=
        fun ms a t hn ha => hattributes ⟨ms, a, t, hn, ha⟩
      obtain ⟨f, hf⟩ := verifyNode_of_not_attributesOf hnone
      exact absurd (h.symm.trans hf) (ho f)
  · intro h
    obtain ⟨ms, a, t, rfl, ha, h⟩ := h
    exact (verifyNode_of_attributesOf ha).trans h

end Inner

end Field

namespace Description

variable [Host]

theorem Describes.type {level : Nat} {n : Json} {f : Field} (h : Describes level n f) :
    ∃ ms, n = .obj ms ∧ Entries.get? ms "type" = some (.str f.type.name) := by
  cases h with
  | leaf _ attributes => exact ⟨_, rfl, attributes.type⟩
  | array _ attributes => exact ⟨_, rfl, attributes.type⟩
  | object _ attributes => exact ⟨_, rfl, attributes.type⟩

theorem Describes.bound {level : Nat} {n : Json} {f : Field} (h : Describes level n f) :
    level ≤ 32 := by
  cases h <;> assumption

section Nested

variable {P : Json → Prop} {level : Nat} {n : Json} {f : Field}

/-- What lies one level below a field is described by a value that lies in the description, so it
has what passes from objects to the values in them. -/
theorem Describes.child (hP : ∀ ms, P (.obj ms) → ∀ e ∈ ms, P e.2) (h : Describes level n f)
    (hn : P n) : ∀ e ∈ f.children, ∃ m, Describes (level + 1) m e.2 ∧ P m := by
  cases h with
  | leaf => nofun
  | @array _ ms a node items count bound attributes element flat inner =>
      intro e he
      rw [List.mem_singleton.mp he]
      exact ⟨node, inner, hP ms hn _ (Entries.mem_of_get? element)⟩
  | @object _ ms a nodes properties bound attributes element keys named inner =>
      intro e he
      obtain ⟨d, hd, -, hdescribes⟩ :=
        exists_left_of_mem (keys_zip_iff_forall₂.mp ⟨keys, inner⟩) e he
      exact ⟨d.2, hdescribes, hP nodes (hP ms hn _ (Entries.mem_of_get? element)) d hd⟩

/-- Whatever lies in a field that is described is described by something that has it, too. -/
theorem Describes.nested_of (hP : ∀ ms, P (.obj ms) → ∀ e ∈ ms, P e.2) (h : Describes level n f)
    (hn : P n) : ∀ g ∈ f.nested, ∃ level n, Describes level n g ∧ P n := by
  induction f using Field.induct_children generalizing level n with
  | step f ih =>
      intro g hg
      rw [Field.nested_eq_cons, List.mem_cons, List.mem_flatMap] at hg
      rcases hg with rfl | ⟨e, he, hg⟩
      · exact ⟨level, n, h, hn⟩
      · obtain ⟨m, hm, hPm⟩ := h.child hP hn e he
        exact ih e he hm hPm g hg

end Nested

end Description

namespace Field

open Description

/-- All properties are reached through the descriptions with the same keys. -/
theorem forall_zip_iff {nodes : List (String × Json)} {properties : List (String × Field)}
    (hkeys : Entries.keys nodes = Entries.keys properties) (p : Field → Prop) :
    (∀ q ∈ nodes.zip properties, p q.2.2) ↔ ∀ q ∈ properties, p q.2 := by
  constructor
  · intro h q hq
    have hlength : properties.length ≤ nodes.length := by
      have hcount := congrArg List.length hkeys
      simp only [Entries.keys, List.length_map] at hcount
      omega
    rw [← List.map_snd_zip hlength] at hq
    obtain ⟨r, hr, rfl⟩ := List.mem_map.mp hq
    exact h r hr
  · intro h q hq
    exact h q.2 (List.of_mem_zip hq).2

section Level

variable {child : String → Json → Audit Stop Field} {level : Nat} {path name : String}
  {ms : Checked.Members} {a : Attributes}

variable [Host]

/-- If the levels below accept what is described, then so does what a type adds at this level. -/
theorem describes_of_payload
    (hchild : ∀ path n f, (child path n).outcome = .ok f ↔
      Describes (level + 1) n f ∧ f.Copyable (level + 1))
    (hbound : level ≤ 32) {t : FieldType} {f : Field} (ha : AttributesOf ms t a)
    (h : (payload level child path name ms a t).outcome = .ok f) :
    Describes level (.obj ms) f ∧ f.Copyable level := by
  rw [payload_eq_ok_iff hchild fun n f h => h.1.type] at h
  cases t with
  | array =>
      obtain ⟨node, items, count, hitems, hflat, ⟨hi, hc⟩, hcount, hd, rfl, hs⟩ := h
      exact ⟨.array hbound ha hitems hflat hi hcount hd, copyable_array.mpr ⟨hs, hc⟩⟩
  | object =>
      obtain ⟨nodes, properties, hnodes, hkeys, hnamed, hall, hd, rfl, hs⟩ := h
      have hc := (forall_zip_iff hkeys (Copyable (level + 1))).mp fun p hp => (hall p hp).2
      exact ⟨.object hbound ha hnodes hkeys hnamed (fun p hp => (hall p hp).1) hd,
        copyable_object.mpr ⟨hs, hc⟩⟩
  | _ =>
      obtain ⟨l, hl, hm, hd, rfl, hs⟩ := h
      exact ⟨.leaf hbound (hl ▸ ha) hm hd, copyable_leaf.mpr hs⟩

/-- What a type adds gives the field that is described, if the levels below do. -/
theorem payload_of_describes
    (hchild : ∀ path n f, (child path n).outcome = .ok f ↔
      Describes (level + 1) n f ∧ f.Copyable (level + 1))
    {n : Json} {f : Field} (h : Describes level n f) (hc : f.Copyable level) :
    ∃ ms a t, n = .obj ms ∧ AttributesOf ms t a ∧
      ∀ path name, (payload level child path name ms a t).outcome = .ok f := by
  simp only [payload_eq_ok_iff hchild fun n f h => h.1.type]
  cases h with
  | @leaf _ ms a l _ attributes payload default =>
      have hl : LeafFrom level ms a l.type (.leaf a l (Entries.get? ms "defaultValue")) :=
        ⟨l, rfl, payload, default, rfl, copyable_leaf.mp hc⟩
      refine ⟨ms, a, l.type, rfl, attributes, fun _ _ => ?_⟩
      cases l <;> exact hl
  | array _ attributes element flat inner length default =>
      obtain ⟨hs, hi⟩ := copyable_array.mp hc
      exact ⟨_, _, .array, rfl, attributes, fun _ _ => ⟨_, _, _, element, flat, ⟨inner, hi⟩,
        length, default, rfl, hs⟩⟩
  | object _ attributes element keys named inner default =>
      obtain ⟨hs, hi⟩ := copyable_object.mp hc
      have hall := (forall_zip_iff keys (Copyable (level + 1))).mpr hi
      exact ⟨_, _, .object, rfl, attributes, fun _ _ => ⟨_, _, element, keys, named,
        fun p hp => ⟨inner p hp, hall p hp⟩, default, rfl, hs⟩⟩

end Level

section Host

variable [Host]

/-- What is left of the levels tells at which one a description is. -/
theorem verifyBelow_succ {levels level : Nat} (hlevels : level + (levels + 1) = nestingLimit + 1)
    (path : Option String) (n : Json) :
    verifyBelow (levels + 1) path n =
      verifyNode level (fun path n => verifyBelow levels (some path) n) path n := by
  have hlevel : nestingLimit - levels = level := by omega
  rw [verifyBelow, hlevel]

/-- The levels that are left at a level are used exactly as the grammar allows. -/
theorem verifyBelow_eq_ok_iff {levels level : Nat} (hlevels : level + levels = nestingLimit + 1)
    {path : Option String} {n : Json} {f : Field} :
    (verifyBelow levels path n).outcome = .ok f ↔ Describes level n f ∧ f.Copyable level := by
  induction levels generalizing level path n f with
  | zero =>
      refine iff_of_false (by simp [verifyBelow]) ?_
      intro h
      obtain ⟨h, -⟩ := h
      have hbound := h.bound
      unfold nestingLimit at hlevels
      omega
  | succ levels ih =>
      have hchild : ∀ path n f, (verifyBelow levels (some path) n).outcome = .ok f ↔
          Describes (level + 1) n f ∧ f.Copyable (level + 1) := fun path n f => ih (by omega)
      have hbound : level ≤ 32 := by
        unfold nestingLimit at hlevels
        omega
      rw [verifyBelow_succ hlevels, verifyNode_eq_iff (by simp)]
      constructor
      · intro h
        obtain ⟨ms, a, t, rfl, ha, h⟩ := h
        exact describes_of_payload hchild hbound ha h
      · intro h
        obtain ⟨h, hc⟩ := h
        obtain ⟨ms, a, t, rfl, ha, hpayload⟩ := payload_of_describes hchild h hc
        exact ⟨ms, a, t, rfl, ha, hpayload _ _⟩

theorem verify_eq_ok_iff {path : Option String} {n : Json} {f : Field} :
    (verify path n).outcome = .ok f ↔ Describes 0 n f ∧ f.Copyable 0 :=
  verifyBelow_eq_ok_iff (Nat.zero_add _)

/-- On every host verification accepts exactly the descriptions that the grammar derives for fields
whose rules and defaults, at any depth, can be copied at their levels. -/
theorem verify_accepts_iff (path : Option String) (n : Json) :
    (∃ f, (verify path n).outcome = .ok f) ↔ ∃ f, Describes 0 n f ∧ f.Copyable 0 := by
  simp only [verify_eq_ok_iff]

end Host

/-- Lists, one in another. -/
def nestedLists : Nat → Json
  | 0 => .arr []
  | levels + 1 => .arr [nestedLists levels]

theorem height_nestedLists (levels : Nat) : (nestedLists levels).height = levels + 1 := by
  induction levels with
  | zero => simp [nestedLists, Json.height, Json.heightList]
  | succ levels ih =>
      simp only [nestedLists, Json.height, Json.heightList, ih]
      omega

theorem nestedLists_eq_arr (levels : Nat) : ∃ vs, nestedLists levels = .arr vs := by
  cases levels <;> exact ⟨_, rfl⟩

/-- The description of an upload whose default has many levels. -/
def deepUpload : Json :=
  .obj [("name", .str "u"), ("type", .str "upload"), ("defaultValue", nestedLists 699)]

attribute [local instance] Host.standard in
/-- The grammar derives the deep upload, but the standard host has no room for a copy of its
default. -/
theorem deepUpload_refused :
    Derivable 0 deepUpload ∧ ¬ ∃ f, (verify none deepUpload).outcome = .ok f := by
  constructor
  · refine ⟨.leaf ⟨"u", none, none, none, none, none, none, none⟩
      (.upload none none none none none) (some (nestedLists 699)), ?_⟩
    refine Describes.leaf (by decide) ⟨rfl, by decide, rfl, ?_⟩ ?_ ?_
    · constructor <;> simp [Says, CardMember, Entries.get?_cons]
    · simp [LeafOf, Says, Entries.get?_cons]
    · intro v hv
      have hlists : nestedLists 699 = v := by simpa [Entries.get?_cons] using hv
      exact ⟨hlists ▸ nestedLists_eq_arr 699, trivial⟩
  · intro h
    obtain ⟨f, hf⟩ := h
    obtain ⟨h, hc⟩ := verify_eq_ok_iff.mp hf
    have hs := hc.storable
    rw [isStorable, h.default, Bool.and_eq_true, decide_eq_true_iff] at hs
    have hroom : 700 ≤ Host.defaultRoom 0 := by
      simpa [Entries.get?_cons, height_nestedLists] using hs.2
    exact absurd hroom (by decide)

end Field

end Formwork
