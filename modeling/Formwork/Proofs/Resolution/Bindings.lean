import Formwork.Proofs.Resolution.Defaults
import Formwork.Resolution.Basic

/-!
# Bindings of inputs and of defaults

The descriptors of a form bind the properties of objects at any depth to their own keys.
The extraction of defaults goes into the objects at the top only, and there it treats
objects like other properties. The keys of both are compared here, outside of arrays.
-/

namespace Formwork

namespace Descriptor

mutual

/-- The inputs that lie outside of all arrays, each before those that it encloses. -/
def outer : Descriptor → List Descriptor
  | .node w cs => .node w cs :: match w.field with
    | .array _ _ _ _ => []
    | _ => outerAll cs

/-- The inputs of several trees that lie outside of all arrays. -/
def outerAll : List Descriptor → List Descriptor
  | [] => []
  | d :: rest => d.outer ++ outerAll rest

end

end Descriptor

namespace Field

mutual

/-- The field under a key, and the fields that lie in it outside of arrays under their own keys. -/
def outer (key : String) : Field → List (String × Field)
  | .leaf a l d => [(key, .leaf a l d)]
  | .array a items count d => [(key, .array a items count d)]
  | .object a properties d => (key, .object a properties d) :: outerIn properties

/-- The properties, and the fields that lie in them outside of arrays, under their own keys. -/
def outerIn : List (String × Field) → List (String × Field)
  | [] => []
  | (key, f) :: rest => f.outer key ++ outerIn rest

end

theorem mem_outerIn {q : String × Field} {properties : List (String × Field)} :
    q ∈ outerIn properties ↔ ∃ p ∈ properties, q ∈ p.2.outer p.1 := by
  induction properties with
  | nil => simp [outerIn]
  | cons p rest ih => simp [outerIn, ih]

/-- Outside of arrays a descriptor binds every field to its own key. -/
theorem map_outer_describe {s : Surroundings} {p : Place} {f : Field} (hp : p.inArray = false) :
    (f.describe s p).outer.map (fun d => (d.widget.binding, d.widget.field)) =
      f.outer p.binding := by
  induction f generalizing p with
  | leaf a l d => rfl
  | array a items count d ih => rfl
  | object a properties d ih =>
      have hall : (Descriptor.outerAll (describeProperties s p properties)).map
          (fun d => (d.widget.binding, d.widget.field)) = outerIn properties := by
        induction properties with
        | nil => rfl
        | cons q rest ihrest =>
            obtain ⟨key, f⟩ := q
            rw [List.forall_mem_cons] at ih
            have hplace : (p.property key).inArray = false := hp
            have hkey : (p.property key).binding = key := by simp [Place.property, hp]
            rw [describeProperties, Descriptor.outerAll, List.map_append, ih.1 hplace, hkey,
              ihrest ih.2, outerIn]
      rw [describe, outer, ← hall]
      rfl

/-- The fields that lie in an object within the field, outside of arrays, under their own keys. -/
def buried : Field → List (String × Field)
  | .object _ properties _ => properties.flatMap fun p =>
    match p.2 with
    | .object _ inner _ => outerIn inner
    | _ => []
  | _ => []

/-- Apart from objects, what lies outside of arrays is bound or lies in an object within. -/
theorem mem_outer_iff {f : Field} {q : String × Field} (hq : q.2.type ≠ .object) :
    q ∈ f.outer f.name ↔ q ∈ f.bound ∨ q ∈ f.buried := by
  cases f with
  | leaf a l d => simp [outer, bound, buried]
  | array a items count d => simp [outer, bound, buried]
  | object a properties d =>
      have hself : ∀ key, q ≠ (key, .object a properties d) := by
        rintro key rfl
        exact hq rfl
      simp only [outer, List.mem_cons, hself, false_or, mem_outerIn, bound, buried,
        List.mem_flatMap]
      constructor
      · intro h
        obtain ⟨⟨key, p⟩, hp, h⟩ := h
        cases p with
        | object b inner e =>
            rw [outer, List.mem_cons] at h
            rcases h with rfl | h
            · exact absurd rfl hq
            · exact .inr ⟨_, hp, h⟩
        | leaf b l e =>
            cases List.mem_singleton.mp h
            exact .inl hp
        | array b items count e =>
            cases List.mem_singleton.mp h
            exact .inl hp
      · rintro (h | ⟨⟨key, p⟩, hp, h⟩)
        · refine ⟨q, h, ?_⟩
          obtain ⟨key, p⟩ := q
          cases p with
          | object b inner e => exact absurd rfl hq
          | leaf b l e => exact List.mem_singleton.mpr rfl
          | array b items count e => exact List.mem_singleton.mpr rfl
        · cases p with
          | object b inner e => exact ⟨_, hp, List.mem_cons_of_mem _ h⟩
          | leaf b l e => cases h
          | array b items count e => cases h

variable [Host]

/-- Under a reference under which its date can be read, a field gives a value if it has a
default. -/
theorem initialValue_of_readable {reference : DateTime} (key : String) {f : Field}
    (hdate : ∀ v, f.dateDefault = some v → ∃ d, DateText.parse reference v = .ok d) :
    ∃ o, (f.initialValue reference key).outcome = .ok o ∧
      o.isSome = f.effectiveDefault.isSome := by
  cases hv : f.dateDefault with
  | none => exact ⟨_, by rw [initialValue_of_no_dateDefault hv]; rfl, by simp⟩
  | some v =>
      obtain ⟨d, hd⟩ := hdate v hv
      refine ⟨some (.date d), ?_, ?_⟩
      · rw [initialValue_of_dateDefault hv, tryDate_eq_some_iff.mpr hd]
        rfl
      · cases f with
        | leaf a l d =>
            cases l with
            | date format showTime => exact (congrArg Option.isSome hv).symm
            | _ => cases hv
        | _ => cases hv

end Field

namespace Form

section

variable [Host]

/-- If all dates can be read, the keys that are set are those of the fields with a default. -/
theorem mem_keys_setDefaults {reference : DateTime} {bindings : List (String × Field)}
    (hdates : ∀ p ∈ bindings, ∀ v, p.2.dateDefault = some v →
      ∃ d, DateText.parse reference v = .ok d) (values : InitialValues) :
    ∃ result, (setDefaults reference values bindings).outcome = .ok result ∧
      ∀ key, key ∈ Entries.keys result ↔ key ∈ Entries.keys values ∨
        ∃ p ∈ bindings, p.1 = key ∧ p.2.effectiveDefault.isSome = true := by
  induction bindings generalizing values with
  | nil => exact ⟨values, rfl, by simp⟩
  | cons p rest ih =>
      obtain ⟨key, f⟩ := p
      rw [List.forall_mem_cons] at hdates
      obtain ⟨o, ho, hsome⟩ := Field.initialValue_of_readable key hdates.1
      simp only [setDefaults, Audit.outcome_bind_eq_ok_iff, ho, Except.ok.injEq, exists_eq_left']
      cases o with
      | none =>
          obtain ⟨result, hresult, hkeys⟩ := ih hdates.2 values
          refine ⟨result, hresult, fun other => ?_⟩
          have hnone : f.effectiveDefault.isSome = false := hsome.symm
          rw [hkeys, List.exists_mem_cons_iff]
          simp [hnone]
      | some v =>
          obtain ⟨result, hresult, hkeys⟩ := ih hdates.2 (Entries.set values key v)
          refine ⟨result, hresult, fun other => ?_⟩
          have hdefault : f.effectiveDefault.isSome = true := hsome.symm
          rw [hkeys, Entries.mem_keys_set, List.exists_mem_cons_iff]
          simp [hdefault, or_assoc, @eq_comm _ other key]

/-- The keys of the defaults are those of the fields that bind values and have a default. -/
theorem mem_keys_defaults {form : Form} {reference : DateTime}
    (hdates : ∀ f ∈ form.fields, ∀ g ∈ f.nested, ∀ v, g.dateDefault = some v →
      ∃ d, DateText.parse reference v = .ok d) :
    ∃ defaults, (form.defaults reference).outcome = .ok defaults ∧
      ∀ key, key ∈ Entries.keys defaults ↔
        ∃ p ∈ form.fields.flatMap Field.bound, p.1 = key ∧
          p.2.effectiveDefault.isSome = true := by
  have hbound : ∀ p ∈ form.fields.flatMap Field.bound, ∀ v, p.2.dateDefault = some v →
      ∃ d, DateText.parse reference v = .ok d := by
    intro p hp v hv
    obtain ⟨f, hf, hp⟩ := List.mem_flatMap.mp hp
    exact hdates f hf p.2 (Field.mem_nested_of_mem_bound hp) v hv
  obtain ⟨defaults, hdefaults, hkeys⟩ := mem_keys_setDefaults hbound []
  refine ⟨defaults, ?_, fun key => ?_⟩
  · simp only [Form.defaults, Audit.outcome_bind_eq_ok_iff, Audit.outcome_note,
      Audit.outcome_pure, Except.ok.injEq]
    exact ⟨defaults, hdefaults, (), trivial, rfl⟩
  · rw [hkeys]
    simp [Entries.keys]

/-- An input outside of all arrays that is no object has a default and is bound to the key. -/
def BindsDefault (tree : List Descriptor) (key : String) : Prop :=
  ∃ d ∈ Descriptor.outerAll tree, d.widget.binding = key ∧ d.widget.field.type ≠ .object ∧
    d.widget.field.effectiveDefault.isSome = true

omit [Host] in
theorem map_outerAll_describe (options : Options) (values : InitialValues) (form : Form) :
    (Descriptor.outerAll (form.describe options values)).map
        (fun d => (d.widget.binding, d.widget.field)) =
      form.fields.flatMap fun f => f.outer f.name := by
  unfold describe
  induction form.fields with
  | nil => rfl
  | cons f rest ih =>
      rw [List.map_cons, Descriptor.outerAll, List.map_append, ih, List.flatMap_cons]
      exact congrArg (· ++ _) (Field.map_outer_describe rfl)

omit [Host] in
/-- The inputs that bind defaults are fields that bind values, or lie in objects within objects. -/
theorem bindsDefault_iff {options : Options} {values : InitialValues} {form : Form} {key : String} :
    BindsDefault (form.describe options values) key ↔
      ∃ q, (q ∈ form.fields.flatMap Field.bound ∨ q ∈ form.fields.flatMap Field.buried) ∧
        q.1 = key ∧ q.2.type ≠ .object ∧ q.2.effectiveDefault.isSome = true := by
  have houter : BindsDefault (form.describe options values) key ↔
      ∃ q ∈ form.fields.flatMap fun f => f.outer f.name,
        q.1 = key ∧ q.2.type ≠ .object ∧ q.2.effectiveDefault.isSome = true := by
    rw [← map_outerAll_describe options values]
    simp only [List.mem_map, exists_exists_and_eq_and]
    rfl
  rw [houter]
  refine exists_congr fun q => ?_
  simp only [List.mem_flatMap]
  constructor
  · intro h
    obtain ⟨⟨f, hf, hq⟩, hkey, hobject, hdefault⟩ := h
    refine ⟨?_, hkey, hobject, hdefault⟩
    rcases (Field.mem_outer_iff hobject).mp hq with hq | hq
    · exact .inl ⟨f, hf, hq⟩
    · exact .inr ⟨f, hf, hq⟩
  · rintro ⟨⟨f, hf, hq⟩ | ⟨f, hf, hq⟩, hkey, hobject, hdefault⟩
    · exact ⟨⟨f, hf, (Field.mem_outer_iff hobject).mpr (.inl hq)⟩, hkey, hobject, hdefault⟩
    · exact ⟨⟨f, hf, (Field.mem_outer_iff hobject).mpr (.inr hq)⟩, hkey, hobject, hdefault⟩

/-- Every default of an input in an object within an object also has a key that is set. -/
def BuriedDefaultsSet (form : Form) (defaults : InitialValues) : Prop :=
  ∀ q ∈ form.fields.flatMap Field.buried, q.2.type ≠ .object →
    q.2.effectiveDefault.isSome = true → q.1 ∈ Entries.keys defaults

/-- Every default of an object within an object has a key that an input other than an object binds
with a default of its own. -/
def ObjectDefaultsBound (form : Form) (tree : List Descriptor) : Prop :=
  ∀ p ∈ form.fields.flatMap Field.bound, p.2.type = .object →
    p.2.effectiveDefault.isSome = true → BindsDefault tree p.1

/-- The keys of the defaults of a form are those of the fields that bind values and have a default.
They are the bindings of the inputs with defaults outside of arrays exactly if objects within
objects make no difference. -/
theorem keys_defaults_eq_bindings_iff (options : Options) (values : InitialValues) (form : Form)
    (reference : DateTime)
    (hdates : ∀ f ∈ form.fields, ∀ g ∈ f.nested, ∀ v, g.dateDefault = some v →
      ∃ d, DateText.parse reference v = .ok d) :
    ∃ defaults, (form.defaults reference).outcome = .ok defaults ∧
      (∀ key, key ∈ Entries.keys defaults ↔
        ∃ p ∈ form.fields.flatMap Field.bound, p.1 = key ∧
          p.2.effectiveDefault.isSome = true) ∧
      ((∀ key, key ∈ Entries.keys defaults ↔
          BindsDefault (form.describe options values) key) ↔
        form.BuriedDefaultsSet defaults ∧
          form.ObjectDefaultsBound (form.describe options values)) := by
  obtain ⟨defaults, hdefaults, hset⟩ := mem_keys_defaults hdates
  refine ⟨defaults, hdefaults, hset, ?_⟩
  constructor
  · intro hall
    constructor
    · intro q hq hobject hdefault
      exact (hall q.1).mpr (bindsDefault_iff.mpr ⟨q, .inr hq, rfl, hobject, hdefault⟩)
    · intro p hp hobject hdefault
      exact (hall p.1).mp ((hset p.1).mpr ⟨p, hp, rfl, hdefault⟩)
  · rintro ⟨hburied, hobjects⟩ key
    constructor
    · intro hkey
      obtain ⟨p, hp, rfl, hdefault⟩ := (hset key).mp hkey
      by_cases hobject : p.2.type = .object
      · exact hobjects p hp hobject hdefault
      · exact bindsDefault_iff.mpr ⟨p, .inl hp, rfl, hobject, hdefault⟩
    · intro h
      obtain ⟨q, hq | hq, rfl, hobject, hdefault⟩ := bindsDefault_iff.mp h
      · exact (hset q.1).mpr ⟨q, hq, rfl, hdefault⟩
      · exact hburied q hq hobject hdefault

end

/-- A form with a date in an object at the top. -/
def datedForm : Form :=
  ⟨[.object ⟨"o", none, none, none, none, none, none, none⟩
    [("d", .leaf ⟨"d", none, none, none, none, none, none, none⟩ (.date none none)
      (some (.str "2024-05-06")))] none], none⟩

attribute [local instance] Host.standard in
/-- With objects at the top only, the defaults have the keys of the inputs. -/
theorem keys_defaults_datedForm :
    (∀ f ∈ datedForm.fields, ∀ g ∈ f.nested, ∀ v, g.dateDefault = some v →
      ∃ d, DateText.parse .epoch v = .ok d) ∧
    ∃ defaults, (datedForm.defaults .epoch).outcome = .ok defaults ∧
      ∀ key, key ∈ Entries.keys defaults ↔
        BindsDefault (datedForm.describe .standard []) key := by
  have hdates : ∀ f ∈ datedForm.fields, ∀ g ∈ f.nested, ∀ v, g.dateDefault = some v →
      ∃ d, DateText.parse .epoch v = .ok d := by
    intro f hf g hg v hv
    cases List.mem_singleton.mp hf
    simp only [Field.nested, Field.nestedIn, List.append_nil, List.mem_cons, List.not_mem_nil,
      or_false] at hg
    rcases hg with rfl | rfl
    · cases hv
    · cases hv
      exact ⟨_, rfl⟩
  obtain ⟨defaults, hdefaults, -, hiff⟩ :=
    keys_defaults_eq_bindings_iff .standard [] datedForm .epoch hdates
  refine ⟨hdates, defaults, hdefaults, hiff.mpr ⟨?_, ?_⟩⟩
  · intro q hq
    simp [datedForm, Field.buried] at hq
  · intro p hp hobject
    simp only [datedForm, Field.bound, List.flatMap_cons, List.flatMap_nil, List.append_nil,
      List.mem_singleton] at hp
    rw [hp] at hobject
    cases hobject

/-- A form with an input in an object within an object. -/
def nestedForm : Form :=
  ⟨[.object ⟨"o", none, none, none, none, none, none, none⟩
    [("p", .object ⟨"p", none, none, none, none, none, none, none⟩
      [("q", .leaf ⟨"q", none, none, none, none, none, none, none⟩ (.string ⟨none, none⟩)
        (some (.str "x")))] none)] none], none⟩

attribute [local instance] Host.standard in
/-- The input of the nested form has a default and a binding, but no value is set for it. -/
theorem defaults_nestedForm :
    (verifyParts nestedForm.toJson).outcome = .ok nestedForm ∧
      (nestedForm.defaults .epoch).outcome = .ok [] ∧
      BindsDefault (nestedForm.describe .standard []) "q" := by
  refine ⟨rfl, rfl, ?_⟩
  rw [bindsDefault_iff]
  refine ⟨("q", .leaf ⟨"q", none, none, none, none, none, none, none⟩ (.string ⟨none, none⟩)
    (some (.str "x"))), .inr ?_, rfl, by decide, rfl⟩
  exact List.mem_flatMap.mpr ⟨_, List.mem_singleton.mpr rfl, List.mem_singleton.mpr rfl⟩

end Form

end Formwork
