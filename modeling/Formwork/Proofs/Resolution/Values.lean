import Formwork.Proofs.Entries
import Formwork.Proofs.Resolution.Bindings

/-!
# The value under a key

Initial values are set one after another, so a key has the value that was set for it last.
The fields that bind values come first, in their order, and the values of the caller after
them. Every input outside of arrays reads its initial value under the key that it is bound to.
-/

namespace Formwork

namespace Field

variable [Host]

/-- The value that a field gives: its default, which is read if the field is a date. -/
def given? (reference : DateTime) (f : Field) : Option InitialValue :=
  match f.dateDefault with
  | some v => (DateText.parse reference v).toOption.map .date
  | none => f.effectiveDefault.map .json

theorem given?_of_dateDefault {reference : DateTime} {f : Field} {v : Json}
    (hv : f.dateDefault = some v) :
    f.given? reference = (DateText.parse reference v).toOption.map .date := by
  rw [given?, hv]

theorem given?_of_no_dateDefault {reference : DateTime} {f : Field}
    (hf : f.dateDefault = none) : f.given? reference = f.effectiveDefault.map .json := by
  rw [given?, hf]

theorem given?_of_initialValue {reference : DateTime} {key : String} {f : Field}
    {o : Option InitialValue} (h : (f.initialValue reference key).outcome = .ok o) :
    f.given? reference = o := by
  cases hv : f.dateDefault with
  | none =>
      rw [initialValue_of_no_dateDefault hv] at h
      rw [given?_of_no_dateDefault hv]
      exact Except.ok.inj h
  | some v =>
      rw [initialValue_of_dateDefault hv, tryDate_outcome] at h
      rw [given?_of_dateDefault hv]
      cases hp : DateText.parse reference v with
      | ok d =>
          rw [hp] at h
          exact Except.ok.inj h
      | error e =>
          rw [hp] at h
          cases e with
          | rejected reason => exact Except.ok.inj h
          | imprecise => cases h

/-- Only a date gives a value that is a date, and it is what its default reads as. -/
theorem given?_eq_date_iff {reference d : DateTime} {f : Field} :
    f.given? reference = some (.date d) ↔
      ∃ v, f.dateDefault = some v ∧ DateText.parse reference v = .ok d := by
  cases hv : f.dateDefault with
  | none => simp [given?_of_no_dateDefault hv]
  | some v =>
      rw [given?_of_dateDefault hv]
      cases hp : DateText.parse reference v <;> simp [Except.toOption, hp]

omit [Host] in
/-- Any input below a field is the input of a field that lies in it, at a place of its own. -/
theorem widgetAt_of_mem_walk {s : Surroundings} {p : Place} {f : Field} {e : Descriptor}
    (he : e ∈ (f.describe s p).walk) : ∃ g ∈ f.nested, ∃ q, e.widget = g.widgetAt s q := by
  induction f generalizing p e with
  | leaf a l d =>
      rw [describe, Descriptor.walk, Descriptor.walkAll, List.mem_singleton] at he
      exact ⟨_, self_mem_nested _, p, by rw [he]; rfl⟩
  | array a items count d ih =>
      rw [describe, Descriptor.walk, Descriptor.walkAll, Descriptor.walkAll, List.append_nil,
        List.mem_cons] at he
      rcases he with rfl | he
      · exact ⟨_, self_mem_nested _, p, rfl⟩
      · obtain ⟨g, hg, q, hw⟩ := ih he
        exact ⟨g, List.mem_cons_of_mem _ hg, q, hw⟩
  | object a properties d ih =>
      have hall : ∀ e ∈ Descriptor.walkAll (describeProperties s p properties),
          ∃ g ∈ nestedIn properties, ∃ q, e.widget = g.widgetAt s q := by
        clear he
        intro e he
        induction properties with
        | nil => cases he
        | cons property rest ihrest =>
            obtain ⟨key, f⟩ := property
            rw [List.forall_mem_cons] at ih
            rw [describeProperties, Descriptor.walkAll, List.mem_append] at he
            rw [nestedIn]
            rcases he with he | he
            · obtain ⟨g, hg, q, hw⟩ := ih.1 he
              exact ⟨g, List.mem_append_left _ hg, q, hw⟩
            · obtain ⟨g, hg, q, hw⟩ := ihrest ih.2 he
              exact ⟨g, List.mem_append_right _ hg, q, hw⟩
      rw [describe, Descriptor.walk, List.mem_cons] at he
      rcases he with rfl | he
      · exact ⟨_, self_mem_nested _, p, rfl⟩
      · obtain ⟨g, hg, q, hw⟩ := hall e he
        exact ⟨g, List.mem_cons_of_mem _ hg, q, hw⟩

end Field

namespace Form

variable [Host]

/-- The values that the fields of a form give, in order, each under the key that it binds. -/
def given (reference : DateTime) (form : Form) : InitialValues :=
  (form.fields.flatMap Field.bound).filterMap fun p => (p.2.given? reference).map fun v => (p.1, v)

/-- The field is the last one among those that give a value under the key. -/
def GivesLast (reference : DateTime) (form : Form) (key : String) (f : Field) : Prop :=
  ∃ before after, form.fields.flatMap Field.bound = before ++ (key, f) :: after ∧
    (f.given? reference).isSome = true ∧
    ∀ p ∈ after, p.1 = key → p.2.given? reference = none

theorem last?_given_eq_some_iff {reference : DateTime} {form : Form} {key : String}
    {v : InitialValue} :
    Entries.last? (form.given reference) key = some v ↔
      ∃ f, form.GivesLast reference key f ∧ f.given? reference = some v := by
  rw [given, Entries.last?_filterMap_eq_some_iff]
  constructor
  · rintro ⟨before, f, after, hes, hf, hafter⟩
    exact ⟨f, ⟨before, after, hes, by rw [hf]; rfl, hafter⟩, hf⟩
  · rintro ⟨f, ⟨before, after, hes, -, hafter⟩, hf⟩
    exact ⟨before, f, after, hes, hf, hafter⟩

/-- What gives a value last under a key is a field of the form that binds the key. -/
theorem GivesLast.mem {reference : DateTime} {form : Form} {key : String} {f : Field}
    (h : form.GivesLast reference key f) : (key, f) ∈ form.fields.flatMap Field.bound := by
  obtain ⟨before, after, hes, -⟩ := h
  rw [hes]
  exact List.mem_append_right _ List.mem_cons_self

theorem setDefaults_eq_merge {reference : DateTime} {values result : InitialValues}
    {bindings : List (String × Field)}
    (h : (setDefaults reference values bindings).outcome = .ok result) :
    result = Entries.merge values
      (bindings.filterMap fun p => (p.2.given? reference).map fun v => (p.1, v)) := by
  induction bindings generalizing values with
  | nil => exact (Except.ok.inj h).symm
  | cons p rest ih =>
      obtain ⟨key, f⟩ := p
      rw [setDefaults, Audit.outcome_bind_eq_ok_iff] at h
      obtain ⟨o, ho, h⟩ := h
      have hgiven := Field.given?_of_initialValue ho
      cases o with
      | none =>
          rw [List.filterMap_cons_none (by simp [hgiven])]
          exact ih h
      | some v =>
          rw [List.filterMap_cons_some (by simp [hgiven]; rfl)]
          exact ih h

/-- The defaults of a form are the values that its fields give, set one after another. -/
theorem defaults_eq_merge {reference : DateTime} {form : Form} {values : InitialValues}
    (h : (form.defaults reference).outcome = .ok values) :
    values = Entries.merge [] (form.given reference) := by
  simp only [defaults, Audit.outcome_bind_eq_ok_iff, Audit.outcome_note, Audit.outcome_pure,
    Except.ok.injEq] at h
  obtain ⟨result, hresult, -, -, rfl⟩ := h
  exact setDefaults_eq_merge hresult

/-- The values of the caller as members of an object; without a caller there are none. -/
abbrev Overrides := Option (List (String × Json))

/-- How a source is resolved: its document describes the form, the values are those of the fields
with those of the caller after them, and the inputs are described with these values. -/
structure Resolves (options : Options) (initial : Overrides) (source : Source)
    (r : Resolution) : Prop where
  document : ∃ document, source.load = .ok document ∧ Description.DocumentOf document r.form
  copyable : copyable (initial.map .obj) = true
  values : r.values = Entries.merge (Entries.merge [] (r.form.given options.dateReference))
    (Entries.mapValues .json (initial.getD []))
  tree : r.tree = r.form.describe options r.values

omit [Host] in
theorem overridesOf_eq_ok {initial : Overrides} :
    overridesOf (initial.map .obj) = .ok (Entries.mapValues .json (initial.getD [])) := by
  cases initial <;> rfl

/-- A form is resolved with values that can be copied: they are set over the values that its fields
give, and its inputs are described with the outcome. -/
theorem eq_of_resolveWith {options : Options} {initial : Overrides} {form : Form} {r : Resolution}
    (h : (form.resolveWith options (initial.map .obj)).outcome = .ok r) :
    Form.copyable (initial.map .obj) = true ∧ r.form = form ∧
      r.values = Entries.merge (Entries.merge [] (form.given options.dateReference))
        (Entries.mapValues .json (initial.getD [])) ∧
      r.tree = form.describe options r.values := by
  simp only [resolveWith, Audit.outcome_bind_eq_ok_iff, Audit.outcome_ofExcept, overridesOf_eq_ok,
    Except.ok.injEq, exists_eq_left'] at h
  by_cases hc : Form.copyable (initial.map .obj) = true
  · rw [if_pos hc, Audit.outcome_mapError, mapError_eq_ok_iff] at h
    simp only [resolve, Audit.outcome_bind_eq_ok_iff, Audit.outcome_note, Audit.outcome_pure,
      Except.ok.injEq] at h
    obtain ⟨defaults, hdefaults, -, -, -, -, rfl⟩ := h
    refine ⟨hc, rfl, ?_, rfl⟩
    rw [← defaults_eq_merge hdefaults]
    rfl
  · rw [if_neg hc] at h
    simp [Audit.outcome_bind_eq_ok_iff, -Audit.outcome_bind] at h

/-- A valid resolution comes about in one way only. -/
theorem resolves_of_resolveSource {options : Options} {initial : Overrides} {source : Source}
    {r : Resolution}
    (h : (resolveSource options (initial.map .obj) source).outcome = .ok (.ok r)) :
    Resolves options initial source r := by
  simp only [resolveSource, Audit.outcome_bind_eq_ok_iff, Audit.outcome_mapError,
    mapError_eq_ok_iff] at h
  obtain ⟨verdict, hverify, h⟩ := h
  cases verdict with
  | error f => cases h
  | ok form =>
      simp only [Audit.outcome_bind_eq_ok_iff, Audit.outcome_pure, Except.ok.injEq,
        exists_eq_right] at h
      obtain ⟨hcopyable, rfl, hvalues, htree⟩ := eq_of_resolveWith h
      exact ⟨verify_eq_ok_iff.mp hverify, hcopyable, hvalues, htree⟩

/-- The resolution of a source, none if the source is refused or resolving it breaks off. -/
def resolution? (options : Options) (initial : Option Json) (source : Source) :
    Option Resolution :=
  (resolveSource options initial source).outcome.toOption.bind Except.toOption

theorem resolution?_eq_some_iff {options : Options} {initial : Option Json} {source : Source}
    {r : Resolution} :
    resolution? options initial source = some r ↔
      (resolveSource options initial source).outcome = .ok (.ok r) := by
  simp [resolution?, Option.bind_eq_some_iff, toOption_eq_some_iff]

section Resolved

variable {options : Options} {initial : Overrides} {source : Source} {r : Resolution}

/-- A key has the value of the caller, or else the one that a field gives last. -/
theorem Resolves.get?_values (h : Resolves options initial source r) (key : String) :
    Entries.get? r.values key = ((Entries.last? (initial.getD []) key).map .json).or
      (Entries.last? (r.form.given options.dateReference) key) := by
  rw [h.values, Entries.get?_merge, Entries.get?_merge, Entries.last?_mapValues]
  simp

theorem Resolves.nodup_keys (h : Resolves options initial source r) :
    (Entries.keys r.values).Nodup := by
  have hnil : (Entries.keys ([] : InitialValues)).Nodup := List.nodup_nil
  rw [h.values]
  exact Entries.nodup_keys_merge (Entries.nodup_keys_merge hnil _) _

/-- Any input of a resolution is that of a field of the form, at a place of its own. -/
theorem Resolves.widgetAt (h : Resolves options initial source r) {e : Descriptor}
    (he : e ∈ r.walk) : ∃ f ∈ r.form.fields, ∃ g ∈ f.nested, ∃ q,
      e.widget = g.widgetAt ⟨options, r.form.layout, r.values⟩ q := by
  rw [Resolution.walk, h.tree, describe] at he
  clear h
  generalize r.form.fields = fields at he ⊢
  induction fields with
  | nil => cases he
  | cons f rest ih =>
      rw [List.map_cons, Descriptor.walkAll, List.mem_append] at he
      rcases he with he | he
      · obtain ⟨g, hg, q, hw⟩ := Field.widgetAt_of_mem_walk he
        exact ⟨f, List.mem_cons_self, g, hg, q, hw⟩
      · obtain ⟨f', hf', hrest⟩ := ih he
        exact ⟨f', List.mem_cons_of_mem _ hf', hrest⟩

/-- An initial value of an input stands among the values under the key that it is bound to. -/
theorem Resolves.get?_of_initial (h : Resolves options initial source r) {e : Descriptor}
    (he : e ∈ r.walk) {v : InitialValue} (hv : e.widget.initial = some v) :
    Entries.get? r.values e.widget.binding = some v := by
  obtain ⟨f, -, g, -, q, hw⟩ := h.widgetAt he
  rw [hw] at hv ⊢
  by_cases harray : q.inArray = true
  · rw [Field.widgetAt, if_pos harray] at hv
    cases hv
  · rw [Field.widgetAt, if_neg harray] at hv
    exact hv

end Resolved

end Form

end Formwork
