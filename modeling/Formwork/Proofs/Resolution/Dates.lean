import Formwork.Proofs.DateText.Completion
import Formwork.Proofs.Resolution.Authored

/-!
# Dates with the reference of the options

The default of a date is read twice: with the first day of 1970 when it is verified, and with the
reference of the options when the form is resolved. A default that does not fit the reference is
dropped with a warning, and no other one is.

## Main results

* `resolveWith_dropped_iff`: which dates are bound and which are dropped.
* `dayMissing_dropped`: a day that the month of the reference lacks is dropped.
-/

namespace Formwork

open Description

namespace Field

variable {reference : DateTime} {key : String} {f : Field}

variable [Host]

/-- A default that is a date is taken if it is one with the reference, too, and left out else. -/
theorem initialValue_of_isDate {v : Json} (hv : f.dateDefault = some v)
    (hdate : DateText.IsDate v) : (f.initialValue reference key).outcome =
      .ok ((DateText.parse reference v).toOption.map .date) := by
  rw [initialValue_of_dateDefault hv, tryDate_outcome]
  cases hp : DateText.parse reference v with
  | ok d => rfl
  | error e =>
      cases e with
      | rejected reason => rfl
      | imprecise =>
          have hstalls := (DateText.parse_eq_imprecise_iff reference v).mp hp
          exact absurd hdate (DateText.not_isDate_of_stalls hstalls)

omit [Host] in
theorem default_of_dateDefault {v : Json} (h : f.dateDefault = some v) : f.default = some v := by
  cases f with
  | leaf a l d =>
      cases l with
      | date format showTime => exact h
      | _ => cases h
  | _ => cases h

omit [Host] in
theorem exists_of_dateDefault {v : Json} (h : f.dateDefault = some v) :
    ∃ a format showTime, f = .leaf a (.date format showTime) (some v) := by
  cases f with
  | leaf a l d =>
      cases l with
      | date format showTime => exact ⟨a, format, showTime, by rw [show d = some v from h]⟩
      | _ => cases h
  | _ => cases h

/-- A field is recorded to be dropped if its default is that of a date and gives no value. -/
theorem dateDropped_mem_initialValue_iff {o : Option InitialValue} {key' : String} {v : Json}
    (h : (f.initialValue reference key).outcome = .ok o) :
    .dateDropped key' v ∈ (f.initialValue reference key).records ↔
      key' = key ∧ f.dateDefault = some v ∧ o = none := by
  cases hdefault : f.dateDefault with
  | none => simp [initialValue_of_no_dateDefault hdefault]
  | some w =>
      obtain ⟨a, format, showTime, rfl⟩ := exists_of_dateDefault hdefault
      unfold initialValue tryDate at h ⊢
      simp only [effectiveDefault, default] at h ⊢
      cases hp : DateText.parse reference w with
      | ok d =>
          rw [hp] at h
          cases h
          show _ ∈ [] ↔ _
          simp
      | error e =>
          rw [hp] at h
          cases e with
          | imprecise => cases h
          | rejected reason =>
              cases h
              show _ ∈ [Record.dateRejected reason, .dateDropped key w] ↔ _
              simp [eq_comm]

end Field

namespace Form

section

variable [Host]

/-- The records of setting defaults tell all fields that are dropped, under the keys that they would
bind. -/
theorem dateDropped_mem_setDefaults_iff {reference : DateTime} {values result : InitialValues}
    {bindings : List (String × Field)} {key : String} {v : Json}
    (h : (setDefaults reference values bindings).outcome = .ok result) :
    .dateDropped key v ∈ (setDefaults reference values bindings).records ↔
      ∃ f, (key, f) ∈ bindings ∧ f.dateDefault = some v ∧
        (f.initialValue reference key).outcome = .ok none := by
  induction bindings generalizing values with
  | nil => simp [setDefaults]
  | cons p rest ih =>
      obtain ⟨first, g⟩ := p
      rw [setDefaults, Audit.outcome_bind_eq_ok_iff] at h
      obtain ⟨o, ho, h⟩ := h
      have hrest : ∀ {values'}, (setDefaults reference values' rest).outcome = .ok result →
          (.dateDropped key v ∈ (g.initialValue reference first).records ++
              (setDefaults reference values' rest).records ↔
            ∃ f, (key, f) ∈ (first, g) :: rest ∧ f.dateDefault = some v ∧
              (f.initialValue reference key).outcome = .ok none) := by
        intro values' h
        rw [List.mem_append, Field.dateDropped_mem_initialValue_iff ho, ih h]
        constructor
        · rintro (⟨rfl, hv, rfl⟩ | ⟨f, hf, hdropped⟩)
          · exact ⟨g, List.mem_cons_self, hv, ho⟩
          · exact ⟨f, List.mem_cons_of_mem _ hf, hdropped⟩
        · rintro ⟨f, hf, hv, hnone⟩
          rcases List.mem_cons.mp hf with heq | hf
          · cases heq
            rw [ho] at hnone
            exact .inl ⟨rfl, hv, Except.ok.inj hnone⟩
          · exact .inr ⟨f, hf, hv, hnone⟩
      rw [setDefaults, Audit.records_bind_of_ok ho]
      cases o with
      | none => exact hrest h
      | some value => exact hrest h

theorem dateDropped_mem_defaults_iff {reference : DateTime} {form : Form} {values : InitialValues}
    {key : String} {v : Json} (h : (form.defaults reference).outcome = .ok values) :
    .dateDropped key v ∈ (form.defaults reference).records ↔
      ∃ f, (key, f) ∈ form.fields.flatMap Field.bound ∧ f.dateDefault = some v ∧
        (f.initialValue reference key).outcome = .ok none := by
  rw [defaults, Audit.outcome_bind_eq_ok_iff] at h
  obtain ⟨values, hvalues, -⟩ := h
  rw [← dateDropped_mem_setDefaults_iff hvalues, defaults, Audit.records_bind_of_ok hvalues,
    List.mem_append]
  apply or_iff_left
  show _ ∉ [Record.defaultsExtracted values.length]
  simp

/-- Resolving a form tells all dates that are dropped. -/
theorem dateDropped_mem_resolveWith_iff {options : Options} {initial : Overrides} {form : Form}
    {r : Resolution} {key : String} {v : Json}
    (h : (form.resolveWith options (initial.map .obj)).outcome = .ok r) :
    .dateDropped key v ∈ (form.resolveWith options (initial.map .obj)).records ↔
      ∃ f, (key, f) ∈ form.fields.flatMap Field.bound ∧ f.dateDefault = some v ∧
        (f.initialValue options.dateReference key).outcome = .ok none := by
  obtain ⟨hcopyable, -⟩ := eq_of_resolveWith h
  have hoverrides : (Audit.ofExcept (overridesOf (initial.map .obj))).outcome =
      .ok (Entries.mapValues .json (initial.getD [])) := overridesOf_eq_ok
  rw [resolveWith, Audit.outcome_bind_eq_ok_iff] at h
  obtain ⟨overrides, heq, h⟩ := h
  rw [hoverrides] at heq
  cases heq
  rw [if_pos hcopyable, Audit.outcome_mapError, mapError_eq_ok_iff, resolve,
    Audit.outcome_bind_eq_ok_iff] at h
  obtain ⟨values, hvalues, -⟩ := h
  rw [resolveWith, Audit.records_bind_of_ok hoverrides, if_pos hcopyable]
  show _ ∈ (resolve options _ form).records ↔ _
  rw [resolve, Audit.records_bind_of_ok hvalues, List.mem_append,
    ← dateDropped_mem_defaults_iff hvalues]
  apply or_iff_left
  show _ ∉ [Record.descriptorsResolved _, Record.formResolved _ _]
  simp

/-- Each field that binds a value in a verified form has a date for a default if it is a date. -/
theorem isDate_of_verify {source : Source} {form : Form}
    (h : (verify source).outcome = .ok (.ok form)) {key : String} {f : Field} {v : Json}
    (hf : (key, f) ∈ form.fields.flatMap Field.bound) (hv : f.dateDefault = some v) :
    DateText.IsDate v := by
  obtain ⟨document, -, hdocument⟩ := verify_eq_ok_iff.mp h
  obtain ⟨g, hg, hbound⟩ := List.mem_flatMap.mp hf
  obtain ⟨level, n, hn⟩ := hdocument.describes hg (Field.mem_nested_of_mem_bound hbound)
  exact Field.isDate_of_dateDefault hn hv

/-- The key of a field that gives a value is set. -/
theorem mem_keys_of_given {options : Options} {initial : Overrides} {form : Form} {r : Resolution}
    (h : (form.resolveWith options (initial.map .obj)).outcome = .ok r) {key : String} {f : Field}
    {value : InitialValue} (hf : (key, f) ∈ form.fields.flatMap Field.bound)
    (hvalue : (f.initialValue options.dateReference key).outcome = .ok (some value)) :
    key ∈ Entries.keys r.values := by
  obtain ⟨-, -, hvalues, -⟩ := eq_of_resolveWith h
  have hgiven : (key, value) ∈ form.given options.dateReference := by
    rw [given, List.mem_filterMap]
    exact ⟨(key, f), hf, by rw [Field.given?_of_initialValue hvalue]; rfl⟩
  rw [hvalues, Entries.mem_keys_merge, Entries.mem_keys_merge]
  exact .inl (.inr (List.mem_map_of_mem hgiven))

/-- A date among the fields that bind values is bound exactly if its default fits the reference, and
else it is dropped with a warning; with the first day of 1970 for reference none is dropped. -/
theorem resolveWith_dropped_iff {options : Options} {initial : Overrides} {source : Source}
    {form : Form} (hverify : (verify source).outcome = .ok (.ok form))
    (hcopyable : copyable (initial.map .obj) = true) :
    ∃ r, (form.resolveWith options (initial.map .obj)).outcome = .ok r ∧
      (∀ key f v, (key, f) ∈ form.fields.flatMap Field.bound → f.dateDefault = some v →
        ((∃ d, (f.initialValue options.dateReference key).outcome = .ok (some (.date d)) ∧
          key ∈ Entries.keys r.values) ↔ ¬ DateText.Unfit options.dateReference v)) ∧
      (∀ key v, .dateDropped key v ∈ (form.resolveWith options (initial.map .obj)).records ↔
        ∃ f, (key, f) ∈ form.fields.flatMap Field.bound ∧ f.dateDefault = some v ∧
          DateText.Unfit options.dateReference v) ∧
      (options.dateReference = .epoch → ∀ key v,
        .dateDropped key v ∉ (form.resolveWith options (initial.map .obj)).records) := by
  obtain ⟨document, -, hdocument⟩ := verify_eq_ok_iff.mp hverify
  obtain ⟨r, hr⟩ := resolveWith_of_documentOf hdocument options hcopyable
  have hdropped : ∀ key v,
      .dateDropped key v ∈ (form.resolveWith options (initial.map .obj)).records ↔
        ∃ f, (key, f) ∈ form.fields.flatMap Field.bound ∧ f.dateDefault = some v ∧
          DateText.Unfit options.dateReference v := by
    intro key v
    rw [dateDropped_mem_resolveWith_iff hr]
    refine exists_congr fun f => and_congr_right fun hf => and_congr_right fun hv => ?_
    have hdate := isDate_of_verify hverify hf hv
    rw [Field.initialValue_of_isDate hv hdate, ← not_iff_not, ← hdate.exists_parse_iff]
    cases DateText.parse options.dateReference v <;> simp [Except.toOption]
  refine ⟨r, hr, ?_, hdropped, ?_⟩
  · intro key f v hf hv
    have hdate := isDate_of_verify hverify hf hv
    rw [← hdate.exists_parse_iff]
    constructor
    · rintro ⟨d, hvalue, -⟩
      have hgiven := Field.given?_of_initialValue hvalue
      obtain ⟨v', hv', hd⟩ := Field.given?_eq_date_iff.mp hgiven
      rw [hv] at hv'
      cases hv'
      exact ⟨d, hd⟩
    · rintro ⟨d, hd⟩
      have hvalue : (f.initialValue options.dateReference key).outcome = .ok (some (.date d)) := by
        rw [Field.initialValue_of_isDate hv hdate, hd]
        rfl
      exact ⟨d, hvalue, mem_keys_of_given hr hf hvalue⟩
  · intro hepoch key v hmem
    obtain ⟨f, hf, hv, hunfit⟩ := (hdropped key v).mp hmem
    rw [hepoch] at hunfit
    have hdate := isDate_of_verify hverify hf hv
    exact (hdate.exists_parse_iff .epoch).mp hdate hunfit

/-- A form with a date that has a text for default. -/
def dateForm (text : String) : Form :=
  ⟨[.leaf (.named "d") (.date none none) (some (.str text))], none⟩

theorem verify_dateForm {text : String}
    (h : (verifyParts (dateForm text).toJson).outcome = .ok (dateForm text)) :
    (verify (dateForm text).source).outcome = .ok (.ok (dateForm text)) := by
  apply verify_source (Nat.le_of_ble_eq_true rfl) _ h
  simp [dateForm, toJson, Field.toJson, Attributes.named, Attributes.members, Leaf.members,
    memberOf, FieldType.name, Entries.keys]

end

/-- Dates are completed from the first day of February 2023. -/
def inFebruary : Options :=
  { Options.standard with dateReference := ⟨⟨2023, 2, 1, 0, 0, 0, 0⟩, none, by decide⟩ }

attribute [local instance] Host.standard in
/-- The last day of February fits. -/
theorem resolveWith_dropped_iff_lastDay :
    ∃ r, (verify (dateForm "28").source).outcome = .ok (.ok (dateForm "28")) ∧
      copyable ((none : Overrides).map .obj) = true ∧
      ((dateForm "28").resolveWith inFebruary ((none : Overrides).map .obj)).outcome = .ok r ∧
      "d" ∈ Entries.keys r.values ∧ ¬ DateText.Unfit inFebruary.dateReference (.str "28") := by
  have hverify := @verify_dateForm _ "28" rfl
  have hcopyable : copyable ((none : Overrides).map .obj) = true := rfl
  obtain ⟨r, hr, hbound, -, -⟩ := @resolveWith_dropped_iff _ inFebruary none _ _ hverify hcopyable
  have hvalue : ∃ d, (Field.initialValue inFebruary.dateReference "d"
      (.leaf (.named "d") (.date none none) (some (.str "28")))).outcome = .ok (some (.date d)) :=
    ⟨_, rfl⟩
  obtain ⟨d, hd⟩ := hvalue
  have hkey := mem_keys_of_given hr (List.mem_singleton.mpr rfl) hd
  exact ⟨r, hverify, hcopyable, hr, hkey,
    (hbound "d" _ _ (List.mem_singleton.mpr rfl) rfl).mp ⟨d, hd, hkey⟩⟩

attribute [local instance] Host.standard in
/-- A day that February lacks is verified and then dropped. -/
theorem dayMissing_dropped :
    ∃ r, (verify (dateForm "31").source).outcome = .ok (.ok (dateForm "31")) ∧
      ((dateForm "31").resolveWith inFebruary none).outcome = .ok r ∧
      .dateDropped "d" (.str "31") ∈ ((dateForm "31").resolveWith inFebruary none).records ∧
      "d" ∉ Entries.keys r.values := by
  have hr : ((dateForm "31").resolveWith inFebruary ((none : Overrides).map .obj)).outcome =
      .ok ⟨dateForm "31", (dateForm "31").describe inFebruary [], []⟩ := rfl
  refine ⟨_, verify_dateForm rfl, hr, ?_, List.not_mem_nil⟩
  exact (dateDropped_mem_resolveWith_iff hr).mpr ⟨_, List.mem_singleton.mpr rfl, rfl, rfl⟩

end Form

end Formwork
