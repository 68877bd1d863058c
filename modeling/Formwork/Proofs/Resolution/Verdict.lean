import Formwork.Proofs.DateText.Precision
import Formwork.Proofs.Resolution.Defaults
import Formwork.Session

/-!
# Verdicts of the engine

The verification and the resolution of a source return an outcome, valid or with a
failure, exactly if no date text breaks the verification off.
-/

namespace Formwork

/-- The failure is of one of the kinds that are reported. -/
def Failure.Reported (f : Failure) : Prop :=
  f.kind ∈ ["malformed", "shape", "field"]

theorem Failure.reported (f : Failure) : f.Reported := by
  cases f <;> simp [Reported, kind]

/-- An outcome with a form and no failure, or with a failure and nothing else. -/
def Outcome.Settled (o : Outcome) : Prop :=
  (∃ form, o.form? = some form) ∨
    ∃ f, o.verdict = .error f ∧ f.Reported ∧ o.form? = none ∧ o.tree = [] ∧ o.values = []

theorem Outcome.settled_of (verdict : Except Failure Resolution) : (of verdict).Settled := by
  cases verdict with
  | ok r => exact .inl ⟨r.form, rfl⟩
  | error f => exact .inr ⟨f, rfl, f.reported, rfl, rfl, rfl⟩

namespace Form

section

variable [Host]

/-- Resolving a verified form with values that can be copied always returns. -/
theorem resolveWith_of_documentOf {document : Json} {form : Form}
    (h : Description.DocumentOf document form) (options : Options)
    {initial : Option (List (String × Json))} (hcopyable : copyable (initial.map .obj) = true) :
    ∃ r, (form.resolveWith options (initial.map .obj)).outcome = .ok r := by
  obtain ⟨values, hvalues⟩ := defaults_of_documentOf h options.dateReference
  have hoverrides : ∃ overrides, overridesOf (initial.map .obj) = .ok overrides := by
    cases initial with
    | none => exact ⟨[], rfl⟩
    | some members => exact ⟨_, rfl⟩
  obtain ⟨overrides, hoverrides⟩ := hoverrides
  have hresolve : ∃ r, (form.resolve options overrides).outcome = .ok r := by
    simp only [resolve, Audit.outcome_bind_eq_ok_iff, Audit.outcome_note, Audit.outcome_pure]
    exact ⟨_, values, hvalues, (), trivial, (), trivial, rfl⟩
  obtain ⟨r, hr⟩ := hresolve
  refine ⟨r, ?_⟩
  simp only [resolveWith, Audit.outcome_bind_eq_ok_iff, Audit.outcome_ofExcept]
  refine ⟨overrides, hoverrides, ?_⟩
  rw [if_pos hcopyable, Audit.outcome_mapError, hr]
  rfl

/-- Verification returns a verdict exactly if it does not break off. -/
theorem verify_returns_iff (source : Source) :
    (∃ verdict, (verify source).outcome = .ok verdict ∧ ∀ f, verdict = .error f → f.Reported) ↔
      ¬ source.BreaksOff := by
  constructor
  · rintro ⟨verdict, h, -⟩ hbreaks
    rw [verify_eq_error_iff.mpr ⟨rfl, hbreaks⟩] at h
    cases h
  · intro hreturns
    cases h : (verify source).outcome with
    | ok verdict => exact ⟨verdict, rfl, fun f _ => f.reported⟩
    | error e => exact absurd (verify_eq_error_iff.mp h).2 hreturns

/-- Resolution returns as soon as verification does, if the values of the caller can be copied. -/
theorem resolveSource_of_verify {options : Options} {initial : Option (List (String × Json))}
    {source : Source} {checked : Except Failure Form}
    (hcopyable : copyable (initial.map .obj) = true)
    (h : (verify source).outcome = .ok checked) :
    ∃ verdict, (resolveSource options (initial.map .obj) source).outcome = .ok verdict := by
  simp only [resolveSource, Audit.outcome_bind_eq_ok_iff, Audit.outcome_mapError,
    mapError_eq_ok_iff]
  cases checked with
  | error f => exact ⟨.error f, _, h, rfl⟩
  | ok form =>
      obtain ⟨document, -, hd⟩ := verify_eq_ok_iff.mp h
      obtain ⟨r, hr⟩ := resolveWith_of_documentOf hd options hcopyable
      refine ⟨.ok r, _, h, ?_⟩
      simp only [Audit.outcome_bind_eq_ok_iff]
      exact ⟨r, hr, rfl⟩

/-- Resolution returns an outcome exactly if the verification before it does not break off. -/
theorem resolveSource_returns_iff (options : Options) (initial : Option (List (String × Json)))
    (source : Source) (hcopyable : copyable (initial.map .obj) = true) :
    (∃ verdict, (resolveSource options (initial.map .obj) source).outcome = .ok verdict ∧
      (Outcome.of verdict).Settled) ↔ ¬ source.BreaksOff := by
  constructor
  · rintro ⟨verdict, h, -⟩ hbreaks
    rw [resolveSource, Audit.outcome_bind_eq_ok_iff] at h
    obtain ⟨checked, h, -⟩ := h
    rw [Audit.outcome_mapError, verify_eq_error_iff.mpr ⟨rfl, hbreaks⟩] at h
    cases h
  · intro hreturns
    obtain ⟨checked, hchecked, -⟩ := (verify_returns_iff source).mpr hreturns
    obtain ⟨verdict, h⟩ := resolveSource_of_verify hcopyable hchecked
    exact ⟨verdict, h, Outcome.settled_of verdict⟩

/-- The engine returns for a source exactly if its verification does not break off, which takes a
date text with a number beyond the precision. Values of the caller are such as can be copied. -/
theorem returns_iff_not_breaksOff (options : Options) (initial : Option (List (String × Json)))
    (source : Source) (hcopyable : copyable (initial.map .obj) = true) :
    ((∃ verdict, (verify source).outcome = .ok verdict ∧
        ∀ f, verdict = .error f → f.Reported) ↔ ¬ source.BreaksOff) ∧
    ((∃ verdict, (resolveSource options (initial.map .obj) source).outcome = .ok verdict ∧
        (Outcome.of verdict).Settled) ↔ ¬ source.BreaksOff) ∧
    ∀ v, DateText.Stalls v →
      ∃ s, v = .str s ∧ ∃ t ∈ DateText.tokens s.toList, DateText.ExceedsPrecision t :=
  ⟨verify_returns_iff source, resolveSource_returns_iff options initial source hcopyable,
    fun _ => DateText.exceedsPrecision_of_parse⟩

end

/-- A document with a date and a time of day, and a number. -/
def arrival : Source :=
  .text ("\x7b\"fields\": [\x7b\"name\": \"day\", \"type\": \"date\", "
    ++ "\"defaultValue\": \"6 May 2024 10:30 pm\"\x7d, "
    ++ "\x7b\"name\": \"guests\", \"type\": \"number\", \"min\": 1\x7d]\x7d")

/-- The values of a caller who fills in the number, and a list under a key of their own. -/
def arrivalValues : List (String × Json) :=
  [("guests", .int 3), ("remarks", .arr [.str "late"])]

attribute [local instance] Host.standard in
/-- The date of the document is read, so verification and resolution return. -/
theorem returns_iff_not_breaksOff_arrival :
    copyable ((some arrivalValues).map .obj) = true ∧
      (∃ form, (verify arrival).outcome = .ok (.ok form)) ∧ ¬ arrival.BreaksOff ∧
      ∃ verdict, (resolveSource .standard ((some arrivalValues).map .obj) arrival).outcome =
        .ok verdict ∧ (Outcome.of verdict).Settled := by
  have hcopyable : copyable ((some arrivalValues).map .obj) = true := by decide +kernel
  obtain ⟨hverify, hresolve, -⟩ :=
    returns_iff_not_breaksOff .standard (some arrivalValues) arrival hcopyable
  have hvalid : ((verify arrival).outcome.toOption.bind Except.toOption).isSome = true := by
    decide +kernel
  obtain ⟨form, hform⟩ := Option.isSome_iff_exists.mp hvalid
  obtain ⟨verdict, hverdict, hform⟩ := Option.bind_eq_some_iff.mp hform
  rw [toOption_eq_some_iff] at hverdict hform
  subst hform
  have hreturns : ¬ arrival.BreaksOff := hverify.mp ⟨.ok form, hverdict, fun f _ => f.reported⟩
  exact ⟨hcopyable, ⟨form, hverdict⟩, hreturns, hresolve.mpr hreturns⟩

/-- A document with a date whose hour has twenty-nine digits. -/
def longHour : Source :=
  .text ("\x7b\"fields\": [\x7b\"name\": \"d\", \"type\": \"date\", "
    ++ "\"defaultValue\": \"99999999999999999999999999999.5 h\"\x7d]\x7d")

attribute [local instance] Host.standard in
/-- Neither verification nor resolution returns for the long hour. -/
theorem longHour_breaksOff :
    (verify longHour).outcome = .error .imprecise ∧
      (resolveSource .standard none longHour).outcome = .error (.fault .imprecise) := by
  let ms : Checked.Members := [("name", .str "d"), ("type", .str "date"),
    ("defaultValue", .str "99999999999999999999999999999.5 h")]
  have hload : longHour.load.toOption = some (.obj [("fields", .arr [.obj ms])]) := by
    decide +kernel
  have hattributes : Description.AttributesOf ms .date
      ⟨"d", none, none, none, none, none, none, none⟩ := by
    refine ⟨rfl, by decide, rfl, ?_⟩
    constructor <;> simp [ms, Description.Says, Description.CardMember, Entries.get?_cons]
  have hbreaks : longHour.BreaksOff := by
    cases h : longHour.load with
    | error e => simp [h, Except.toOption] at hload
    | ok document =>
        rw [h] at hload
        cases hload
        refine ⟨_, h, _, [], .obj ms, [], [], rfl, rfl, .nil, List.nodup_nil, ?_⟩
        exact .date (by decide) hattributes rfl rfl
  have hverify := verify_eq_error_iff.mpr ⟨rfl, hbreaks⟩
  refine ⟨hverify, ?_⟩
  rw [resolveSource, Audit.outcome_bind_eq_error_iff]
  exact .inl (by rw [Audit.outcome_mapError, hverify]; rfl)

end Form

end Formwork
