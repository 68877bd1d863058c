import Formwork.Proofs.Json.ReadBack
import Formwork.Proofs.Resolution.Values
import Formwork.Proofs.Resolution.Verdict

/-!
# Resolution of authored forms

The document of a form can be written as a text. If the document is verified as the form itself, so
is the text, and what is resolved from it is the form with its inputs described.
-/

namespace Formwork

/-- The attributes of a field that tells nothing but its name. -/
def Attributes.named (name : String) : Attributes :=
  ⟨name, none, none, none, none, none, none, none⟩

namespace Form

/-- The text in which the document of a form is written. -/
def source (form : Form) : Source :=
  .text (form.toJson.render Json.indented)

variable [Host]

/-- The text of a form is verified as the form if its document is. -/
theorem verify_source {form : Form} (hdepth : form.toJson.depth ≤ Json.openLimit)
    (hlegible : form.toJson.Regular Number.Legible)
    (hparts : (verifyParts form.toJson).outcome = .ok form) :
    (verify form.source).outcome = .ok (.ok form) :=
  verify_eq_ok_iff.mpr ⟨form.toJson, (Source.load_render_iff hdepth).mpr hlegible,
    verifyParts_eq_ok_iff.mp hparts⟩

/-- A source that is verified as a form is resolved to the inputs of the form. -/
theorem exists_resolveSource {source : Source} {form : Form}
    (hverify : (verify source).outcome = .ok (.ok form)) (options : Options) {initial : Overrides}
    (hcopyable : copyable (initial.map .obj) = true) :
    ∃ values, (resolveSource options (initial.map .obj) source).outcome =
      .ok (.ok ⟨form, form.describe options values, values⟩) := by
  obtain ⟨document, -, hdocument⟩ := verify_eq_ok_iff.mp hverify
  obtain ⟨r, hr⟩ := resolveWith_of_documentOf hdocument options hcopyable
  obtain ⟨-, hform, -, htree⟩ := eq_of_resolveWith hr
  have heq : r = ⟨form, form.describe options r.values, r.values⟩ := by
    cases r
    simp only at hform htree
    rw [hform, htree]
  refine ⟨r.values, ?_⟩
  rw [← heq]
  simp only [resolveSource, Audit.outcome_bind_eq_ok_iff, Audit.outcome_mapError,
    mapError_eq_ok_iff]
  refine ⟨_, hverify, ?_⟩
  simp only [Audit.outcome_bind_eq_ok_iff]
  exact ⟨r, hr, rfl⟩

end Form

end Formwork
