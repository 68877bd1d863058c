import Formwork.Proofs.Description.Document
import Formwork.Proofs.Json.Regular

/-!
# The values of a field come from its description

Rules, options, bounds and defaults are taken over from the description as they stand there. So
they are regular if the description is, at any depth.
-/

namespace Formwork

/-- The values that a field holds by itself are regular. -/
structure Field.Regular (p : Number → Prop) (f : Field) : Prop where
  default : ∀ v, f.default = some v → v.Regular p
  rules : ∀ rules, f.attributes.rules = some rules → ∀ ms ∈ rules, (Json.obj ms).Regular p
  options : ∀ c ∈ f.options, c.value.toJson.Regular p
  bounds : ∀ {a min max step d}, f = .leaf a (.number min max step) d →
    (∀ x, min = some x → p x) ∧ ∀ x, max = some x → p x

variable {p : Number → Prop}

/-- The default that counts is regular too. -/
theorem Field.Regular.effectiveDefault {f : Field} (h : f.Regular p) {v : Json}
    (hv : f.effectiveDefault = some v) : v.Regular p := by
  unfold Field.effectiveDefault at hv
  split at hv
  · rename_i a checked d
    rcases Option.or_eq_some_iff.mp hv with hd | ⟨-, hchecked⟩
    · exact h.default v hd
    · obtain ⟨b, -, rfl⟩ := Option.map_eq_some_iff.mp hchecked
      exact trivial
  · exact h.default v hv

namespace Description

open Checked (Members)

variable {ms : Members}

theorem SharedOf.regular_rules {a : Attributes} (h : SharedOf ms a) (hms : (Json.obj ms).Regular p)
    (rules : List Members) (hrules : a.rules = some rules) :
    ∀ rule ∈ rules, (Json.obj rule).Regular p := by
  have hsays := h.rules
  rw [hrules] at hsays
  obtain ⟨v, hv, rfl⟩ := hsays
  have hlist := Json.regular_arr.mp (hms.get? hv)
  exact fun rule hrule => hlist _ (List.mem_map_of_mem hrule)

theorem OptionsOf.regular {options : List Choice} (h : OptionsOf ms options)
    (hms : (Json.obj ms).Regular p) : ∀ c ∈ options, c.value.toJson.Regular p := by
  obtain ⟨vs, hvs, -, hall⟩ := h
  have hlist := Json.regular_arr.mp (hms.get? hvs)
  intro c hc
  obtain ⟨v, hv, choice, rfl, -, hvalue⟩ := exists_left_of_mem hall c hc
  exact (hlist _ hv).get? hvalue

theorem Says.regular {key : String} {o : Option Number} (h : Says Numeric ms key o)
    (hms : (Json.obj ms).Regular p) (x : Number) (hx : o = some x) : p x := by
  rw [hx] at h
  obtain ⟨v, hv, rfl⟩ := h
  exact Json.regular_num.mp (hms.get? hv)

theorem LeafOf.regular_options {l : Leaf} (h : LeafOf ms l) (hms : (Json.obj ms).Regular p) :
    ∀ c ∈ l.options, c.value.toJson.Regular p := by
  cases l with
  | radio options => exact OptionsOf.regular h hms
  | select options mode => exact OptionsOf.regular h.1 hms
  | _ => simp [Leaf.options]

variable [Host]

/-- A regular description describes a field that is regular by itself. -/
theorem Describes.regular {level : Nat} {n : Json} {f : Field} (h : Describes level n f)
    (hn : n.Regular p) : f.Regular p := by
  cases h with
  | @leaf _ ms a l bound attributes payload default =>
      refine ⟨fun v hv => hn.get? hv, attributes.shared.regular_rules hn,
        payload.regular_options hn, ?_⟩
      rintro a min max step d heq
      cases heq
      exact ⟨payload.1.regular hn, payload.2.1.regular hn⟩
  | array bound attributes =>
      exact ⟨fun v hv => hn.get? hv, attributes.shared.regular_rules hn,
        by simp [Field.options], fun heq => by cases heq⟩
  | object bound attributes =>
      exact ⟨fun v hv => hn.get? hv, attributes.shared.regular_rules hn,
        by simp [Field.options], fun heq => by cases heq⟩

/-- The fields one level below a field that is described have different keys. -/
theorem Describes.nodup_children {level : Nat} {n : Json} {f : Field} (h : Describes level n f)
    (hn : n.Regular p) : (Entries.keys f.children).Nodup := by
  cases h with
  | leaf => exact List.nodup_nil
  | array => exact by simp [Field.children, Entries.keys]
  | object bound attributes element keys =>
      have hnodes := (Json.regular_obj.mp (hn.get? element)).1
      rwa [keys] at hnodes

/-- Whatever lies in the fields of a regular document is described by something regular. -/
theorem DocumentOf.nested_regular {document : Json} {form : Form} (h : DocumentOf document form)
    (hdocument : document.Regular p) :
    ∀ f ∈ form.fields, ∀ g ∈ f.nested, ∃ level n, Describes level n g ∧ n.Regular p :=
  h.nested_of (fun _ hvs => Json.regular_arr.mp hvs) (fun _ hms => (Json.regular_obj.mp hms).2)
    hdocument

/-- The fields of a regular document are regular at any depth. -/
theorem DocumentOf.regular {document : Json} {form : Form} (h : DocumentOf document form)
    (hdocument : document.Regular p) : ∀ f ∈ form.fields, ∀ g ∈ f.nested, g.Regular p := by
  intro f hf g hg
  obtain ⟨level, n, hn, hregular⟩ := h.nested_regular hdocument f hf g hg
  exact hn.regular hregular

end Description

end Formwork
