import Formwork.Proofs.Description.Authored
import Formwork.Proofs.Resolution.Dates
import Formwork.Proofs.Resolution.Soundness
import Formwork.Resolution.Rule

/-!
# The rules of verified fields

Authored rules are taken over, one for one and even if there are none, and written back as they
were authored. Rules that a field has of its own do not contradict its default: verification has
compared it with the same bounds, and the initial values read it with the same reference.

## Main results

* `Field.rules_faithful`: the rules of every verified field.
-/

namespace Formwork

open Description

variable {reference : DateTime}

namespace Range

/-- The number is not below the least number of the range, nor above the greatest. -/
def Admits (r : Range) (x : Number) : Prop :=
  Number.NotAbove r.min? (some x) ∧ Number.NotAbove (some x) r.max?

/-- The number is at least the least number of the range, and at most the greatest. -/
def Encloses (r : Range) (x : Number) : Prop :=
  (∀ l, r.min? = some l → l.AtMost x) ∧ ∀ u, r.max? = some u → x.AtMost u

theorem exists_of?_iff {min max : Option Number} :
    (∃ r, of? min max = some r) ↔ min.isSome = true ∨ max.isSome = true := by
  cases min <;> cases max <;> simp [of?]

end Range

namespace Rule

/-- The rules are those of a list of objects, one for each and in their order: each is a copy of
its object, and is written as the object. -/
def Authored (rules : List Rule) (v : Json) : Prop :=
  ∃ descriptors : List (List (String × Json)), v = .arr (descriptors.map .obj) ∧
    rules = (descriptors.map fun ms => .custom (Json.freezeMembers ms)) ∧
    .arr (rules.map toJson) = v

theorem authored_map_custom (descriptors : List (List (String × Json))) :
    Authored (descriptors.map fun ms => .custom (Json.freezeMembers ms))
      (.arr (descriptors.map .obj)) := by
  refine ⟨descriptors, rfl, rfl, ?_⟩
  simp [Function.comp_def]

variable [Host]

/-- A date rule reads a date as it is parsed, and leaves one that does not fit the reference. -/
theorem readDate_of_isDate {v : Json} (h : DateText.IsDate v) :
    (readDate reference v).outcome =
      .ok (((DateText.parse reference v).toOption.map .date).getD (.json v)) := by
  have hempty : ¬ DateText.IsDate (.str "") := by
    rintro ⟨d, hd⟩
    cases hd
  have hnull : ¬ DateText.IsDate .null := by
    rintro ⟨d, hd⟩
    cases hd
  unfold readDate
  split
  · exact absurd h hnull
  · exact absurd h hempty
  · rw [Audit.outcome_bind, tryDate_outcome]
    cases hp : DateText.parse reference v with
    | ok d => rfl
    | error e =>
        cases e with
        | rejected reason => rfl
        | imprecise =>
            have hstalls := (DateText.parse_eq_imprecise_iff reference v).mp hp
            exact absurd h (DateText.not_isDate_of_stalls hstalls)

end Rule

namespace Field

variable {f : Field}

/-- The authored form of a field has its authored rules. -/
theorem member?_toJson_rules (f : Field) :
    f.toJson.member? "rules" = f.attributes.rules.map fun rules => .arr (rules.map .obj) := by
  have hattributes : ∀ (a : Attributes) (type : FieldType),
      Entries.get? (a.members type) "rules" = a.rules.map fun rules => .arr (rules.map .obj) := by
    intro a type
    simp [Attributes.members, Entries.get?_cons]
  cases f with
  | leaf a l d =>
      rw [toJson, Json.member?_obj]
      simp [hattributes, get?_leaf_members_of_mem (show "rules" ∈ sharedKeys by decide), attributes]
  | array a items count d =>
      rw [toJson, Json.member?_obj]
      simp [hattributes, Entries.get?_cons, Bounds.members, attributes]
  | object a properties d =>
      rw [toJson, Json.member?_obj]
      simp [hattributes, Entries.get?_cons, attributes]

theorem required_mem_ownRules_iff {label : String} :
    .required label ∈ f.ownRules reference ↔
      label = f.displayLabel ∧ f.attributes.required = some true := by
  unfold ownRules
  rw [List.mem_append, or_iff_left (by split <;> simp)]
  split <;> simp_all

theorem range_mem_ownRules_iff {label : String} {range : Range} :
    .range label range ∈ f.ownRules reference ↔ label = f.displayLabel ∧
      ∃ a min max step d, f = .leaf a (.number min max step) d ∧
        Range.of? min max = some range := by
  unfold ownRules
  rw [List.mem_append, or_iff_right (by split <;> simp)]
  split
  · simp [and_comm, eq_comm]
  · simp
  · rename_i hnumber _
    refine iff_of_false List.not_mem_nil ?_
    rintro ⟨-, a, min, max, step, d, rfl, -⟩
    exact hnumber a min max step d rfl

theorem date_mem_ownRules_iff {label : String} {completed : DateTime} :
    .date label completed ∈ f.ownRules reference ↔ label = f.displayLabel ∧
      completed = reference ∧ f.type = .date := by
  unfold ownRules
  rw [List.mem_append, or_iff_right (by split <;> simp)]
  split
  · simp [type, Leaf.type]
  · simp [type, Leaf.type]
  · rename_i hdate
    refine iff_of_false List.not_mem_nil ?_
    rintro ⟨-, -, htype⟩
    cases f with
    | leaf a l d =>
        cases l with
        | date format showTime => exact hdate a format showTime d rfl
        | _ => cases htype
    | _ => cases htype

/-- The kinds of the rules that a field has of its own stand in one order. -/
theorem kinds_ownRules_sublist (reference : DateTime) (f : Field) :
    ((f.ownRules reference).map Rule.kind).Sublist ["required", "range", "date"] := by
  unfold ownRules
  rw [List.map_append]
  change List.Sublist _ (["required"] ++ ["range", "date"])
  refine List.Sublist.append ?_ ?_
  · split
    · exact List.Sublist.refl _
    · exact List.nil_sublist _
  · split
    · rename_i a min max step d
      cases Range.of? min max with
      | none => exact List.nil_sublist _
      | some range => exact List.sublist_append_left ["range"] ["date"]
    · exact List.sublist_append_right ["range"] ["date"]
    · exact List.nil_sublist _

section

variable [Host]

/-- The default of a described number lies in the range of the rule that the number has. -/
theorem admits_of_range_mem {level : Nat} {n v : Json} {label : String} {range : Range}
    (h : Describes level n f) (hrange : .range label range ∈ f.ownRules reference)
    (hv : f.effectiveDefault = some v) :
    ∃ x, v = .num x ∧ range.Admits x ∧ (n.Regular Number.Spelled → range.Encloses x) := by
  obtain ⟨-, a, min, max, step, d, rfl, hbounds⟩ := range_mem_ownRules_iff.mp hrange
  have hmin : range.min? = min := Range.min?_of_mem hbounds
  have hmax : range.max? = max := Range.max?_of_mem hbounds
  obtain ⟨haccepts, hcontains⟩ : LeafDefault (.number min max step) v := h.takesDefault v hv
  obtain ⟨x, rfl⟩ : ∃ x, v = .num x := haccepts
  refine ⟨x, rfl, ?_, fun hregular => ?_⟩
  · rwa [Range.Admits, hmin, hmax]
  · obtain ⟨y, hy, hfits⟩ := fits_number h (h.regular hregular) hv
    cases hy
    rwa [Range.Encloses, hmin, hmax]

/-- The default of a described date reads as its initial value, or is none and stays as it is. -/
theorem initialValue_of_date_mem {level : Nat} {n v : Json} {label : String}
    {completed : DateTime} (h : Describes level n f)
    (hdate : .date label completed ∈ f.ownRules reference) (hv : f.effectiveDefault = some v) :
    f.dateDefault = some v ∧
      (Rule.readDate completed v).outcome =
        .ok (((DateText.parse reference v).toOption.map .date).getD (.json v)) ∧
      ∀ key, (f.initialValue reference key).outcome =
        .ok ((DateText.parse reference v).toOption.map .date) := by
  obtain ⟨-, rfl, htype⟩ := date_mem_ownRules_iff.mp hdate
  have hdefault : f.dateDefault = some v := by
    cases f with
    | leaf a l d =>
        cases l with
        | date format showTime => exact hv
        | _ => cases htype
    | _ => cases htype
  have hparses : DateText.IsDate v := isDate_of_dateDefault h hdefault
  exact ⟨hdefault, Rule.readDate_of_isDate hparses,
    fun key => initialValue_of_isDate hdefault hparses⟩

/-- What is true of rules that a field with a description has of its own. The range of a number has
the bounds of the number, and a default lies in it. The date rule reads a default as the value that
any form gives in which the field counts. -/
structure Generates (reference : DateTime) (n : Json) (f : Field) (rules : List Rule) : Prop where
  kinds : (rules.map Rule.kind).Sublist ["required", "range", "date"]
  required_iff : (∃ label, .required label ∈ rules) ↔ f.attributes.required = some true
  range_iff : (∃ label range, .range label range ∈ rules) ↔
    ∃ a min max step d, f = .leaf a (.number min max step) d ∧
      (min.isSome = true ∨ max.isSome = true)
  bounds : ∀ label range, .range label range ∈ rules →
    ∃ a step d, f = .leaf a (.number range.min? range.max? step) d
  admits : ∀ label range, .range label range ∈ rules → ∀ v, f.effectiveDefault = some v →
    ∃ x, v = .num x ∧ range.Admits x ∧ (n.Regular Number.Spelled → range.Encloses x)
  date_iff : (∃ label completed, .date label completed ∈ rules) ↔ f.type = .date
  reads : ∀ label completed, .date label completed ∈ rules →
    ∀ v d, f.effectiveDefault = some v → DateText.parse reference v = .ok d →
      (Rule.readDate completed v).outcome = .ok (.date d) ∧
      (∀ key, (f.initialValue reference key).outcome = .ok (some (.date d))) ∧
      ∀ form values key, (Form.defaults reference form).outcome = .ok values →
        form.GivesLast reference key f → Entries.get? values key = some (.date d)

theorem generates_ownRules {level : Nat} {n : Json} (h : Describes level n f) :
    f.Generates reference n (f.ownRules reference) where
  kinds := kinds_ownRules_sublist reference f
  required_iff := by
    simp [required_mem_ownRules_iff]
  range_iff := by
    simp only [range_mem_ownRules_iff, ← Range.exists_of?_iff]
    constructor
    · rintro ⟨label, range, -, a, min, max, step, d, rfl, hrange⟩
      exact ⟨a, min, max, step, d, rfl, range, hrange⟩
    · rintro ⟨a, min, max, step, d, rfl, range, hrange⟩
      exact ⟨_, range, rfl, a, min, max, step, d, rfl, hrange⟩
  bounds := by
    intro label range hrange
    obtain ⟨-, a, min, max, step, d, rfl, hbounds⟩ := range_mem_ownRules_iff.mp hrange
    rw [Range.min?_of_mem hbounds, Range.max?_of_mem hbounds]
    exact ⟨a, step, d, rfl⟩
  admits := fun _ _ hrange _ hv => admits_of_range_mem h hrange hv
  date_iff := by
    simp [date_mem_ownRules_iff]
  reads := by
    intro label completed hdate v d hv hparse
    obtain ⟨hdefault, hread, hinitial⟩ := initialValue_of_date_mem h hdate hv
    rw [hparse] at hread hinitial
    refine ⟨hread, hinitial, fun form values key hvalues hlast => ?_⟩
    have hgiven : f.given? reference = some (.date d) :=
      given?_eq_date_iff.mpr ⟨v, hdefault, hparse⟩
    rw [Form.defaults_eq_merge hvalues, Entries.get?_merge,
      Form.last?_given_eq_some_iff.mpr ⟨f, hlast, hgiven⟩]
    rfl

/-- The rules of a verified field are the authored ones, which its authored form has in turn; if
none were authored they are those that the field has of its own. -/
theorem rules_faithful {path : Option String} {n : Json}
    (h : (verify path n).outcome = .ok f) (reference : DateTime) :
    ∃ ms, n = .obj ms ∧ f.toJson.member? "rules" = Checked.given ms "rules" ∧
      (∀ v, Checked.given ms "rules" = some v → Rule.Authored (f.rules reference) v) ∧
      (Checked.given ms "rules" = none → f.Generates reference n (f.rules reference)) := by
  obtain ⟨hdescribes, -⟩ := verify_eq_ok_iff.mp h
  obtain ⟨ms, rfl, hsays⟩ : ∃ ms, n = .obj ms ∧ Says Objects ms "rules" f.attributes.rules := by
    cases hdescribes with
    | leaf bound attributes => exact ⟨_, rfl, attributes.shared.rules⟩
    | array bound attributes => exact ⟨_, rfl, attributes.shared.rules⟩
    | object bound attributes => exact ⟨_, rfl, attributes.shared.rules⟩
  refine ⟨ms, rfl, ?_⟩
  rw [member?_toJson_rules, rules]
  cases hrules : f.attributes.rules with
  | none =>
      rw [hrules] at hsays
      have hgiven : Checked.given ms "rules" = none := Checked.given_eq_none_iff.mpr hsays
      rw [hgiven]
      exact ⟨rfl, by simp, fun _ => generates_ownRules hdescribes⟩
  | some descriptors =>
      rw [hrules] at hsays
      obtain ⟨v, hv, rfl⟩ := hsays
      have hgiven : Checked.given ms "rules" = some (.arr (descriptors.map .obj)) :=
        Checked.given_eq_some_iff.mpr ⟨hv, by simp⟩
      rw [hgiven]
      refine ⟨rfl, ?_, by simp⟩
      rintro _ ⟨⟩
      exact Rule.authored_map_custom descriptors

end

/-- The description of a date with a default of which the year is left out. -/
def birthday : Json :=
  .obj [("name", .str "d"), ("type", .str "date"), ("required", .bool true),
    ("defaultValue", .str "May 6")]

/-- The description of a number with a bound and an empty list of rules. -/
def unruled : Json :=
  .obj [("name", .str "n"), ("type", .str "number"), ("min", .num (.int 1)),
    ("rules", .arr [])]

attribute [local instance] Host.standard in
/-- The date rule reads the birthday as the value that it gives, and the number has no rule. -/
theorem rules_faithful_birthday :
    (∃ f completed d, (verify none birthday).outcome = .ok f ∧
      f.rules .epoch = [.required "d", .date "d" completed] ∧
      (Rule.readDate completed (.str "May 6")).outcome = .ok (.date d) ∧
      (f.initialValue .epoch "d").outcome = .ok (some (.date d))) ∧
    ∃ f, (verify none unruled).outcome = .ok f ∧ Rule.Authored (f.rules .epoch) (.arr []) ∧
      f.rules .epoch = [] := by
  constructor
  · let f : Field := .leaf ⟨"d", none, some true, none, none, none, none, none⟩
      (.date none none) (some (.str "May 6"))
    have hverify : (verify none birthday).outcome = .ok f := rfl
    have hrules : f.rules .epoch = [.required "d", .date "d" .epoch] := rfl
    obtain ⟨d, hparse⟩ : ∃ d, DateText.parse .epoch (.str "May 6") = .ok d := ⟨_, rfl⟩
    obtain ⟨ms, hms, -, -, hown⟩ := rules_faithful hverify .epoch
    cases hms
    obtain ⟨hread, hinitial, -⟩ := (hown rfl).reads "d" .epoch (by simp [hrules]) _ d rfl hparse
    exact ⟨f, .epoch, d, hverify, hrules, hread, hinitial "d"⟩
  · let f : Field := .leaf ⟨"n", none, none, none, none, none, some [], none⟩
      (.number (some (.int 1)) none none) none
    have hverify : (verify none unruled).outcome = .ok f := rfl
    obtain ⟨ms, hms, -, hauthored, -⟩ := rules_faithful hverify .epoch
    cases hms
    exact ⟨f, hverify, hauthored _ rfl, rfl⟩

end Field

end Formwork
