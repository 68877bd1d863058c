import Formwork.Proofs.Resolution.Authored

/-!
# Values set step by step

The values of a result may be handed in again, with further values set over them. What they hold
apart from the defaults was handed in before, and the defaults are set anew below them, so the
outcome is the same as if all had been handed in at once.

## Main results

* `resolve_stepwise`: values over the values of a result give the same result as values over the
  values that the result was made with.

## Implementation notes

The values of a result may hold dates, which no document does. So forms are resolved here with any
initial values, with the room for copies that values from a document have.
-/

namespace Formwork

namespace Audit

variable {ε ε' α β : Type}

theorem ofExcept_ok_bind (a : α) (f : α → Audit ε β) : (ofExcept (.ok a) >>= f) = f a := rfl

/-- Errors may be changed step by step. -/
theorem mapError_bind (g : ε → ε') (x : Audit ε α) (f : α → Audit ε β) :
    (x >>= f).mapError g = x.mapError g >>= fun a => (f a).mapError g := by
  show (x.andThen f).mapError g = (x.mapError g).andThen fun a => (f a).mapError g
  unfold andThen mapError
  cases x.outcome <;> rfl

end Audit

/-- The calls of a copy of an initial value that are open at once; a date has no parts. -/
def InitialValue.height : InitialValue → Nat
  | .json j => j.height
  | .date _ => 1

section

variable [Host]

/-- The host has room for a copy of the values together with the mapping that holds them. -/
def InitialValues.copyable (values : InitialValues) : Bool :=
  values.all fun e => e.2.height < Host.callerRoom

namespace InitialValues

theorem copyable_iff {values : InitialValues} :
    values.copyable = true ↔ ∀ e ∈ values, e.2.height < Host.callerRoom := by
  simp [copyable]

/-- Values that can be copied can be so when they are set over others that can. -/
theorem copyable_override {values more : InitialValues} (h : values.copyable = true)
    (hmore : more.copyable = true) : (values.override more).copyable = true := by
  rw [copyable_iff] at h hmore ⊢
  exact Entries.forall_mem_merge (P := fun v : InitialValue => v.height < Host.callerRoom) h hmore

end InitialValues

end

namespace Form

section

variable [Host]

/-- Resolves a form with initial values that may hold dates. -/
def resolveValues (options : Options) (values : InitialValues) (form : Form) :
    Audit Fault Resolution :=
  if values.copyable then form.resolve options values
  else do
    let _ ← form.defaults options.dateReference
    .fail .storage

theorem copyable_mapValues (initial : Overrides) :
    InitialValues.copyable (Entries.mapValues .json (initial.getD [])) =
      copyable (initial.map .obj) := by
  cases initial with
  | none => simp [InitialValues.copyable, copyable, Entries.mapValues]
  | some ms =>
      have hheight : (Json.obj ms).height ≤ Host.callerRoom ↔
          ∀ e ∈ ms, e.2.height < Host.callerRoom := by
        obtain ⟨room, hroom⟩ := Nat.exists_eq_succ_of_ne_zero
          (Nat.ne_of_gt (Nat.lt_of_lt_of_le Nat.two_pos Host.two_le_callerRoom))
        rw [hroom, Json.height_obj_le_iff]
        exact forall₂_congr fun _ _ => Nat.lt_succ_iff.symm
      rw [Bool.eq_iff_iff, InitialValues.copyable_iff, Option.getD_some, Entries.mapValues,
        List.forall_mem_map, Option.map_some, copyable_some_iff]
      exact hheight.symm

/-- Values from a document are initial values without dates. -/
theorem resolveWith_eq_resolveValues (options : Options) (initial : Overrides) (form : Form) :
    form.resolveWith options (initial.map .obj) =
      (form.resolveValues options (Entries.mapValues .json (initial.getD []))).mapError .fault := by
  rw [resolveWith, resolveValues, copyable_mapValues, overridesOf_eq_ok, Audit.ofExcept_ok_bind]
  by_cases hcopyable : copyable (initial.map .obj) = true
  · rw [if_pos hcopyable, if_pos hcopyable]
  · rw [if_neg hcopyable, if_neg hcopyable, Audit.mapError_bind]
    rfl

theorem resolveValues_of_copyable {options : Options} {values : InitialValues} {form : Form}
    (h : values.copyable = true) :
    form.resolveValues options values = form.resolve options values :=
  if_pos h

/-- The defaults of the form may lie in a mapping that is copied. -/
def ShallowDefaults (form : Form) : Prop :=
  ∀ p ∈ form.fields.flatMap Field.bound, ∀ v ∈ p.2.effectiveDefault, v.height < Host.callerRoom

theorem height_of_given? {reference : DateTime} {f : Field} {limit : Nat} (hlimit : 1 < limit)
    (h : ∀ v ∈ f.effectiveDefault, v.height < limit) {value : InitialValue}
    (hvalue : f.given? reference = some value) : value.height < limit := by
  cases value with
  | date d => exact hlimit
  | json j =>
      cases hdate : f.dateDefault with
      | some v => simp [Field.given?_of_dateDefault hdate] at hvalue
      | none =>
          rw [Field.given?_of_no_dateDefault hdate] at hvalue
          obtain ⟨v, hv, heq⟩ := Option.map_eq_some_iff.mp hvalue
          cases heq
          exact h j hv

theorem copyable_given {reference : DateTime} {form : Form} (h : form.ShallowDefaults) :
    (form.given reference).copyable = true := by
  rw [InitialValues.copyable_iff]
  intro e he
  obtain ⟨p, hp, he⟩ := List.mem_filterMap.mp he
  obtain ⟨value, hvalue, rfl⟩ := Option.map_eq_some_iff.mp he
  exact height_of_given? Host.two_le_callerRoom (h p hp) hvalue

/-- A form whose defaults are known is resolved with the values set over them. -/
theorem outcome_resolve {options : Options} {form : Form} {defaults : InitialValues}
    (h : (form.defaults options.dateReference).outcome = .ok defaults) (values : InitialValues) :
    (form.resolve options values).outcome =
      .ok ⟨form, form.describe options (defaults.override values), defaults.override values⟩ := by
  simp only [resolve, Audit.outcome_bind_eq_ok_iff, h, Audit.outcome_note, Audit.outcome_pure,
    Except.ok.injEq]
  exact ⟨defaults, rfl, (), trivial, (), trivial, rfl⟩

/-- A verified form is resolved with any values. Values that are set over those of the result give
the same as if they had been set over the values that were handed in first, and the values of the
result alone give the result again. Copies of the values do not change this, if there is room for
each default in a mapping that is copied. -/
theorem resolve_stepwise {document : Json} {form : Form}
    (h : (verifyParts document).outcome = .ok form) (options : Options) {values : InitialValues}
    (hkeys : (Entries.keys values).Nodup) (more : InitialValues) :
    ∃ first result, (form.resolve options values).outcome = .ok first ∧
      (form.resolve options (first.values.override more)).outcome = .ok result ∧
      (form.resolve options (values.override more)).outcome = .ok result ∧
      (form.resolve options first.values).outcome = .ok first ∧
      (form.ShallowDefaults → values.copyable = true → more.copyable = true →
        (form.resolveValues options values).outcome = .ok first ∧
        (form.resolveValues options (first.values.override more)).outcome = .ok result ∧
        (form.resolveValues options (values.override more)).outcome = .ok result ∧
        (form.resolveValues options first.values).outcome = .ok first) := by
  obtain ⟨defaults, hdefaults⟩ :=
    defaults_of_documentOf (verifyParts_eq_ok_iff.mp h) options.dateReference
  have hnil : (Entries.keys ([] : InitialValues)).Nodup := List.nodup_nil
  have hnodup : (Entries.keys defaults).Nodup := by
    rw [defaults_eq_merge hdefaults]
    exact Entries.nodup_keys_merge hnil _
  have hset : (Entries.keys (defaults.override values)).Nodup :=
    Entries.nodup_keys_merge hnodup values
  have hagain : defaults.override (defaults.override values) = defaults.override values :=
    calc defaults.override (defaults.override values)
        = (defaults.override defaults).override values := (Entries.merge_merge hnodup values).symm
      _ = defaults.override values :=
          congrArg (InitialValues.override · values) (Entries.merge_self hnodup)
  have hstep : defaults.override ((defaults.override values).override more) =
      defaults.override (values.override more) :=
    calc defaults.override ((defaults.override values).override more)
        = (defaults.override (defaults.override values)).override more :=
          (Entries.merge_merge hset more).symm
      _ = (defaults.override values).override more := by rw [hagain]
      _ = defaults.override (values.override more) := Entries.merge_merge hkeys more
  have hfirst := outcome_resolve hdefaults values
  have hresult := outcome_resolve hdefaults (values.override more)
  have hmore := outcome_resolve hdefaults ((defaults.override values).override more)
  have hback := outcome_resolve hdefaults (defaults.override values)
  rw [hstep] at hmore
  rw [hagain] at hback
  refine ⟨_, _, hfirst, hmore, hresult, hback, fun hshallow hvalues hmoreCopyable => ?_⟩
  have hcopyable : (defaults.override values).copyable = true := by
    refine InitialValues.copyable_override ?_ hvalues
    rw [defaults_eq_merge hdefaults]
    exact InitialValues.copyable_override rfl (copyable_given hshallow)
  rw [resolveValues_of_copyable hvalues, resolveValues_of_copyable hcopyable,
    resolveValues_of_copyable (InitialValues.copyable_override hcopyable hmoreCopyable),
    resolveValues_of_copyable (InitialValues.copyable_override hvalues hmoreCopyable)]
  exact ⟨hfirst, hmore, hresult, hback⟩

end

/-- A form with two texts and a date, all with defaults. -/
def tripForm : Form :=
  ⟨[.leaf (.named "from") (.string ⟨none, none⟩) (some (.str "home")),
    .leaf (.named "day") (.date none none) (some (.str "2024-05-06")),
    .leaf (.named "to") (.string ⟨none, none⟩) (some (.str "sea"))], none⟩

attribute [local instance] Host.standard in
/-- A caller sets one text and a value that the form does not know, and then the other text and the
same value again. -/
theorem resolve_trip :
    let values : InitialValues := [("seats", .json (.int 1)), ("to", .json (.str "lake"))]
    let more : InitialValues := [("from", .json (.str "work")), ("seats", .json (.int 2))]
    (∃ first result, (tripForm.resolve .standard values).outcome = .ok first ∧
      (tripForm.resolve .standard (first.values.override more)).outcome = .ok result ∧
      (tripForm.resolve .standard (values.override more)).outcome = .ok result ∧
      (tripForm.resolve .standard first.values).outcome = .ok first) ∧
    ((tripForm.resolve .standard (values.override more)).outcome.toOption.bind
        fun result => result.values.toMembers?) =
      some [("from", .str "work"), ("day", .str "2024-05-06T00:00:00"), ("to", .str "lake"),
        ("seats", .int 2)] := by
  intro values more
  have hverify : (verifyParts tripForm.toJson).outcome = .ok tripForm := rfl
  have hkeys : (Entries.keys values).Nodup := by decide
  obtain ⟨first, result, hfirst, hmore, hresult, hback, -⟩ :=
    resolve_stepwise hverify .standard hkeys more
  exact ⟨⟨first, result, hfirst, hmore, hresult, hback⟩, by decide +kernel⟩

end Form

end Formwork
