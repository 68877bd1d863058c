import Formwork.Proofs.Description.Members

/-!
# Reading leaves

The checks of a type of leaf succeed with exactly the leaves of the type that the
members describe, provided that the authored default is one that the leaf may have.
Choices and dates check their defaults apart from their members.
-/

namespace Formwork

namespace Checked

open Description

variable {α : Type} {ms : Members}

theorem defaultOf_ok_iff {form : Json → Option α} {flaw : Flaw} :
    (∃ a, defaultOf ms form flaw = .ok a) ↔
      ∀ v ∈ Entries.get? ms "defaultValue", ∃ a, form v = some a := by
  unfold defaultOf authoredDefault
  cases Entries.get? ms "defaultValue" with
  | none => simp
  | some v =>
      dsimp only
      cases hf : form v <;> simp [hf]

/-- The two numbers are out of order exactly if both are given and the second one is less. -/
theorem notAbove_iff {a b : Option Number} :
    Number.NotAbove a b ↔
      (match a, b with
        | some a, some b => b.lt a
        | _, _ => false) = false := by
  cases a <;> cases b <;> simp [Number.NotAbove]

theorem defaultList_ok_iff {flaw : Flaw} :
    (∃ a, defaultOf ms (fun | .arr vs => some vs | _ => none) flaw = .ok a) ↔
      ∀ v ∈ Entries.get? ms "defaultValue", ∃ vs, v = .arr vs := by
  rw [defaultOf_ok_iff]
  refine forall₂_congr fun v _ => ?_
  cases v <;> simp

theorem choice?_eq_some_iff (v : Json) (c : Choice) : choice? v = some c ↔ ChoiceOf v c := by
  cases v with
  | obj ms =>
      have hvalue : ∀ w x, OptionValue.ofJson? w = some x ↔ w = x.toJson := by
        intro w x
        cases w <;> cases x <;> simp [OptionValue.ofJson?, OptionValue.toJson]
      simp only [choice?, ChoiceOf, Option.bind_eq_bind, Option.bind_eq_some_iff,
        text?_eq_some_iff, hvalue, Text, Json.obj.injEq, exists_eq_left']
      constructor
      · intro h
        obtain ⟨label, ⟨_, hl, rfl⟩, value, ⟨_, hv, rfl⟩, h⟩ := h
        cases h
        exact ⟨hl, hv⟩
      · intro h
        obtain ⟨hl, hv⟩ := h
        exact ⟨_, ⟨_, hl, rfl⟩, _, ⟨_, hv, rfl⟩, rfl⟩
  | _ => simp [choice?, ChoiceOf]

/-- Options are read from a list of descriptions of them that is not empty. -/
theorem choices_eq_ok_iff {type : FieldType} {options : List Choice} :
    choices ms type = .ok options ↔ OptionsOf ms options := by
  unfold choices OptionsOf
  split
  · rename_i h
    simp only [h, reduceCtorEq, Option.some.injEq, Json.arr.injEq, false_iff]
    rintro ⟨_, rfl, hne, _ | _⟩
    exact hne rfl
  · rename_i vs hne h
    simp only [h, Option.some.injEq, Json.arr.injEq, exists_eq_left']
    have hread : vs.mapM choice? = some options ↔ List.Forall₂ ChoiceOf vs options := by
      simp only [mapM_eq_some_iff, choice?_eq_some_iff]
    rw [← hread]
    cases hm : vs.mapM choice? with
    | none => simp
    | some cs =>
        simp only [Except.ok.injEq, Option.some.injEq, iff_and_self]
        rintro rfl rfl
        rcases mapM_eq_some_iff.mp hm with _ | _
        exact hne rfl
  · rename_i hne
    simp only [reduceCtorEq, false_iff]
    intro h
    obtain ⟨vs, h, -⟩ := h
    exact hne vs h

theorem radio_eq_ok_iff {l : Leaf} :
    (.radio <$> choices ms .radio) = .ok l ↔ l.type = .radio ∧ LeafOf ms l := by
  simp only [map_eq_ok_iff, choices_eq_ok_iff]
  constructor
  · intro h
    obtain ⟨options, ho, rfl⟩ := h
    exact ⟨rfl, ho⟩
  · intro h
    obtain ⟨ht, ho⟩ := h
    cases l with
    | radio options => exact ⟨options, ho, rfl⟩
    | _ => cases ht

theorem select_eq_ok_iff {l : Leaf} :
    select ms = .ok l ↔ l.type = .select ∧ LeafOf ms l := by
  simp only [select, bind_eq_ok_iff, except_pure_eq_ok_iff, choices_eq_ok_iff,
    optional_named mode?_eq_some_iff]
  constructor
  · intro h
    obtain ⟨options, ho, mode, hm, rfl⟩ := h
    exact ⟨rfl, ho, hm⟩
  · intro h
    obtain ⟨ht, hl⟩ := h
    cases l with
    | select options mode => exact ⟨options, hl.1, mode, hl.2, rfl⟩
    | _ => cases ht

variable [Host]

/-- The default that is authored, if there is one, is one that the leaf may have. -/
def DefaultFits (ms : Members) (l : Leaf) : Prop :=
  ∀ v ∈ Entries.get? ms "defaultValue", LeafDefault l v

theorem string_eq_ok_iff {l : Leaf} :
    string ms = .ok l ↔ l.type = .string ∧ LeafOf ms l ∧ DefaultFits ms l := by
  simp only [string, bind_eq_ok_iff, except_pure_eq_ok_iff, bounds_eq_ok_iff, exists_and_right,
    defaultOf_ok_iff, text?_eq_some_iff]
  constructor
  · intro h
    obtain ⟨hd, length, hl, rfl⟩ := h
    exact ⟨rfl, hl, fun v hv => ⟨hd v hv, trivial⟩⟩
  · intro h
    obtain ⟨ht, hl, hd⟩ := h
    cases l with
    | string length => exact ⟨fun v hv => (hd v hv).1, length, hl, rfl⟩
    | _ => cases ht

theorem longtext_eq_ok_iff {l : Leaf} :
    longtext ms = .ok l ↔ l.type = .longtext ∧ LeafOf ms l ∧ DefaultFits ms l := by
  simp only [longtext, bind_eq_ok_iff, except_pure_eq_ok_iff, bounds_eq_ok_iff, optional_positive,
    exists_and_right, defaultOf_ok_iff, text?_eq_some_iff]
  constructor
  · intro h
    obtain ⟨hd, length, hl, rows, hr, rfl⟩ := h
    exact ⟨rfl, ⟨hl, hr⟩, fun v hv => ⟨hd v hv, trivial⟩⟩
  · intro h
    obtain ⟨ht, hl, hd⟩ := h
    cases l with
    | longtext length rows => exact ⟨fun v hv => (hd v hv).1, length, hl.1, rows, hl.2, rfl⟩
    | _ => cases ht

theorem number_eq_ok_iff {l : Leaf} :
    number ms = .ok l ↔ l.type = .number ∧ LeafOf ms l ∧ DefaultFits ms l := by
  simp only [number, bind_eq_ok_iff, optional_number, ite_error_eq_ok_iff, Bool.not_eq_true,
    except_pure_eq_ok_iff]
  constructor
  · intro h
    obtain ⟨default, hd, min, hmin, max, hmax, step, hstep, hrange, hbelow, habove, rfl⟩ := h
    refine ⟨rfl, ⟨hmin, hmax, hstep, notAbove_iff.mpr hrange⟩, fun v hv => ?_⟩
    rw [defaultOf, authoredDefault, Option.mem_def.mp hv] at hd
    dsimp only at hd
    cases hx : number? v with
    | none => simp [hx] at hd
    | some x =>
        rw [hx] at hd
        cases hd
        refine ⟨⟨x, (number?_eq_some_iff v x).mp hx⟩, ?_⟩
        rw [Leaf.Contains, hx]
        exact ⟨notAbove_iff.mpr hbelow, notAbove_iff.mpr habove⟩
  · intro h
    obtain ⟨ht, hl, hd⟩ := h
    cases l with
    | number min max step =>
        obtain ⟨hmin, hmax, hstep, hrange⟩ := hl
        have hdefault : ∃ d, defaultOf ms number? .defaultNotNumber = .ok d ∧
            Number.NotAbove min d ∧ Number.NotAbove d max := by
          cases hv : Entries.get? ms "defaultValue" with
          | none =>
              exact ⟨none, by simp [defaultOf, authoredDefault, hv], by simp [Number.NotAbove]⟩
          | some v =>
              obtain ⟨⟨x, rfl⟩, hx⟩ := hd v hv
              exact ⟨some x, by simp [defaultOf, authoredDefault, hv, number?], hx⟩
        obtain ⟨d, hd, hbelow, habove⟩ := hdefault
        exact ⟨d, hd, min, hmin, max, hmax, step, hstep, notAbove_iff.mp hrange,
          notAbove_iff.mp hbelow, notAbove_iff.mp habove, rfl⟩
    | _ => cases ht

theorem checkbox_eq_ok_iff {l : Leaf} :
    checkbox ms = .ok l ↔ l.type = .checkbox ∧ LeafOf ms l ∧ DefaultFits ms l := by
  simp only [checkbox, bind_eq_ok_iff, except_pure_eq_ok_iff, optional_bool, exists_and_right,
    defaultOf_ok_iff, bool?_eq_some_iff]
  constructor
  · intro h
    obtain ⟨hd, checked, hc, rfl⟩ := h
    exact ⟨rfl, hc, fun v hv => ⟨hd v hv, trivial⟩⟩
  · intro h
    obtain ⟨ht, hc, hd⟩ := h
    cases l with
    | checkbox checked => exact ⟨fun v hv => (hd v hv).1, checked, hc, rfl⟩
    | _ => cases ht

theorem upload_eq_ok_iff {l : Leaf} :
    upload ms = .ok l ↔ l.type = .upload ∧ LeafOf ms l ∧ DefaultFits ms l := by
  simp only [upload, bind_eq_ok_iff, except_pure_eq_ok_iff, optional_bool, optional_positive,
    optional_text, optional_size, optional_named listStyle?_eq_some_iff, exists_and_right]
  constructor
  · intro h
    obtain ⟨multiple, hm, maxCount, hc, maxSize, hs, accept, ha, style, hy, hd, rfl⟩ := h
    exact ⟨rfl, ⟨hm, hc, hs, ha, hy⟩, fun v hv => ⟨defaultList_ok_iff.mp hd v hv, trivial⟩⟩
  · intro h
    obtain ⟨ht, hl, hd⟩ := h
    cases l with
    | upload multiple maxCount maxSize accept style =>
        obtain ⟨hm, hc, hs, ha, hy⟩ := hl
        exact ⟨multiple, hm, maxCount, hc, maxSize, hs, accept, ha, style, hy,
          defaultList_ok_iff.mpr fun v hv => (hd v hv).1, rfl⟩
    | _ => cases ht

theorem json_eq_ok_iff {l : Leaf} :
    (do
      let _ ← defaultOf ms text? .defaultNotText
      return Leaf.json) = Except.ok l ↔ l.type = .json ∧ LeafOf ms l ∧ DefaultFits ms l := by
  simp only [bind_eq_ok_iff, except_pure_eq_ok_iff, exists_and_right, defaultOf_ok_iff,
    text?_eq_some_iff]
  constructor
  · intro h
    obtain ⟨hd, rfl⟩ := h
    exact ⟨rfl, trivial, fun v hv => ⟨hd v hv, trivial⟩⟩
  · intro h
    obtain ⟨ht, -, hd⟩ := h
    cases l with
    | json => exact ⟨fun v hv => (hd v hv).1, rfl⟩
    | _ => cases ht

/-- The default of a choice is checked apart, against the options that were read. -/
theorem choiceDefault_eq_ok_iff {l : Leaf} (h : l.type = .radio ∨ l.type = .select) :
    choiceDefault ms l = .ok () ↔ DefaultFits ms l := by
  unfold choiceDefault authoredDefault DefaultFits
  cases Entries.get? ms "defaultValue" with
  | none => simp
  | some v =>
      simp only [Option.mem_some_iff, forall_eq', LeafDefault]
      rw [← l.check_eq_none_iff]
      cases l with
      | radio options =>
          simp only [Leaf.isMultiple, Bool.false_eq_true, if_false, ite_ok_eq_ok_iff]
          simp [Leaf.options, Leaf.check, Leaf.Contains, mismatchUnless_eq_none_iff]
      | select options mode =>
          cases mode with
          | none =>
              simp only [Leaf.isMultiple, Option.isSome_none, Bool.false_eq_true, if_false,
                ite_ok_eq_ok_iff]
              simp [Leaf.options, Leaf.check, Leaf.Contains, mismatchUnless_eq_none_iff]
          | some m =>
              simp only [Leaf.isMultiple, Option.isSome_some, if_true]
              cases v with
              | arr vs =>
                  simp only [ite_ok_eq_ok_iff]
                  simp [Leaf.options, Leaf.check, Leaf.Contains, mismatchUnless_eq_none_iff]
              | _ => simp [Leaf.check]
      | _ => simp [Leaf.type] at h

end Checked

end Formwork
