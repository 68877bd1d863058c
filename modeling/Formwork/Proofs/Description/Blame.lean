import Formwork.Proofs.Description.Acceptance

/-!
# Flaws that a field is blamed for

Every check of a field reports a flaw of that field: the failure has the path and the name of the
field, and its wording has the name in it. Only what is wrong inside a default adds to the path, and
then the field has a default.
-/

namespace Formwork

/-- The text has the name in it. -/
def Mentions (name s : String) : Prop :=
  name.toList <:+: s.toList

namespace Mentions

variable {name s : String}

theorem self (name : String) : Mentions name name :=
  List.infix_rfl

theorem append_left (h : Mentions name s) (t : String) : Mentions name (s ++ t) := by
  rw [Mentions, String.toList_append]
  exact h.trans (List.infix_append [] _ _)

theorem append_right (h : Mentions name s) (t : String) : Mentions name (t ++ s) := by
  rw [Mentions, String.toList_append]
  exact h.trans (List.suffix_append _ _).isInfix

end Mentions

namespace Flaw

/-- The wording of the flaw does not name the field, which has no name that could be told. -/
def isNameless : Flaw → Bool
  | .notObject | .noName => true
  | _ => false

/-- The flaw lies inside of a default. -/
def isInDefault : Flaw → Bool
  | .item _ _ | .unknownProperty _ | .property _ _ => true
  | _ => false

theorem suffix_of_not_isInDefault {flaw : Flaw} (h : flaw.isInDefault = false) :
    flaw.suffix = "" := by
  cases flaw <;> first | rfl | cases h

/-- The flaw names its field and does not lie inside of a default. -/
def Outright (flaw : Flaw) : Prop :=
  flaw.isNameless = false ∧ flaw.isInDefault = false

/-- What a flaw adds to the path leads into the default. -/
theorem suffix_of_isInDefault {flaw : Flaw} (h : flaw.isInDefault = true) :
    ∃ rest, flaw.suffix = ".defaultValue" ++ rest := by
  have hmark : ".defaultValue[" = ".defaultValue" ++ "[" := rfl
  have hdot : ".defaultValue." = ".defaultValue" ++ "." := rfl
  cases flaw with
  | item index mismatch =>
      refine ⟨"[" ++ Number.shown index ++ "]" ++ mismatch.path, ?_⟩
      dsimp only [suffix]
      simp only [hmark, String.append_assoc]
  | unknownProperty key =>
      refine ⟨"." ++ key, ?_⟩
      dsimp only [suffix]
      rw [hdot, String.append_assoc]
  | property key mismatch =>
      refine ⟨"." ++ key ++ mismatch.path, ?_⟩
      dsimp only [suffix]
      simp only [hdot, String.append_assoc]
  | _ => cases h

/-- The wording names the field, at its end or before other pieces of text. -/
theorem mentions_message {flaw : Flaw} (h : flaw.isNameless = false) (name : String) :
    Mentions name (flaw.message name) := by
  have hname := fun s => (Mentions.self name).append_right s
  cases flaw with
  | notObject => cases h
  | noName => cases h
  | _ =>
      dsimp only [message]
      repeat first
        | with_reducible exact hname _
        | with_reducible apply Mentions.append_left

end Flaw

namespace Checked

variable {α β : Type} {P : Flaw → Prop} {ms : Members} {flaw : Flaw}

/-- Whatever the checks report has the property. -/
def Blames (P : Flaw → Prop) (x : Checked α) : Prop :=
  ∀ flaw, x = .error flaw → P flaw

theorem blames_ok (a : α) : Blames P (Except.ok a : Checked α) := nofun

theorem blames_error (h : P flaw) : Blames P (Except.error flaw : Checked α) := by
  rintro _ ⟨⟩
  exact h

theorem Blames.bind {x : Checked α} {f : α → Checked β} (hx : Blames P x)
    (hf : ∀ a, Blames P (f a)) : Blames P (x >>= f) := by
  intro flaw h
  rcases bind_eq_error_iff.mp h with h | ⟨a, -, h⟩
  · exact hx flaw h
  · exact hf a flaw h

theorem blames_optional {key : String} {form : Json → Option α} (h : P flaw) :
    Blames P (optional ms key form flaw) := by
  unfold optional
  split
  · exact blames_ok _
  · split
    · exact blames_ok _
    · exact blames_error h

theorem blames_defaultOf {form : Json → Option α} (h : P flaw) :
    Blames P (defaultOf ms form flaw) := by
  unfold defaultOf
  split
  · exact blames_ok _
  · split
    · exact blames_ok _
    · exact blames_error h

theorem Blames.map {x : Checked α} (hx : Blames P x) (f : α → β) : Blames P (f <$> x) := by
  cases x with
  | ok a => exact blames_ok _
  | error flaw => exact blames_error (hx flaw rfl)

/-- A flaw that a condition stands for, or what the other checks report. -/
theorem Blames.ite {p : Prop} [Decidable p] {x : Checked α} (hflaw : P flaw) (hx : Blames P x) :
    Blames P (if p then .error flaw else x) := by
  by_cases h : p
  · rw [if_pos h]
    exact blames_error hflaw
  · rwa [if_neg h]

open Flaw (Outright)

theorem blames_card (v : Json) : Blames Outright (card v) := by
  cases v with
  | obj ms =>
      exact (blames_optional ⟨rfl, rfl⟩).bind fun _ => (blames_optional ⟨rfl, rfl⟩).bind fun _ =>
        (blames_optional ⟨rfl, rfl⟩).bind fun _ => (blames_optional ⟨rfl, rfl⟩).bind fun _ =>
        (blames_optional ⟨rfl, rfl⟩).bind fun _ => blames_ok _
  | _ => exact blames_error ⟨rfl, rfl⟩

theorem blames_attributes (ms : Members) (name : String) :
    Blames Outright (attributes ms name) := by
  refine (blames_optional ⟨rfl, rfl⟩).bind fun _ => (blames_optional ⟨rfl, rfl⟩).bind fun _ =>
    (blames_optional ⟨rfl, rfl⟩).bind fun _ => (blames_optional ⟨rfl, rfl⟩).bind fun _ =>
    (blames_optional ⟨rfl, rfl⟩).bind fun _ => (blames_optional ⟨rfl, rfl⟩).bind fun _ => ?_
  dsimp only
  split
  · exact (blames_ok _).bind fun _ => blames_ok _
  · exact ((blames_card _).map _).bind fun _ => blames_ok _

theorem blames_bounds (ms : Members) (lowerKey upperKey : String) :
    Blames Outright (bounds ms lowerKey upperKey) := by
  refine (blames_optional ⟨rfl, rfl⟩).bind fun lower => ?_
  refine (blames_optional ⟨rfl, rfl⟩).bind fun upper => ?_
  cases lower with
  | none => exact blames_ok _
  | some l =>
      cases upper with
      | none => exact blames_ok _
      | some u =>
          dsimp only
          split
          · exact (blames_error ⟨rfl, rfl⟩).bind fun _ => blames_ok _
          · exact blames_ok _

theorem blames_string (ms : Members) : Blames Outright (string ms) :=
  (blames_defaultOf ⟨rfl, rfl⟩).bind fun _ => (blames_bounds _ _ _).bind fun _ => blames_ok _

theorem blames_longtext (ms : Members) : Blames Outright (longtext ms) :=
  (blames_defaultOf ⟨rfl, rfl⟩).bind fun _ => (blames_bounds _ _ _).bind fun _ =>
    (blames_optional ⟨rfl, rfl⟩).bind fun _ => blames_ok _

theorem blames_number (ms : Members) : Blames Outright (number ms) := by
  refine (blames_defaultOf ⟨rfl, rfl⟩).bind fun _ => (blames_optional ⟨rfl, rfl⟩).bind fun _ =>
    (blames_optional ⟨rfl, rfl⟩).bind fun _ => (blames_optional ⟨rfl, rfl⟩).bind fun _ => ?_
  exact .ite ⟨rfl, rfl⟩ (.ite ⟨rfl, rfl⟩ (.ite ⟨rfl, rfl⟩ (blames_ok _)))

theorem blames_checkbox (ms : Members) : Blames Outright (checkbox ms) :=
  (blames_defaultOf ⟨rfl, rfl⟩).bind fun _ => (blames_optional ⟨rfl, rfl⟩).bind fun _ => blames_ok _

theorem blames_choices (ms : Members) (type : FieldType) : Blames Outright (choices ms type) := by
  unfold choices
  split
  · exact blames_error ⟨rfl, rfl⟩
  · split
    · exact blames_ok _
    · exact blames_error ⟨rfl, rfl⟩
  · exact blames_error ⟨rfl, rfl⟩

theorem blames_select (ms : Members) : Blames Outright (select ms) :=
  (blames_choices _ _).bind fun _ => (blames_optional ⟨rfl, rfl⟩).bind fun _ => blames_ok _

theorem blames_upload (ms : Members) : Blames Outright (upload ms) :=
  (blames_optional ⟨rfl, rfl⟩).bind fun _ => (blames_optional ⟨rfl, rfl⟩).bind fun _ =>
    (blames_optional ⟨rfl, rfl⟩).bind fun _ => (blames_optional ⟨rfl, rfl⟩).bind fun _ =>
    (blames_optional ⟨rfl, rfl⟩).bind fun _ => (blames_defaultOf ⟨rfl, rfl⟩).bind fun _ =>
    blames_ok _

theorem blames_choiceDefault (ms : Members) (l : Leaf) : Blames Outright (choiceDefault ms l) := by
  unfold choiceDefault
  split
  · exact blames_ok _
  · split
    · split
      · split
        · exact blames_ok _
        · exact blames_error ⟨rfl, rfl⟩
      · exact blames_error ⟨rfl, rfl⟩
    · split
      · exact blames_ok _
      · exact blames_error ⟨rfl, rfl⟩

end Checked

namespace Field

open Checked (Members)

variable {α β : Type} {path name : String} {ms : Members} {a : Attributes}

theorem joinPath_of_ne {base : String} (h : base ≠ "") (key : String) :
    joinPath base key = base ++ "." ++ key :=
  if_neg h

theorem joinPath_ne {base : String} (h : base ≠ "") (key : String) : joinPath base key ≠ "" := by
  rw [joinPath_of_ne h]
  simp

/-- The failure of a field at a path by a flaw of its own. -/
def ownFailure (path name : String) (flaw : Flaw) : Failure :=
  .field ⟨some (path ++ flaw.suffix), [], name, flaw⟩

/-- The flaw names its field, and it lies inside of a default only if there is one. -/
def OwnFlaw (ms : Members) (flaw : Flaw) : Prop :=
  flaw.isNameless = false ∧
    (flaw.isInDefault = true → (Entries.get? ms "defaultValue").isSome = true)

theorem OwnFlaw.of_outright {flaw : Flaw} (h : flaw.Outright) : OwnFlaw ms flaw :=
  ⟨h.1, fun hdefault => by rw [h.2] at hdefault; cases hdefault⟩

variable [Host]

/-- The single steps in the checks of a field have the property, and what is put together from steps
that have it has it, too. -/
structure Compositional (ms : Members) (path name : String)
    (P : (α : Type) → Audit Stop α → Prop) : Prop where
  pure {α : Type} (b : α) : P α (pure b)
  bind {α β : Type} {x : Audit Stop α} {f : α → Audit Stop β} (hx : P α x) (hf : ∀ b, P β (f b)) :
    P β (x >>= f)
  refuse {α : Type} {flaw : Flaw} (h : OwnFlaw ms flaw) : P α (refuse path name flaw)
  check (f : Field) (v : Json) : P _ (faulty (f.check v))
  date (v : Json) : P _ (faulty (tryDate .epoch v))
  store (level : Nat) (f : Field) : P _ (store level f)

namespace Compositional

variable {P : (α : Type) → Audit Stop α → Prop} (hP : Compositional ms path name P) {level : Nat}

include hP

theorem checked {x : Checked α} (hx : x.Blames Flaw.Outright) :
    P α (Field.checked path name x) := by
  cases x with
  | ok b => exact hP.pure b
  | error flaw => exact hP.refuse (.of_outright (hx flaw rfl))

theorem leafOf {default : Option Json} {x : Checked Leaf} (hx : x.Blames Flaw.Outright) :
    P _ (leafOf level path name a default x) :=
  hP.bind (hP.checked hx) fun _ => hP.store _ _

theorem choiceOf {x : Checked Leaf} (hx : x.Blames Flaw.Outright) :
    P _ (choiceOf level path name ms a x) :=
  hP.bind (hP.checked hx) fun _ => hP.bind (hP.store _ _) fun _ =>
    hP.bind (hP.checked (Checked.blames_choiceDefault _ _)) fun _ => hP.pure _

theorem dateOf : P _ (dateOf level path name ms a) := by
  have hrest : P _ (do
      let format ← Field.checked path name
        (Checked.optional ms "format" Checked.text? .dateFormat)
      let showTime ← Field.checked path name
        (Checked.optional ms "showTime" Checked.bool? .showTime)
      Field.store level (.leaf a (.date format showTime) (Checked.authoredDefault ms))) :=
    hP.bind (hP.checked (Checked.blames_optional ⟨rfl, rfl⟩)) fun _ =>
      hP.bind (hP.checked (Checked.blames_optional ⟨rfl, rfl⟩)) fun _ => hP.store _ _
  unfold Field.dateOf
  cases hd : Checked.authoredDefault ms with
  | none =>
      rw [hd] at hrest
      exact hrest
  | some v =>
      rw [hd] at hrest
      refine hP.bind (hP.date v) fun d => ?_
      cases d with
      | none => exact hP.bind (hP.refuse (.of_outright ⟨rfl, rfl⟩)) fun _ => hrest
      | some d => exact hrest

theorem defaultElements (hdefault : (Entries.get? ms "defaultValue").isSome = true)
    (items : Field) (index : Nat) (vs : List Json) :
    P _ (defaultElements path name items index vs) := by
  induction vs generalizing index with
  | nil => exact hP.pure ()
  | cons v rest ih =>
      refine hP.bind (hP.check items v) fun m => ?_
      cases m with
      | none => exact ih (index + 1)
      | some m => exact hP.refuse ⟨rfl, fun _ => hdefault⟩

/-- A flaw that a condition stands for may come before other steps. -/
theorem ite_refuse {p : Prop} [Decidable p] {flaw : Flaw} {next : α → Audit Stop β}
    {x : Audit Stop β} (hflaw : flaw.Outright) (hnext : ∀ b, P β (next b)) (hx : P β x) :
    P β (if p then Field.refuse path name flaw >>= next else x) := by
  by_cases h : p
  · rw [if_pos h]
    exact hP.bind (hP.refuse (.of_outright hflaw)) hnext
  · rwa [if_neg h]

theorem arrayDefault (items : Field) (count : Bounds) :
    P _ (arrayDefault path name items count (Checked.authoredDefault ms)) := by
  cases hd : Checked.authoredDefault ms with
  | none => exact hP.pure ()
  | some v =>
      have hdefault : (Entries.get? ms "defaultValue").isSome = true :=
        Option.isSome_iff_exists.mpr ⟨v, hd⟩
      cases v with
      | arr vs =>
          have hrest := hP.defaultElements hdefault items 0 vs
          have hupper : ∀ most : Nat, P _ (if most < vs.length then
              Field.refuse path name (.manyItems most) >>= fun _ : Unit =>
                Field.defaultElements path name items 0 vs
              else Field.defaultElements path name items 0 vs) :=
            fun most => hP.ite_refuse ⟨rfl, rfl⟩ (fun _ => hrest) hrest
          obtain ⟨lower, upper⟩ := count
          cases lower with
          | none =>
              cases upper with
              | none => exact hrest
              | some most => exact hupper most
          | some least =>
              cases upper with
              | none => exact hP.ite_refuse ⟨rfl, rfl⟩ (fun _ => hrest) hrest
              | some most => exact hP.ite_refuse ⟨rfl, rfl⟩ (fun _ => hupper most) (hupper most)
      | _ => exact hP.refuse (.of_outright ⟨rfl, rfl⟩)

theorem defaultEntries (hdefault : (Entries.get? ms "defaultValue").isSome = true)
    (properties : List (String × Field)) (es : List (String × Json)) :
    P _ (defaultEntries path name properties es) := by
  induction es with
  | nil => exact hP.pure ()
  | cons e rest ih =>
      rw [Field.defaultEntries]
      split
      · exact hP.refuse ⟨rfl, fun _ => hdefault⟩
      · rename_i f _
        refine hP.bind (hP.check f e.2) fun m => ?_
        cases m with
        | none => exact ih
        | some m => exact hP.refuse ⟨rfl, fun _ => hdefault⟩

/-- What the type of a leaf adds is made of such steps. -/
theorem payload_leaf {child : String → Json → Audit Stop Field} {t : FieldType} (ht : t ≠ .array)
    (ht' : t ≠ .object) : P _ (payload level child path name ms a t) := by
  cases t with
  | array => exact absurd rfl ht
  | object => exact absurd rfl ht'
  | string => exact hP.leafOf (Checked.blames_string ms)
  | longtext => exact hP.leafOf (Checked.blames_longtext ms)
  | number => exact hP.leafOf (Checked.blames_number ms)
  | checkbox => exact hP.leafOf (Checked.blames_checkbox ms)
  | radio => exact hP.choiceOf ((Checked.blames_choices ms _).map _)
  | select => exact hP.choiceOf (Checked.blames_select ms)
  | upload => exact hP.leafOf (Checked.blames_upload ms)
  | date => exact hP.dateOf
  | json =>
      exact hP.leafOf ((Checked.blames_defaultOf ⟨rfl, rfl⟩).bind fun _ => Checked.blames_ok _)

end Compositional

/-- Every failure is one of the field at the path, by a flaw of its own. -/
def Blames (ms : Members) (path name : String) (x : Audit Stop α) : Prop :=
  ∀ e, x.outcome = .error (.failure e) → ∃ flaw, OwnFlaw ms flaw ∧ e = ownFailure path name flaw

/-- The checks of a field blame nothing but the field. -/
theorem compositional_blames (ms : Members) (path name : String) :
    Compositional ms path name fun _ x => Blames ms path name x where
  pure _ := nofun
  bind hx hf := by
    intro e h
    rcases Audit.outcome_bind_eq_error_iff.mp h with h | ⟨b, -, h⟩
    · exact hx e h
    · exact hf b e h
  refuse h := by
    rintro _ ⟨⟩
    exact ⟨_, h, rfl⟩
  check f v := by
    intro e h
    obtain ⟨fault, -, h⟩ := mapError_eq_error_iff.mp h
    cases h
  date v := by
    intro e h
    obtain ⟨fault, -, h⟩ := mapError_eq_error_iff.mp h
    cases h
  store level f := by
    rw [store_eq]
    split <;> nofun

end Field

end Formwork
