import Formwork.Proofs.Outcome
import Formwork.Verification.Value

/-!
# The values that a field accepts

What a field accepts is said without going through a value: by its type, and inside
objects and arrays by the types of properties and elements. The check of a value
finds no mismatch exactly for these values.
-/

namespace Formwork

/-- One of the options has the value: the same text, or a number of the same size. -/
def Choice.Offered (options : List Choice) (v : Json) : Prop :=
  ∃ c ∈ options, (∃ s, c.value = .text s ∧ v = .str s) ∨
    ∃ x y p, c.value = .number x ∧ v = .num y ∧ x.place? = some p ∧ y.place? = some p

theorem Number.same_iff (x y : Number) :
    x.same y = true ↔ ∃ p, x.place? = some p ∧ y.place? = some p := by
  unfold Number.same
  cases hx : x.place? with
  | none => simp
  | some p =>
      cases hy : y.place? with
      | none => simp
      | some q => simp [@eq_comm _ p q]

theorem Choice.offered_iff (options : List Choice) (v : Json) :
    Choice.offered options v = true ↔ Choice.Offered options v := by
  unfold Choice.offered Choice.Offered
  cases v with
  | str s =>
      simp only [OptionValue.ofJson?, List.any_eq_true]
      refine exists_congr fun c => and_congr_right fun _ => ?_
      cases hc : c.value with
      | text t => simp [OptionValue.same, @eq_comm _ t s]
      | number x => simp [OptionValue.same]
  | num y =>
      simp only [OptionValue.ofJson?, List.any_eq_true]
      refine exists_congr fun c => and_congr_right fun _ => ?_
      cases hc : c.value <;> simp [OptionValue.same, Number.same_iff]
  | _ => simp [OptionValue.ofJson?]

theorem mismatchUnless_eq_none_iff {holds : Bool} {m : Mismatch} :
    mismatchUnless holds m = none ↔ holds = true := by
  cases holds <;> simp [mismatchUnless]

variable [Host]

/-- The value can be read as a date. -/
def DateText.IsDate (v : Json) : Prop :=
  ∃ d, DateText.parse .epoch v = .ok d

/-- The values that a leaf accepts. -/
def Leaf.Accepts (v : Json) : Leaf → Prop
  | .string _ | .longtext _ _ | .json => ∃ s, v = .str s
  | .number _ _ _ => ∃ x, v = .num x
  | .checkbox _ => ∃ b, v = .bool b
  | .radio options | .select options none => Choice.Offered options v
  | .select options (some _) => ∃ vs, v = .arr vs ∧ ∀ w ∈ vs, Choice.Offered options w
  | .upload _ _ _ _ _ => ∃ vs, v = .arr vs
  | .date _ _ => DateText.IsDate v

namespace Field

/-- The values that a field accepts inside an object or an array: any at all if the field is an
object or an array itself. -/
def AcceptsInside (v : Json) : Field → Prop
  | .leaf _ l _ => l.Accepts v
  | .array _ _ _ _ | .object _ _ _ => True

/-- The entry belongs to one of the properties, which accepts its value. -/
def AcceptsEntry (properties : List (String × Field)) (e : String × Json) : Prop :=
  ∃ f, properties.lookup e.1 = some f ∧ f.AcceptsInside e.2

/-- The values that a field accepts. -/
def Accepts (v : Json) : Field → Prop
  | .leaf _ l _ => l.Accepts v
  | .object _ properties _ => ∃ es, v = .obj es ∧ ∀ e ∈ es, AcceptsEntry properties e
  | .array _ items _ _ => ∃ vs, v = .arr vs ∧ ∀ w ∈ vs, items.AcceptsInside w

/-- What a field accepts, it accepts inside of others, too. -/
theorem acceptsInside_of_accepts {f : Field} {v : Json} (h : f.Accepts v) :
    f.AcceptsInside v := by
  cases f with
  | leaf a l d => exact h
  | _ => trivial

end Field

/-- Reading a value as a date ends in a date, in none, or breaks off. -/
theorem tryDate_outcome (reference : DateTime) (v : Json) :
    (tryDate reference v).outcome =
      match DateText.parse reference v with
      | .ok d => .ok (some d)
      | .error (.rejected _) => .ok none
      | .error .imprecise => .error .imprecise := by
  unfold tryDate
  cases DateText.parse reference v with
  | ok d => rfl
  | error e => cases e <;> rfl

theorem tryDate_eq_some_iff {reference d : DateTime} {v : Json} :
    (tryDate reference v).outcome = .ok (some d) ↔ DateText.parse reference v = .ok d := by
  rw [tryDate_outcome]
  split <;> simp_all

theorem Leaf.check_eq_none_iff (l : Leaf) (v : Json) :
    (l.check v).outcome = .ok none ↔ l.Accepts v := by
  cases l with
  | select options mode =>
      cases mode with
      | none => simp [check, Accepts, mismatchUnless_eq_none_iff, Choice.offered_iff]
      | some m => cases v <;> simp [check, Accepts, mismatchUnless_eq_none_iff, Choice.offered_iff]
  | radio options => simp [check, Accepts, mismatchUnless_eq_none_iff, Choice.offered_iff]
  | date format showTime =>
      simp only [check, Accepts, DateText.IsDate, Audit.outcome_bind_eq_ok_iff,
        Audit.outcome_pure, Except.ok.injEq, mismatchUnless_eq_none_iff]
      constructor
      · intro h
        obtain ⟨d, hd, hs⟩ := h
        obtain ⟨e, rfl⟩ := Option.isSome_iff_exists.mp hs
        exact ⟨e, tryDate_eq_some_iff.mp hd⟩
      · intro h
        obtain ⟨d, hd⟩ := h
        exact ⟨some d, tryDate_eq_some_iff.mpr hd, rfl⟩
  | _ => cases v <;> simp [check, Accepts]

namespace Field

theorem checkInner_eq_none_iff (f : Field) (v : Json) :
    (f.checkInner v).outcome = .ok none ↔ f.AcceptsInside v := by
  cases f with
  | leaf a l d => exact l.check_eq_none_iff v
  | _ => simp [checkInner, AcceptsInside]

theorem checkEntries_eq_none_iff (properties : List (String × Field))
    (es : List (String × Json)) :
    (checkEntries properties es).outcome = .ok none ↔
      ∀ e ∈ es, AcceptsEntry properties e := by
  induction es with
  | nil => simp [checkEntries]
  | cons e rest ih =>
      obtain ⟨key, v⟩ := e
      rw [List.forall_mem_cons, ← ih, checkEntries, AcceptsEntry]
      cases properties.lookup key with
      | none => simp
      | some f =>
          simp only [Option.some.injEq, exists_eq_left', ← checkInner_eq_none_iff]
          exact Audit.outcome_bind_none_eq_ok_iff (by simp)

theorem checkElements_eq_none_iff (items : Field) (index : Nat) (vs : List Json) :
    (checkElements items index vs).outcome = .ok none ↔ ∀ v ∈ vs, items.AcceptsInside v := by
  induction vs generalizing index with
  | nil => simp [checkElements]
  | cons v rest ih =>
      rw [List.forall_mem_cons, ← ih (index + 1), ← checkInner_eq_none_iff]
      exact Audit.outcome_bind_none_eq_ok_iff (by simp)

/-- The check of a value finds no mismatch exactly if the field accepts the value. -/
theorem check_eq_none_iff (f : Field) (v : Json) :
    (f.check v).outcome = .ok none ↔ f.Accepts v := by
  cases f with
  | leaf a l d => exact l.check_eq_none_iff v
  | array a items count d =>
      cases v <;> simp [check, Accepts, checkElements_eq_none_iff]
  | object a properties d =>
      cases v <;> simp [check, Accepts, checkEntries_eq_none_iff]

end Field

end Formwork
