import Formwork.Proofs.Json.Regular
import Formwork.Proofs.Number.Digits
import Formwork.Proofs.Outcome
import Formwork.Source

/-!
# What a reader returns

A reader that refuses constants returns regular values: no key occurs twice in an object, no
integer has more digits than the limit, and no binary number is undefined. Each token that is a
scalar is so, and every step of the reader keeps what is held so far regular.
-/

namespace Formwork

/-- The number can be spelled in a document: an integer within the limit on digits, or a binary
number that is not undefined. -/
def Number.Spelled : Number → Prop
  | .int n => Number.digitCount n.natAbs ≤ Text.digitLimit
  | .float x => x ≠ .undefined

namespace Binary64

theorem assemble_ne_undefined (negative : Bool) (significand power : Nat) :
    assemble negative significand power ≠ .undefined := by
  unfold assemble
  dsimp only
  split <;> simp

theorem ofDecimal_ne_undefined (negative : Bool) (significand : Nat) (exponent : Int) :
    ofDecimal negative significand exponent ≠ .undefined := by
  unfold ofDecimal ofUnits
  dsimp only
  split
  · exact assemble_ne_undefined _ _ _
  split
  · simp
  split
  · exact assemble_ne_undefined _ _ _
  split <;> exact assemble_ne_undefined _ _ _

end Binary64

namespace Json

theorem areDigits_takeWhile (s : List Char) : Number.AreDigits (s.takeWhile isDigit) :=
  fun c hc => List.all_eq_true.mp List.all_takeWhile c hc

theorem areDigits_wholePart (s : List Char) : Number.AreDigits (wholePart s) := by
  intro c hc
  unfold wholePart at hc
  split at hc
  · cases hc
  split at hc
  · rw [List.mem_singleton.mp hc]
    rfl
  split at hc
  · rename_i hdigit
    rcases List.mem_cons.mp hc with rfl | hc
    · exact hdigit
    · exact areDigits_takeWhile _ c hc
  · cases hc

/-- The token is no scalar, or a regular one. -/
def Token.Regular : Token → Prop
  | .scalar j => j.Regular Number.Spelled
  | _ => True

theorem regular_numberToken (position : Nat) (s : List Char) :
    (numberToken position s).1.Regular := by
  unfold numberToken
  extract_lets negative unsigned sign whole afterWhole fraction pointed exponent length size
    power value
  split
  · trivial
  rename_i hempty
  split
  · split
    · trivial
    · rename_i hlimit
      have hne : whole ≠ [] := by simpa using hempty
      have hcount := Number.digitCount_ofDigits_le (areDigits_wholePart unsigned) hne
      have hsize : (if negative then -size else size).natAbs = Number.ofDigits whole := by
        cases negative <;> simp [size]
      show Number.digitCount (if negative then -size else size).natAbs ≤ Text.digitLimit
      rw [hsize]
      exact hcount.trans (Nat.le_of_not_lt hlimit)
  · exact Binary64.ofDecimal_ne_undefined _ _ _

theorem regular_word? {s : List Char} {t : Token} {length : Nat}
    (h : word? s = some (t, length)) : t.Regular := by
  obtain ⟨w, hw, hwt⟩ := Option.map_eq_some_iff.mp h
  have hall : ∀ w ∈ words, w.2.Regular := by
    simp [words, Token.Regular]
  cases hwt
  exact hall w (List.mem_of_find?_eq_some hw)

theorem regular_nextToken (position : Nat) (first : Char) (rest : List Char) :
    (nextToken position first rest).1.Regular := by
  unfold nextToken
  split
  · rename_i t ht
    unfold punctuation? at ht
    split at ht <;> cases ht <;> trivial
  split
  · split <;> trivial
  · dsimp only
    cases hword : word? (first :: rest) with
    | none => exact regular_numberToken position (first :: rest)
    | some w => exact regular_word? hword

theorem regular_cut (steps position : Nat) (s : List Char) :
    ∀ t ∈ cut steps position s, t.token.Regular := by
  induction steps generalizing position s with
  | zero => simp [cut]
  | succ steps ih =>
      cases s with
      | nil => simp [cut]
      | cons c rest =>
          rw [cut]
          split
          · exact ih _ _
          · dsimp only
            rw [List.forall_mem_cons]
            refine ⟨regular_nextToken position c rest, ?_⟩
            split
            · simp
            · exact ih _ _

/-- What an open container holds so far is regular. -/
def Open.Regular : Open → Prop
  | .array before => (Json.arr before).Regular Number.Spelled
  | .object before _ => (Json.obj before).Regular Number.Spelled

/-- The value and the members that a phase holds are regular. -/
def Phase.Regular : Phase → Prop
  | .key before | .colon before _ => (Json.obj before).Regular Number.Spelled
  | .after j => j.Regular Number.Spelled
  | _ => True

/-- The open containers and the phase are regular. -/
def StateRegular (state : List Open × Phase) : Prop :=
  (∀ o ∈ state.1, o.Regular) ∧ state.2.Regular

theorem regular_beginValue {stack : List Open} {t : Placed} {state : List Open × Phase}
    (h : beginValue .refused stack t = .ok state) (hstack : ∀ o ∈ stack, o.Regular)
    (ht : t.token.Regular) : StateRegular state := by
  unfold beginValue at h
  split at h
  · cases h
    exact ⟨hstack, trivial⟩
  · rename_i j hj
    cases h
    rw [hj] at ht
    exact ⟨hstack, ht⟩
  · cases h
  · split at h
    · cases h
      exact ⟨hstack, trivial⟩
    · cases h
  · split at h
    · cases h
      exact ⟨hstack, trivial⟩
    · cases h
  · cases h
  · cases h
  · cases h

theorem regular_beginKey {before : List (String × Json)} {t : Placed} {phase : Phase}
    (h : beginKey before t = .ok phase) (hbefore : (Json.obj before).Regular Number.Spelled) :
    phase.Regular := by
  unfold beginKey at h
  split at h
  · cases h
    exact hbefore
  · cases h
  · cases h

/-- After a value the innermost container takes it in: it closes, or goes on to the next. -/
theorem regular_step_after {stack : List Open} {value : Json} {t : Placed}
    {state : List Open × Phase} (h : step .refused stack (.after value) t = .ok state)
    (hstack : ∀ o ∈ stack, o.Regular) (hvalue : value.Regular Number.Spelled) :
    StateRegular state := by
  simp only [step] at h
  split at h
  · cases h
  · rename_i before stack
    obtain ⟨hbefore, hstack⟩ := List.forall_mem_cons.mp hstack
    have hmore : ∀ j ∈ value :: before, j.Regular Number.Spelled :=
      List.forall_mem_cons.mpr ⟨hvalue, regular_arr.mp hbefore⟩
    split at h
    · cases h
      exact ⟨List.forall_mem_cons.mpr ⟨regular_arr.mpr hmore, hstack⟩, trivial⟩
    · cases h
      exact ⟨hstack, regular_arr.mpr fun j hj => hmore j (List.mem_reverse.mp hj)⟩
    · cases h
  · rename_i before key stack
    obtain ⟨hbefore, hstack⟩ := List.forall_mem_cons.mp hstack
    have hset := Json.Regular.set hbefore hvalue key
    split at h
    · cases h
      exact ⟨hstack, hset⟩
    · cases h
      exact ⟨hstack, hset⟩
    · cases h

/-- One token more keeps what is held regular. -/
theorem regular_step {stack : List Open} {phase : Phase} {t : Placed}
    {state : List Open × Phase} (h : step .refused stack phase t = .ok state)
    (hstate : StateRegular (stack, phase)) (ht : t.token.Regular) : StateRegular state := by
  obtain ⟨hstack, hphase⟩ := hstate
  have hnil : (Json.arr []).Regular Number.Spelled := by simp
  have hempty : (Json.obj []).Regular Number.Spelled := by simp [Entries.keys]
  cases phase with
  | value => exact regular_beginValue h hstack ht
  | firstElement =>
      simp only [step] at h
      split at h
      · cases h
        exact ⟨hstack, hnil⟩
      · exact regular_beginValue h (List.forall_mem_cons.mpr ⟨hnil, hstack⟩) ht
  | firstKey =>
      simp only [step] at h
      split at h
      · cases h
        exact ⟨hstack, hempty⟩
      · obtain ⟨phase, hkey, h⟩ := bind_eq_ok_iff.mp h
        cases h
        exact ⟨hstack, regular_beginKey hkey hempty⟩
  | key before =>
      obtain ⟨phase, hkey, h⟩ := bind_eq_ok_iff.mp h
      cases h
      exact ⟨hstack, regular_beginKey hkey hphase⟩
  | colon before key =>
      simp only [step] at h
      split at h
      · cases h
        exact ⟨List.forall_mem_cons.mpr ⟨hphase, hstack⟩, trivial⟩
      · cases h
  | after value => exact regular_step_after h hstack hphase

/-- A reader that refuses constants returns a regular value. -/
theorem regular_run {length : Nat} {stack : List Open} {phase : Phase} {ts : List Placed}
    {j : Json} (h : run .refused length stack phase ts = .ok j)
    (hstate : StateRegular (stack, phase)) (hts : ∀ t ∈ ts, t.token.Regular) :
    j.Regular Number.Spelled := by
  induction ts generalizing stack phase with
  | nil =>
      unfold run finish at h
      split at h
      · cases h
        exact hstate.2
      all_goals cases h
  | cons t rest ih =>
      rw [List.forall_mem_cons] at hts
      rw [run, bind_eq_ok_iff] at h
      obtain ⟨⟨stack, phase⟩, hstep, h⟩ := h
      exact ih h (regular_step hstep hstate hts.1) hts.2

theorem regular_readChars {text : List Char} {j : Json} (h : readChars .refused text = .ok j) :
    j.Regular Number.Spelled :=
  regular_run h ⟨by simp, trivial⟩ (regular_cut _ _ _)

end Json

/-- The document of a source is regular. -/
theorem Source.regular_load {source : Source} {j : Json} (h : source.load = .ok j) :
    j.Regular Number.Spelled := by
  cases source with
  | text s =>
      rw [load, mapError_eq_ok_iff] at h
      unfold Json.read at h
      split at h
      · cases h
      · exact Json.regular_readChars h
  | bytes content =>
      unfold load at h
      dsimp only at h
      split at h
      · cases h
      · exact Json.regular_readChars (mapError_eq_ok_iff.mp h)
  | other value => cases h

end Formwork
