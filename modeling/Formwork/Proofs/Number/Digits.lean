import Formwork.Number.Digits
import Formwork.Text.Digit
import Mathlib.Algebra.Order.Ring.Nat
import Mathlib.Tactic.Ring

/-!
# Digits and the numbers that they spell

The digits of a number spell the number, and there are no more of them than its size calls for.
-/

namespace Formwork.Number

/-- The characters are all among the digits `0` to `9`. -/
def AreDigits (ds : List Char) : Prop :=
  ∀ c ∈ ds, c.isDigit = true

theorem toNat_of_isDigit {c : Char} (h : c.isDigit = true) : 48 ≤ c.toNat ∧ c.toNat ≤ 57 := by
  simp only [Char.isDigit, Bool.and_eq_true, decide_eq_true_eq] at h
  obtain ⟨hlower, hupper⟩ := h
  exact ⟨UInt32.le_iff_toNat_le.mp hlower, UInt32.le_iff_toNat_le.mp hupper⟩

theorem areDigits_digits (n : Nat) : AreDigits (digits n) :=
  fun _ hc => Nat.isDigit_of_mem_toDigits (by decide) (by decide) hc

theorem AreDigits.append {ds es : List Char} (hd : AreDigits ds) (he : AreDigits es) :
    AreDigits (ds ++ es) :=
  fun c hc => (List.mem_append.mp hc).elim (hd c) (he c)

theorem areDigits_zeros (n : Nat) : AreDigits (List.replicate n '0') := by
  intro c hc
  rw [List.eq_of_mem_replicate hc]
  decide

/-- The digits of a number spell it. -/
@[simp] theorem ofDigits_digits (n : Nat) : ofDigits (digits n) = n :=
  Nat.ofDigitChars_ten_toDigits

theorem ofDigits_append (ds es : List Char) :
    ofDigits (ds ++ es) = ofDigits ds * 10 ^ es.length + ofDigits es := by
  have happend : ofDigits (ds ++ es) = Nat.ofDigitChars 10 es (ofDigits ds) :=
    Nat.ofDigitChars_append 0
  rw [happend, Nat.ofDigitChars_eq_ofDigitChars_zero, Nat.mul_comm]
  rfl

@[simp] theorem ofDigits_zeros (n : Nat) : ofDigits (List.replicate n '0') = 0 :=
  Nat.ofDigitChars_replicate_zero (b := 10)

theorem ofDigits_lt {ds : List Char} (h : AreDigits ds) : ofDigits ds < 10 ^ ds.length := by
  induction ds with
  | nil => exact Nat.one_pos
  | cons c rest ih =>
      have hrest : ofDigits rest < 10 ^ rest.length :=
        ih fun d hd => h d (List.mem_cons_of_mem _ hd)
      have hc := toNat_of_isDigit (h c List.mem_cons_self)
      have hcons : ofDigits (c :: rest) = (c.toNat - 48) * 10 ^ rest.length + ofDigits rest := by
        have happend := ofDigits_append [c] rest
        have hsingle : ofDigits [c] = c.toNat - 48 := by simp [ofDigits]
        rwa [hsingle] at happend
      calc
        ofDigits (c :: rest) < (c.toNat - 48) * 10 ^ rest.length + 10 ^ rest.length := by omega
        _ = (c.toNat - 48 + 1) * 10 ^ rest.length := by ring
        _ ≤ 10 * 10 ^ rest.length := Nat.mul_le_mul_right _ (by omega)
        _ = 10 ^ (c :: rest).length := by rw [List.length_cons, pow_succ, Nat.mul_comm]

theorem digitCount_le_iff {n count : Nat} (h : 0 < count) :
    digitCount n ≤ count ↔ n < 10 ^ count :=
  Nat.length_toDigits_le_iff (by decide) h

theorem digitCount_pos (n : Nat) : 0 < digitCount n :=
  Nat.length_toDigits_pos

theorem digitCount_mono {m n : Nat} (h : m ≤ n) : digitCount m ≤ digitCount n :=
  (digitCount_le_iff (digitCount_pos n)).mpr
    (Nat.lt_of_le_of_lt h ((digitCount_le_iff (digitCount_pos n)).mp (Nat.le_refl _)))

/-- The number that digits spell has no more digits than were spelled. -/
theorem digitCount_ofDigits_le {ds : List Char} (h : AreDigits ds) (hne : ds ≠ []) :
    digitCount (ofDigits ds) ≤ ds.length :=
  (digitCount_le_iff (List.length_pos_iff.mpr hne)).mpr (ofDigits_lt h)

theorem digitValue?_of_isDigit {c : Char} (h : c.isDigit = true) :
    Text.digitValue? c = some (c.toNat - 48) := by
  have hrange := toNat_of_isDigit h
  rw [Text.digitValue?, if_pos (by omega), if_pos h]

/-- A digit `0` to `9` is a digit of a text. -/
theorem isDigit_of_isDigit {c : Char} (h : c.isDigit = true) : Text.isDigit c = true := by
  rw [Text.isDigit, digitValue?_of_isDigit h]
  rfl

theorem AreDigits.all_isDigit {ds : List Char} (h : AreDigits ds) : ds.all Text.isDigit = true :=
  List.all_eq_true.mpr fun c hc => isDigit_of_isDigit (h c hc)

theorem all_isDigit_digits (n : Nat) : (digits n).all Text.isDigit = true :=
  (areDigits_digits n).all_isDigit

/-- Digits spell the same number as the digits of a text. -/
theorem AreDigits.natOfDigits? {ds : List Char} (h : AreDigits ds) (hne : ds ≠ []) :
    Text.natOfDigits? ds = some (ofDigits ds) := by
  have hfold : ∀ (ds : List Char) (a : Nat), AreDigits ds →
      ds.foldl (fun sum c => do return 10 * (← sum) + (← Text.digitValue? c)) (some a) =
        some (Nat.ofDigitChars 10 ds a) := by
    intro ds
    induction ds with
    | nil => intro a _; rfl
    | cons c rest ih =>
        intro a h
        rw [List.foldl_cons, Nat.ofDigitChars_cons, digitValue?_of_isDigit (h c List.mem_cons_self)]
        exact ih _ fun d hd => h d (List.mem_cons_of_mem _ hd)
  cases ds with
  | nil => exact absurd rfl hne
  | cons c rest => exact hfold (c :: rest) 0 h

/-- The digits of a number are digits of a text, and spell the number there too. -/
theorem natOfDigits?_digits (n : Nat) : Text.natOfDigits? (digits n) = some n := by
  rw [(areDigits_digits n).natOfDigits? Nat.toDigits_ne_nil, ofDigits_digits]

theorem areDigits_padded (width n : Nat) : AreDigits (padded width n) :=
  (areDigits_zeros _).append (areDigits_digits n)

/-- Zeros in front of the digits of a number do not change what they spell. -/
@[simp] theorem ofDigits_padded (width n : Nat) : ofDigits (padded width n) = n := by
  rw [padded, ofDigits_append, ofDigits_zeros, Nat.zero_mul, Nat.zero_add, ofDigits_digits]

theorem wholeNumber?_digits {n value : Nat} (h : Text.wholeNumber? (digits n) = some value) :
    value = n := by
  unfold Text.wholeNumber? at h
  split at h
  · cases h
  · rw [natOfDigits?_digits] at h
    exact (Option.some.inj h).symm

end Formwork.Number
