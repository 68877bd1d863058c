import Formwork.Proofs.Number.Rounding

/-!
# Decimals that round to a binary number

A decimal in the basin of a binary number is rounded to it. It is never so large or so small that
it would be settled by its size alone.
-/

namespace Formwork.Binary64

-- The constant is far too large to be computed with.
attribute [local irreducible] unitsPerOne

variable {e : Fin 2047} {f : Fin (Nat.pow 2 52)}

/-- Whether a quotient lies in a basin depends on its value only. -/
theorem Basin.Contains.congr {b : Basin} {num den num' den' : Nat} (h : b.Contains num den)
    (hden : 0 < den) (hden' : 0 < den') (hvalue : num * den' = num' * den) :
    b.Contains num' den' := by
  have hlow : b.low * den' * den = b.low * den * den' := by ring
  have hhigh : b.high * den' * den = b.high * den * den' := by ring
  have hnum : 4 * num' * den = 4 * num * den' := by
    rw [Nat.mul_assoc, ← hvalue, Nat.mul_assoc]
  refine ⟨?_, ?_, fun hends => ?_⟩
  · apply Nat.le_of_mul_le_mul_right _ hden
    rw [hlow, hnum]
    exact Nat.mul_le_mul_right _ h.low
  · apply Nat.le_of_mul_le_mul_right _ hden
    rw [hhigh, hnum]
    exact Nat.mul_le_mul_right _ h.high
  · apply h.ends
    rcases hends with hend | hend
    · left
      apply Nat.eq_of_mul_eq_mul_right hden'
      rw [← hlow, hend, hnum]
    · right
      apply Nat.eq_of_mul_eq_mul_right hden'
      rw [← hnum, hend, hhigh]

theorem basin_high_le (e : Fin 2047) (f : Fin (Nat.pow 2 52)) :
    (basin e f).high ≤ 2 ^ 55 * 2 ^ 2045 := by
  have hsig := fst_parts_lt e f
  have he := e.isLt
  have hpower : (parts e f).2 ≤ 2045 := by
    by_cases hzero : e.val = 0
    · rw [snd_parts_of_eq_zero hzero]
      exact Nat.zero_le _
    · rw [snd_parts hzero]
      omega
  have hstep : ∀ n, (parts e f).2 ≤ n → 2 ^ (parts e f).2 ≤ 2 ^ n :=
    fun n hn => Nat.pow_le_pow_right (by decide) hn
  rw [basin_high]
  exact Nat.mul_le_mul (by omega) (hstep _ hpower)

theorem ten_pow_log2_le {n : Nat} (h : n ≠ 0) : 10 ^ (n.log2 / 4) ≤ n :=
  calc
    10 ^ (n.log2 / 4) ≤ (2 ^ 4) ^ (n.log2 / 4) := Nat.pow_le_pow_left (by decide) _
    _ = 2 ^ (4 * (n.log2 / 4)) := (pow_mul 2 4 _).symm
    _ ≤ 2 ^ n.log2 := Nat.pow_le_pow_right (by decide) (Nat.mul_div_le _ _)
    _ ≤ n := Nat.log2_self_le h

theorem lt_ten_pow_log2 (n : Nat) : n < 10 ^ (n.log2 + 1) :=
  calc
    n < 2 ^ (n.log2 + 1) := Nat.lt_log2_self
    _ ≤ 10 ^ (n.log2 + 1) := Nat.pow_le_pow_left (by decide) _

section Decimal

variable {significand up down : Nat}

/-- A decimal in a basin is smaller than any power of ten that is too large for the format. -/
theorem Basin.Contains.log2_lt (h : (basin e f).Contains (significand * 10 ^ up * unitsPerOne)
    (10 ^ down)) (hne : significand ≠ 0) (limit : Nat)
    (hlimit : 2 ^ 55 * 2 ^ 2045 < 4 * (10 ^ limit * unitsPerOne)) :
    up + significand.log2 / 4 < limit + down := by
  by_contra hlarge
  have hdown : 0 < 10 ^ down := Nat.pow_pos (by decide)
  have hsize : 10 ^ limit * 10 ^ down ≤ significand * 10 ^ up :=
    calc
      10 ^ limit * 10 ^ down = 10 ^ (limit + down) := (pow_add 10 limit down).symm
      _ ≤ 10 ^ (significand.log2 / 4 + up) := Nat.pow_le_pow_right (by decide) (by omega)
      _ = 10 ^ (significand.log2 / 4) * 10 ^ up := pow_add _ _ _
      _ ≤ significand * 10 ^ up := Nat.mul_le_mul_right _ (ten_pow_log2_le hne)
  apply Nat.lt_irrefl (4 * (10 ^ limit * 10 ^ down * unitsPerOne))
  calc
    4 * (10 ^ limit * 10 ^ down * unitsPerOne) ≤ 4 * (significand * 10 ^ up * unitsPerOne) :=
      Nat.mul_le_mul_left _ (Nat.mul_le_mul_right _ hsize)
    _ ≤ (basin e f).high * 10 ^ down := h.high
    _ ≤ 2 ^ 55 * 2 ^ 2045 * 10 ^ down := Nat.mul_le_mul_right _ (basin_high_le e f)
    _ < 4 * (10 ^ limit * unitsPerOne) * 10 ^ down := Nat.mul_lt_mul_of_pos_right hlimit hdown
    _ = 4 * (10 ^ limit * 10 ^ down * unitsPerOne) := by ring

/-- A decimal in a basin is larger than any power of ten that is too small for the format. -/
theorem Basin.Contains.le_log2 (h : (basin e f).Contains (significand * 10 ^ up * unitsPerOne)
    (10 ^ down)) (hlow : 0 < (basin e f).low) (limit : Nat)
    (hlimit : 4 * unitsPerOne ≤ 10 ^ limit) : down ≤ up + significand.log2 + limit := by
  by_contra hsmall
  have hup : 0 < 10 ^ up * unitsPerOne :=
    Nat.mul_pos (Nat.pow_pos (by decide)) unitsPerOne_pos
  apply Nat.lt_irrefl (10 ^ down)
  calc
    10 ^ down ≤ (basin e f).low * 10 ^ down := Nat.le_mul_of_pos_left _ hlow
    _ ≤ 4 * (significand * 10 ^ up * unitsPerOne) := h.low
    _ = 4 * (significand * (10 ^ up * unitsPerOne)) := by ring
    _ < 4 * (10 ^ (significand.log2 + 1) * (10 ^ up * unitsPerOne)) := by
      apply Nat.mul_lt_mul_of_pos_left _ (by decide)
      exact Nat.mul_lt_mul_of_pos_right (lt_ten_pow_log2 significand) hup
    _ = 4 * unitsPerOne * (10 ^ (significand.log2 + 1) * 10 ^ up) := by ring
    _ ≤ 10 ^ limit * (10 ^ (significand.log2 + 1) * 10 ^ up) := Nat.mul_le_mul_right _ hlimit
    _ = 10 ^ (limit + (significand.log2 + 1 + up)) := by rw [← pow_add, ← pow_add]
    _ ≤ 10 ^ down := Nat.pow_le_pow_right (by decide) (by omega)

end Decimal

/-- A decimal that is neither too large nor too small is rounded as a quotient of units. -/
theorem ofDecimal_eq {negative : Bool} {significand : Nat} {exponent : Int}
    (hne : significand ≠ 0) (hlarge : exponent + (significand.log2 / 4 : Nat) ≤ 400)
    (hsmall : -400 ≤ exponent + significand.log2) :
    ofDecimal negative significand exponent =
      ofUnits negative (significand * 10 ^ exponent.toNat * unitsPerOne)
        (10 ^ (-exponent).toNat) := by
  unfold ofDecimal
  dsimp only
  rw [if_neg hne, if_neg (by omega), if_neg (by omega)]
  cases exponent with
  | ofNat e =>
      have hdown : (-Int.ofNat e).toNat = 0 := by
        rw [Int.ofNat_eq_natCast]
        omega
      rw [hdown, pow_zero]
      rfl
  | negSucc e =>
      have hup : (Int.negSucc e).toNat = 0 := rfl
      rw [hup, pow_zero, Nat.mul_one]
      rfl

/-- A decimal whose point on the finest grid lies in the basin of a number is rounded to it. -/
theorem ofDecimal_of_contains {negative : Bool} {significand power : Nat} {exponent : Int}
    (hpos : 0 < (parts e f).1) (hlow : 0 < (basin e f).low)
    (hexponent : exponent = power - (finestGrid : Nat))
    (h : (basin e f).Contains (significand * 10 ^ power * unitsPerOne) (10 ^ finestGrid)) :
    ofDecimal negative significand exponent = .finite negative e f := by
  have hfine : 0 < 10 ^ finestGrid := Nat.pow_pos (by decide)
  have hden : 0 < 10 ^ (-exponent).toNat := Nat.pow_pos (by decide)
  have hcontains : (basin e f).Contains (significand * 10 ^ exponent.toNat * unitsPerOne)
      (10 ^ (-exponent).toNat) := by
    apply h.congr hfine hden
    have hpowers : 10 ^ power * 10 ^ (-exponent).toNat = 10 ^ exponent.toNat * 10 ^ finestGrid := by
      rw [← pow_add, ← pow_add]
      congr 1
      omega
    calc
      significand * 10 ^ power * unitsPerOne * 10 ^ (-exponent).toNat =
          significand * (10 ^ power * 10 ^ (-exponent).toNat) * unitsPerOne := by ring
      _ = significand * 10 ^ exponent.toNat * unitsPerOne * 10 ^ finestGrid := by
        rw [hpowers]
        ring
  have hne : significand ≠ 0 := by
    rintro rfl
    have hzero := h.low
    rw [Nat.zero_mul, Nat.zero_mul, Nat.mul_zero] at hzero
    have hprod : 0 < (basin e f).low * 10 ^ finestGrid := Nat.mul_pos hlow hfine
    omega
  have hlarge := hcontains.log2_lt hne 401 (by decide +kernel)
  have hsmall := hcontains.le_log2 hlow 400 (by decide +kernel)
  rw [ofDecimal_eq hne (by omega) (by omega)]
  exact ofUnits_of_contains hden hpos hcontains

end Formwork.Binary64
