import Formwork.Number.Shortest
import Mathlib.Algebra.Order.Ring.Nat
import Mathlib.Tactic.Ring
import Mathlib.Tactic.Linarith

/-!
# Rounding a quotient to a binary number

A quotient of units is rounded to the binary number in whose basin it lies. The power of two that
the rounding chooses is the one of the number itself, but for quotients just below a power of two:
these are rounded up to it from the finer grid below.
-/

namespace Formwork.Binary64

/-- The quotient is nearest to a whole number, and halfway between two only if that one is even. -/
theorem roundDiv_eq {num den k : Nat} (hden : 0 < den) (hlow : 2 * k * den ≤ 2 * num + den)
    (hhigh : 2 * num ≤ (2 * k + 1) * den)
    (htie : 2 * k * den = 2 * num + den ∨ 2 * num = (2 * k + 1) * den → k % 2 = 0) :
    roundDiv num den = k := by
  have hdiv := Nat.div_add_mod num den
  have hrest := Nat.mod_lt num hden
  generalize hq : num / den = q at hdiv
  generalize hs : num % den = s at hdiv hrest
  have hleast : q ≤ k := by
    by_contra hlt
    have hstep : (k + 1) * den ≤ q * den := Nat.mul_le_mul_right _ (by omega)
    have hcomm : q * den = den * q := Nat.mul_comm _ _
    nlinarith
  have hmost : k ≤ q + 1 := by
    by_contra hlt
    have hstep : (q + 2) * den ≤ k * den := Nat.mul_le_mul_right _ (by omega)
    have hcomm : q * den = den * q := Nat.mul_comm _ _
    nlinarith
  have hcases : k = q ∨ k = q + 1 := by omega
  unfold roundDiv
  rw [hq, hs]
  dsimp only
  rcases hcases with rfl | rfl
  · have hupper : 2 * s ≤ den := by nlinarith
    have heven : 2 * s = den → k % 2 = 0 := fun heq => htie (.inr (by nlinarith))
    rw [if_neg]
    simp only [Bool.or_eq_true, decide_eq_true_eq, Bool.and_eq_true, beq_iff_eq]
    omega
  · have hlower : den ≤ 2 * s := by nlinarith
    have heven : 2 * s = den → (q + 1) % 2 = 0 := fun heq => htie (.inl (by nlinarith))
    rw [if_pos]
    simp only [Bool.or_eq_true, decide_eq_true_eq, Bool.and_eq_true, beq_iff_eq]
    omega

/-- The power of two for a quotient is the one for which it has fifty-three binary digits. -/
theorem log2_div_eq {num den power : Nat} (hden : 0 < den)
    (hlow : power = 0 ∨ 2 ^ (power + 52) * den ≤ num) (hhigh : num < 2 ^ (power + 53) * den) :
    (num / den).log2 - 52 = power := by
  have hupper : num / den < 2 ^ (power + 53) := Nat.div_lt_of_lt_mul (by rwa [Nat.mul_comm])
  rcases hlow with rfl | hlow
  · by_cases hzero : num / den = 0
    · rw [hzero]
      decide
    · have hlog : (num / den).log2 < 53 := (Nat.log2_lt hzero).mpr hupper
      omega
  · have hlower : 2 ^ (power + 52) ≤ num / den := (Nat.le_div_iff_mul_le hden).mpr hlow
    have hne : num / den ≠ 0 := by
      have hpos : 0 < 2 ^ (power + 52) := Nat.two_pow_pos _
      omega
    have hlog : (num / den).log2 = power + 52 := (Nat.log2_eq_iff hne).mpr ⟨hlower, hupper⟩
    omega

theorem ofUnits_eq {negative : Bool} {num den power : Nat} (hden : 0 < den)
    (hlow : power = 0 ∨ 2 ^ (power + 52) * den ≤ num) (hhigh : num < 2 ^ (power + 53) * den) :
    ofUnits negative num den =
      assemble negative (roundDiv num (den * 2 ^ power)) power := by
  unfold ofUnits
  dsimp only
  rw [log2_div_eq hden hlow hhigh]
  rfl

theorem assemble_eq {negative : Bool} {significand power : Nat} {e : Fin 2047}
    {f : Fin (Nat.pow 2 52)} (hexponent : power + significand / 2 ^ 52 = e.val)
    (hfraction : significand % 2 ^ 52 = f.val) :
    assemble negative significand power = .finite negative e f := by
  have hlt : power + significand / Nat.pow 2 52 < 2047 := by
    have hbound := e.isLt
    rw [← hexponent] at hbound
    exact hbound
  unfold assemble
  dsimp only
  rw [dif_pos hlt]
  have he : (⟨power + significand / Nat.pow 2 52, hlt⟩ : Fin 2047) = e := Fin.ext hexponent
  have hf : (⟨significand % Nat.pow 2 52, Nat.mod_lt _ (Nat.two_pow_pos 52)⟩ :
      Fin (Nat.pow 2 52)) = f := Fin.ext hfraction
  rw [he, hf]

/-- A number is assembled from its own significand and power. -/
theorem assemble_parts (negative : Bool) (e : Fin 2047) (f : Fin (Nat.pow 2 52)) :
    assemble negative (parts e f).1 (parts e f).2 = .finite negative e f := by
  have hf : f.val < 2 ^ 52 := f.isLt
  apply assemble_eq
  · unfold parts
    split
    · simp only [Nat.pow_eq] at *
      omega
    · simp only [Nat.pow_eq] at *
      omega
  · unfold parts
    split
    · exact Nat.mod_eq_of_lt hf
    · show (2 ^ 52 + f.val) % 2 ^ 52 = f.val
      omega

/-- The quotient lies in a basin. -/
structure Basin.Contains (b : Basin) (num den : Nat) : Prop where
  low : b.low * den ≤ 4 * num
  high : 4 * num ≤ b.high * den
  ends : b.low * den = 4 * num ∨ 4 * num = b.high * den → b.ends = true

section Basin

variable {e : Fin 2047} {f : Fin (Nat.pow 2 52)}

theorem fst_parts_lt (e : Fin 2047) (f : Fin (Nat.pow 2 52)) : (parts e f).1 < 2 ^ 53 := by
  have hf : f.val < 2 ^ 52 := f.isLt
  unfold parts
  split
  · show f.val < 2 ^ 53
    omega
  · show 2 ^ 52 + f.val < 2 ^ 53
    omega

theorem le_fst_parts (h : e.val ≠ 0) : 2 ^ 52 + f.val = (parts e f).1 := by
  rw [parts, if_neg h]
  rfl

theorem snd_parts (h : e.val ≠ 0) : (parts e f).2 = e.val - 1 := by
  rw [parts, if_neg h]

theorem snd_parts_of_eq_zero (h : e.val = 0) : (parts e f).2 = 0 := by
  rw [parts, if_pos h]

/-- Below a power of two, its basin is half as wide. -/
def atPower (e : Fin 2047) (f : Fin (Nat.pow 2 52)) : Prop :=
  f.val = 0 ∧ 1 < e.val

theorem basin_high : (basin e f).high = (4 * (parts e f).1 + 2) * 2 ^ (parts e f).2 := by
  show 4 * (parts e f).1 * 2 ^ (parts e f).2 + 2 * 2 ^ (parts e f).2 = _
  ring

theorem basin_low_of_atPower (h : atPower e f) :
    (basin e f).low = (4 * (parts e f).1 - 1) * 2 ^ (parts e f).2 := by
  have hbelow : (f.val = 0 && 1 < e.val : Bool) = true := by simpa [atPower] using h
  show 4 * (parts e f).1 * 2 ^ (parts e f).2 -
    (if (f.val = 0 && 1 < e.val : Bool) then 2 ^ (parts e f).2 else 2 * 2 ^ (parts e f).2) = _
  rw [if_pos hbelow, Nat.sub_mul, Nat.one_mul]

theorem basin_low_of_not_atPower (h : ¬ atPower e f) :
    (basin e f).low = (4 * (parts e f).1 - 2) * 2 ^ (parts e f).2 := by
  have hbelow : ¬ (f.val = 0 && 1 < e.val : Bool) = true := by simpa [atPower] using h
  show 4 * (parts e f).1 * 2 ^ (parts e f).2 -
    (if (f.val = 0 && 1 < e.val : Bool) then 2 ^ (parts e f).2 else 2 * 2 ^ (parts e f).2) = _
  rw [if_neg hbelow, Nat.sub_mul]

theorem even_of_ends (h : (basin e f).ends = true) : (parts e f).1 % 2 = 0 := by
  have hends : ((parts e f).1 % 2 == 0) = true := h
  simpa using hends

end Basin

/-- A power of two in steps of a smaller one. -/
theorem two_pow_add_mul (power more den : Nat) :
    2 ^ (power + more) * den = 2 ^ more * (2 ^ power * den) := by
  rw [Nat.add_comm, pow_add, Nat.mul_assoc]

/-- A quotient just below a power of two is rounded up to it. -/
theorem ofUnits_of_below {negative : Bool} {e : Fin 2047} {f : Fin (Nat.pow 2 52)} {num den : Nat}
    (hden : 0 < den) (hpower : atPower e f) (h : (basin e f).Contains num den)
    (hbelow : num < 2 ^ ((parts e f).2 + 52) * den) :
    ofUnits negative num den = .finite negative e f := by
  obtain ⟨hf, he⟩ := hpower
  have hne : e.val ≠ 0 := by omega
  obtain ⟨power, hpow⟩ : ∃ power, e.val = power + 2 := ⟨e.val - 2, by omega⟩
  have hlow := h.low
  rw [basin_low_of_atPower ⟨hf, he⟩, ← le_fst_parts hne, snd_parts hne, hf, hpow] at hlow
  rw [snd_parts hne, hpow] at hbelow
  have hW : 0 < 2 ^ power * den := Nat.mul_pos (Nat.two_pow_pos _) hden
  have hlower : (2 ^ 54 - 1) * (2 ^ power * den) ≤ 2 * num := by
    have hscale : (4 * (2 ^ 52 + 0) - 1) * 2 ^ (power + 2 - 1) * den =
        2 * ((2 ^ 54 - 1) * (2 ^ power * den)) := by
      have hexp : power + 2 - 1 = power + 1 := rfl
      rw [hexp, pow_succ]
      ring
    omega
  have hupper : num < 2 ^ 53 * (2 ^ power * den) := by
    have hexp : power + 2 - 1 + 52 = power + 53 := by omega
    rwa [hexp, two_pow_add_mul] at hbelow
  have hunits : ofUnits negative num den =
      assemble negative (roundDiv num (den * 2 ^ power)) power := by
    apply ofUnits_eq hden
    · right
      have hscale := two_pow_add_mul power 52 den
      omega
    · have hscale := two_pow_add_mul power 53 den
      omega
  have hcomm : den * 2 ^ power = 2 ^ power * den := Nat.mul_comm _ _
  have hround : roundDiv num (den * 2 ^ power) = 2 ^ 53 := by
    rw [hcomm]
    apply roundDiv_eq hW
    · omega
    · omega
    · intro _
      rfl
  rw [hunits, hround]
  apply assemble_eq
  · rw [hpow]
    rfl
  · rw [hf]
    rfl

/-- A quotient that is not just below a power of two lies in the binade of the number, and is at
most half a step below it. -/
theorem Basin.Contains.lower {e : Fin 2047} {f : Fin (Nat.pow 2 52)} {num den : Nat}
    (h : (basin e f).Contains num den) (hden : 0 < den) (hpos : 0 < (parts e f).1)
    (hbelow : atPower e f → 2 ^ ((parts e f).2 + 52) * den ≤ num) :
    ((parts e f).2 = 0 ∨ 2 ^ ((parts e f).2 + 52) * den ≤ num) ∧
      2 * (parts e f).1 * (2 ^ (parts e f).2 * den) ≤ 2 * num + 2 ^ (parts e f).2 * den ∧
      (2 * (parts e f).1 * (2 ^ (parts e f).2 * den) = 2 * num + 2 ^ (parts e f).2 * den →
        (parts e f).1 % 2 = 0) := by
  have hscale := two_pow_add_mul (parts e f).2 52 den
  have hW : 0 < 2 ^ (parts e f).2 * den := Nat.mul_pos (Nat.two_pow_pos _) hden
  by_cases hpower : atPower e f
  · have hlow := hbelow hpower
    obtain ⟨hf, he⟩ := hpower
    have hsig : (parts e f).1 = 2 ^ 52 := by
      rw [← le_fst_parts (by omega), hf, Nat.add_zero]
    rw [hscale] at hlow
    rw [hsig]
    refine ⟨.inr (by rw [hscale]; exact hlow), by omega, fun _ => rfl⟩
  · have hlow := h.low
    have hends := h.ends
    rw [basin_low_of_not_atPower hpower] at hlow hends
    have hproduct : (4 * (parts e f).1 - 2) * 2 ^ (parts e f).2 * den +
        2 * (2 ^ (parts e f).2 * den) = 2 * (2 * (parts e f).1 * (2 ^ (parts e f).2 * den)) := by
      obtain ⟨k, hk⟩ : ∃ k, (parts e f).1 = k + 1 := ⟨(parts e f).1 - 1, by omega⟩
      have hsub : 4 * (k + 1) - 2 = 4 * k + 2 := by omega
      rw [hk, hsub]
      ring
    refine ⟨?_, by omega, fun htie => even_of_ends (hends (.inl (by omega)))⟩
    by_cases hone : e.val ≤ 1
    · left
      by_cases hzero : e.val = 0
      · exact snd_parts_of_eq_zero hzero
      · rw [snd_parts hzero]
        omega
    · right
      have hf : f.val ≠ 0 := fun hf => hpower ⟨hf, by omega⟩
      have hsig : 2 ^ 52 + 1 ≤ (parts e f).1 := by
        rw [← le_fst_parts (by omega)]
        omega
      have hmul : (2 ^ 52 + 1) * (2 ^ (parts e f).2 * den) ≤
          (parts e f).1 * (2 ^ (parts e f).2 * den) := Nat.mul_le_mul_right _ hsig
      have hassoc : 2 * (parts e f).1 * (2 ^ (parts e f).2 * den) =
          2 * ((parts e f).1 * (2 ^ (parts e f).2 * den)) := Nat.mul_assoc _ _ _
      rw [hscale]
      omega

/-- A quotient in the basin of a number is rounded to it. -/
theorem ofUnits_of_contains {negative : Bool} {e : Fin 2047} {f : Fin (Nat.pow 2 52)}
    {num den : Nat} (hden : 0 < den) (hpos : 0 < (parts e f).1)
    (h : (basin e f).Contains num den) : ofUnits negative num den = .finite negative e f := by
  by_cases hbelow : atPower e f ∧ num < 2 ^ ((parts e f).2 + 52) * den
  · exact ofUnits_of_below hden hbelow.1 h hbelow.2
  · have hnotBelow : atPower e f → 2 ^ ((parts e f).2 + 52) * den ≤ num := fun hpower =>
      Nat.le_of_not_lt fun hlt => hbelow ⟨hpower, hlt⟩
    obtain ⟨hbinade, hlow, htieLow⟩ := h.lower hden hpos hnotBelow
    have hW : 0 < 2 ^ (parts e f).2 * den := Nat.mul_pos (Nat.two_pow_pos _) hden
    have hhigh := h.high
    have hends := h.ends
    have hproduct : (basin e f).high * den =
        2 * ((2 * (parts e f).1 + 1) * (2 ^ (parts e f).2 * den)) := by
      rw [basin_high]
      ring
    rw [hproduct] at hhigh hends
    have hbound : num < 2 ^ ((parts e f).2 + 53) * den := by
      have hsig := fst_parts_lt e f
      have hmul : (2 * (parts e f).1 + 1) * (2 ^ (parts e f).2 * den) <
          (2 * 2 ^ 53) * (2 ^ (parts e f).2 * den) :=
        Nat.mul_lt_mul_of_pos_right (by omega) hW
      have hscale := two_pow_add_mul (parts e f).2 53 den
      omega
    have hcomm : den * 2 ^ (parts e f).2 = 2 ^ (parts e f).2 * den := Nat.mul_comm _ _
    have hround : roundDiv num (den * 2 ^ (parts e f).2) = (parts e f).1 := by
      rw [hcomm]
      apply roundDiv_eq hW hlow
      · omega
      · rintro (htie | htie)
        · exact htieLow htie
        · exact even_of_ends (hends (.inr (by omega)))
    rw [ofUnits_eq hden hbinade hbound, hround, assemble_parts]

end Formwork.Binary64
