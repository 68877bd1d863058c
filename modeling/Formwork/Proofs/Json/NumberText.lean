import Formwork.Proofs.Json.Numeral

/-!
# Numbers are written as numerals

Every number that is no constant is written as a numeral, and the numeral has its value.
-/

namespace Formwork

namespace Json

open Number (AreDigits ofDigits digits)

section Digits

open Binary64 (Decimal finestGrid unitsPerOne parts basin)

-- The two constants are far too large to be computed with.
attribute [local irreducible] unitsPerOne finestGrid

variable {d : Decimal} {point : Nat}

/-- A decimal in positional form as a numeral. -/
def Numeral.positional (negative : Bool) (d : Decimal) : Numeral :=
  match d.exponent with
  | .ofNat e =>
    { negative := negative
      whole := d.digits.take (e + 1) ++ List.replicate (e + 1 - (d.digits.take (e + 1)).length) '0'
      fraction := if (d.digits.drop (e + 1)).isEmpty then ['0'] else d.digits.drop (e + 1)
      exponent := none }
  | .negSucc e =>
    { negative := negative, whole := ['0'], fraction := List.replicate e '0' ++ d.digits,
      exponent := none }

/-- A decimal with an exponent as a numeral. -/
def Numeral.scientific (negative : Bool) (width : Nat) (d : Decimal) : Numeral :=
  { negative := negative
    whole := d.digits.take 1
    fraction := d.digits.drop 1
    exponent := some (d.exponent < 0, Number.padded width d.exponent.natAbs) }

theorem Numeral.text_positional (negative : Bool) (h : d.Marks point) :
    (Numeral.positional negative d).text =
      (if negative then ['-'] else []) ++ Binary64.positional d := by
  obtain ⟨c, rest, hdigits, -⟩ := h.first
  unfold Numeral.positional Binary64.positional
  cases hexponent : d.exponent with
  | ofNat e =>
      dsimp only
      by_cases hempty : (d.digits.drop (e + 1)).isEmpty = true
      · simp [text, tail, exponentText, hempty]
      · simp [text, tail, exponentText, hempty]
  | negSucc e => simp [text, tail, exponentText, hdigits]

theorem Numeral.text_scientific (negative : Bool) (width : Nat) (d : Decimal) :
    (Numeral.scientific negative width d).text =
      (if negative then ['-'] else []) ++ Binary64.scientific width d := by
  simp [scientific, Binary64.scientific, text, tail, exponentText]

theorem Numeral.wellFormed_positional (negative : Bool) (h : d.Marks point) :
    (Numeral.positional negative d).WellFormed := by
  have hzeros := Number.areDigits_zeros
  obtain ⟨c, rest, hdigits, hc⟩ := h.first
  unfold Numeral.positional
  cases hexponent : d.exponent with
  | ofNat e =>
      refine ⟨?_, .inr ?_, ?_, by simp, ?_⟩
      · exact AreDigits.append (fun c hc => h.digits c (List.mem_of_mem_take hc)) (hzeros _)
      · dsimp only
        rw [hdigits, List.take_succ_cons, List.cons_append]
        exact ⟨c, _, rfl, hc⟩
      · dsimp only
        split
        · exact hzeros 1
        · exact fun c hc => h.digits c (List.mem_of_mem_drop hc)
      · dsimp only
        split <;> simp_all
  | negSucc e =>
      refine ⟨hzeros 1, .inl rfl, (hzeros e).append h.digits, by simp, ?_⟩
      simp [hdigits]

theorem Numeral.wellFormed_scientific (negative : Bool) (width : Nat) (h : d.Marks point) :
    (Numeral.scientific negative width d).WellFormed := by
  obtain ⟨c, rest, hdigits, hc⟩ := h.first
  refine ⟨fun c hc => h.digits c (List.mem_of_mem_take hc), .inr ?_,
    fun c hc => h.digits c (List.mem_of_mem_drop hc), ?_, by simp [scientific]⟩
  · exact ⟨c, [], by rw [scientific, hdigits]; rfl, hc⟩
  · intro negative ds heq
    cases heq
    have hne : digits d.exponent.natAbs ≠ [] := Nat.toDigits_ne_nil
    exact ⟨(Number.areDigits_zeros _).append (Number.areDigits_digits _),
      fun hnil => hne (List.append_eq_nil_iff.mp hnil).2⟩

variable {e : Fin 2047} {f : Fin (Nat.pow 2 52)}

/-- A decimal that counts a point in a basin by any of its grids is rounded to the number. -/
theorem ofDecimal_of_marks {negative : Bool} {significand : Nat} {exponent : Int} (zeros : Nat)
    (hpos : 0 < (parts e f).1) (hmarks : d.Marks point)
    (hcontains : (basin e f).Contains (point * unitsPerOne) (10 ^ finestGrid))
    (hsignificand : significand = ofDigits d.digits * 10 ^ zeros)
    (hexponent : exponent + zeros + d.digits.length = d.exponent + 1)
    (hfine : -(finestGrid : Int) ≤ exponent) :
    Binary64.ofDecimal negative significand exponent = .finite negative e f := by
  obtain ⟨k, hk, hpoint⟩ := hmarks.value
  obtain ⟨power, hpower⟩ : ∃ power : Nat, exponent = power - (finestGrid : Nat) :=
    ⟨(exponent + finestGrid).toNat, by omega⟩
  apply Binary64.ofDecimal_of_contains hpos (Binary64.basin_wide hpos).1 hpower
  have hscale : significand * 10 ^ power = point := by
    have hsum : zeros + power = k := by omega
    rw [hsignificand, Nat.mul_assoc, ← pow_add, hsum, hpoint]
  rwa [hscale]

/-- A numeral with a fraction or an exponent spells a binary number. -/
theorem Numeral.value_eq_float {n : Numeral}
    (h : (n.fraction.isEmpty && n.exponent.isNone) = false) :
    n.value = .float (Binary64.ofDecimal n.negative (ofDigits (n.whole ++ n.fraction))
      (n.shift - n.fraction.length)) := by
  rw [value, if_neg (by rw [h]; decide)]

/-- A numeral with a fraction whose digits are those of the decimal, but for zeros around them. -/
theorem Numeral.value_pointed {negative : Bool} {whole fraction : List Char} (zeros : Nat)
    (hpos : 0 < (parts e f).1) (h : d.Marks point)
    (hcontains : (basin e f).Contains (point * unitsPerOne) (10 ^ finestGrid))
    (hdigits : ofDigits (whole ++ fraction) = ofDigits d.digits * 10 ^ zeros)
    (hplace : zeros + d.digits.length = d.exponent + 1 + fraction.length)
    (hne : fraction ≠ []) (hfine : fraction.length ≤ finestGrid) :
    (⟨negative, whole, fraction, none⟩ : Numeral).value = .float (.finite negative e f) := by
  have hempty : fraction.isEmpty = false := by simpa using hne
  rw [value_eq_float (by rw [hempty]; rfl)]
  congr 1
  apply ofDecimal_of_marks zeros hpos h hcontains hdigits
  · show (0 : Int) - fraction.length + zeros + d.digits.length = d.exponent + 1
    omega
  · show -(finestGrid : Int) ≤ 0 - fraction.length
    omega

theorem Numeral.value_positional (negative : Bool) (hpos : 0 < (parts e f).1)
    (h : d.Marks point)
    (hcontains : (basin e f).Contains (point * unitsPerOne) (10 ^ finestGrid)) :
    (Numeral.positional negative d).value = .float (.finite negative e f) := by
  obtain ⟨c, rest, hdigits, -⟩ := h.first
  obtain ⟨k, hk, -⟩ := h.value
  unfold Numeral.positional
  cases hexponent : d.exponent with
  | ofNat whole =>
      rw [Int.ofNat_eq_natCast] at hexponent
      dsimp only
      by_cases hshort : d.digits.length ≤ whole + 1
      · rw [List.drop_eq_nil_iff.mpr hshort, List.take_of_length_le hshort]
        apply value_pointed (whole + 1 - d.digits.length + 1) hpos h hcontains
        · show ofDigits (d.digits ++ List.replicate (whole + 1 - d.digits.length) '0' ++
            List.replicate 1 '0') = _
          rw [List.append_assoc, ← List.replicate_add, Number.ofDigits_append,
            Number.ofDigits_zeros, List.length_replicate, Nat.add_zero]
        · show _ = d.exponent + 1 + (1 : Nat)
          omega
        · exact List.cons_ne_nil _ _
        · show 1 ≤ finestGrid
          decide +kernel
      · have hlength : (d.digits.drop (whole + 1)).length = d.digits.length - (whole + 1) :=
          List.length_drop
        have hne : d.digits.drop (whole + 1) ≠ [] := by
          rw [← List.length_pos_iff]
          omega
        have hempty : ¬ (d.digits.drop (whole + 1)).isEmpty = true := by simpa using hne
        have htake : whole + 1 - (d.digits.take (whole + 1)).length = 0 := by
          rw [List.length_take]
          omega
        rw [if_neg hempty, htake, List.replicate_zero, List.append_nil]
        apply value_pointed 0 hpos h hcontains
        · rw [List.take_append_drop, pow_zero, Nat.mul_one]
        · omega
        · exact hne
        · omega
  | negSucc zeros =>
      have hlength : (List.replicate zeros '0' ++ d.digits).length = zeros + d.digits.length := by
        rw [List.length_append, List.length_replicate]
      apply value_pointed 0 hpos h hcontains
      · show ofDigits (List.replicate 1 '0' ++ (List.replicate zeros '0' ++ d.digits)) = _
        rw [Number.ofDigits_append, Number.ofDigits_append, Number.ofDigits_zeros,
          Number.ofDigits_zeros, Nat.zero_mul, Nat.zero_mul, Nat.zero_add, Nat.zero_add, pow_zero,
          Nat.mul_one]
      · omega
      · rw [hdigits]
        simp
      · omega

theorem Numeral.shift_scientific (negative : Bool) (width : Nat) (d : Decimal) :
    (Numeral.scientific negative width d).shift = d.exponent := by
  have hpadded : ofDigits (Number.padded width d.exponent.natAbs) = d.exponent.natAbs :=
    Number.ofDigits_padded width _
  have hshift : (Numeral.scientific negative width d).shift =
      if decide (d.exponent < 0) then -((d.exponent.natAbs : Nat) : Int)
      else (d.exponent.natAbs : Nat) := by
    rw [← hpadded]
    rfl
  rw [hshift]
  by_cases hneg : d.exponent < 0
  · rw [if_pos (decide_eq_true hneg)]
    omega
  · rw [if_neg (by simpa using hneg)]
    omega

theorem Numeral.value_scientific (negative : Bool) (width : Nat) (hpos : 0 < (parts e f).1)
    (h : d.Marks point)
    (hcontains : (basin e f).Contains (point * unitsPerOne) (10 ^ finestGrid)) :
    (Numeral.scientific negative width d).value = .float (.finite negative e f) := by
  obtain ⟨c, rest, hdigits, -⟩ := h.first
  obtain ⟨k, hk, -⟩ := h.value
  have hlength : (d.digits.drop 1).length + 1 = d.digits.length := by
    rw [hdigits]
    rfl
  rw [value_eq_float (Bool.and_false _), shift_scientific]
  congr 1
  apply ofDecimal_of_marks 0 hpos h hcontains
  · show ofDigits (d.digits.take 1 ++ d.digits.drop 1) = _
    rw [List.take_append_drop, pow_zero, Nat.mul_one]
  · show d.exponent - ((d.digits.drop 1).length : Nat) + _ + _ = _
    omega
  · show _ ≤ d.exponent - ((d.digits.drop 1).length : Nat)
    omega

theorem text_of_units_ne_zero (negative : Bool) (h : Binary64.units e f ≠ 0) :
    ∃ isPositional : Bool, (Number.float (.finite negative e f)).text Number.written =
      (if negative then ['-'] else []) ++
        if isPositional then Binary64.positional (Binary64.shortest e f)
        else Binary64.scientific Number.written.exponentWidth (Binary64.shortest e f) := by
  refine ⟨Number.written.leastPositional ≤ (Binary64.shortest e f).exponent &&
    (Binary64.shortest e f).exponent < Number.written.firstScientific, ?_⟩
  rw [Number.text, Binary64.text, if_neg h]
  dsimp only
  cases negative with
  | false => rw [if_neg Bool.false_ne_true, if_neg Bool.false_ne_true, List.nil_append]
  | true => rw [if_pos rfl, if_pos rfl, List.singleton_append]

/-- A positive magnitude is written with its shortest digits. -/
theorem exists_numeral_of_pos (negative : Bool) (hpos : 0 < (parts e f).1) :
    ∃ m : Numeral, m.WellFormed ∧
      m.text = (Number.float (.finite negative e f)).text Number.written ∧
      m.value = .float (.finite negative e f) := by
  obtain ⟨point, hcontains, hmarks⟩ := Binary64.exists_shortest_marks hpos
  have hunits : Binary64.units e f ≠ 0 :=
    Nat.ne_of_gt (Nat.mul_pos hpos (Nat.two_pow_pos _))
  obtain ⟨isPositional, htext⟩ := text_of_units_ne_zero negative hunits
  rw [htext]
  cases isPositional with
  | true =>
      rw [if_pos rfl]
      exact ⟨.positional negative _, Numeral.wellFormed_positional negative hmarks,
        Numeral.text_positional negative hmarks,
        Numeral.value_positional negative hpos hmarks hcontains⟩
  | false =>
      rw [if_neg Bool.false_ne_true]
      exact ⟨.scientific negative _ _, Numeral.wellFormed_scientific negative _ hmarks,
        Numeral.text_scientific negative _ _,
        Numeral.value_scientific negative _ hpos hmarks hcontains⟩

/-- A zero keeps its sign. -/
theorem exists_numeral_of_zero (negative : Bool) (hzero : (parts e f).1 = 0) :
    ∃ m : Numeral, m.WellFormed ∧
      m.text = (Number.float (.finite negative e f)).text Number.written ∧
      m.value = .float (.finite negative e f) := by
  have hunits : Binary64.units e f = 0 := by
    rw [Binary64.units, hzero, Nat.zero_mul]
  have htext : (Number.float (.finite negative e f)).text Number.written =
      if negative then ['-', '0', '.', '0'] else ['0', '.', '0'] := by
    show (if negative then '-' :: _ else _) = _
    rw [if_pos hunits]
  have he : e.val = 0 := by
    by_contra hne
    have hsig := Binary64.le_fst_parts (f := f) hne
    omega
  have hvalue : Binary64.assemble negative 0 0 = .finite negative e f := by
    have hassembled := Binary64.assemble_parts negative e f
    rwa [hzero, Binary64.snd_parts_of_eq_zero he] at hassembled
  have hdigit : AreDigits ['0'] := Number.areDigits_zeros 1
  refine ⟨⟨negative, ['0'], ['0'], none⟩,
    ⟨hdigit, .inl rfl, hdigit, by simp, by simp⟩, ?_, ?_⟩
  · rw [htext]
    cases negative <;> rfl
  · rw [Numeral.value_eq_float rfl, ← hvalue]
    rfl

end Digits

/-- Every number that is no constant is written as a numeral of its value. -/
theorem exists_numeral {n : Number} (h : n.Legible) :
    ∃ m : Numeral, m.WellFormed ∧ m.text = n.text Number.written ∧ m.value = n := by
  cases n with
  | int n =>
      refine ⟨⟨decide (n < 0), digits n.natAbs, [], none⟩,
        ⟨Number.areDigits_digits _, ?_, by simp [AreDigits], by simp, fun _ => h⟩, ?_, ?_⟩
      · by_cases hzero : n.natAbs = 0
        · left
          rw [hzero]
          rfl
        · exact .inr (Number.head_digits_ne_zero (Nat.pos_of_ne_zero hzero))
      · cases n with
        | ofNat n =>
            simp [Numeral.text, Numeral.tail, Numeral.exponentText, Number.text, Number.intText]
        | negSucc n =>
            simp [Numeral.text, Numeral.tail, Numeral.exponentText, Number.text, Number.intText]
      · show Number.int (if decide (n < 0) then _ else _) = _
        rw [Number.ofDigits_digits]
        by_cases hneg : n < 0
        · rw [if_pos (decide_eq_true hneg)]
          congr 1
          omega
        · rw [if_neg (by simpa using hneg)]
          congr 1
          omega
  | float x =>
      cases x with
      | finite negative e f =>
          rcases Nat.eq_zero_or_pos (Binary64.parts e f).1 with hzero | hpos
          · exact exists_numeral_of_zero negative hzero
          · exact exists_numeral_of_pos negative hpos
      | undefined => exact h.elim
      | infinity negative => exact h.elim

end Json

end Formwork
