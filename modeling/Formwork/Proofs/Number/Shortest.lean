import Formwork.Proofs.Number.Digits
import Formwork.Proofs.Number.Rounding

/-!
# The digits that are chosen round back

The search for digits ends on the grid of seventeen digits at the latest, whose steps are shorter
than any basin: one of the two neighbours of the centre lies in it. Whatever point is found, its
digits without the zeros at the end spell it.
-/

namespace Formwork

namespace Number

/-- Only zero has a digit zero in front. -/
theorem head_digits_ne_zero {n : Nat} (h : 0 < n) :
    ∃ c rest, digits n = c :: rest ∧ c ≠ '0' := by
  cases hds : digits n with
  | nil => exact absurd hds Nat.toDigits_ne_nil
  | cons c rest =>
      refine ⟨c, rest, rfl, ?_⟩
      rintro rfl
      have hvalue : ofDigits rest = n := by
        have hall := ofDigits_digits n
        rw [hds] at hall
        simpa [ofDigits] using hall
      cases rest with
      | nil =>
          rw [← hvalue] at h
          exact absurd h (Nat.lt_irrefl 0)
      | cons d rest =>
          have hdigits : AreDigits (d :: rest) := fun e he =>
            areDigits_digits n e (hds ▸ List.mem_cons_of_mem _ he)
          have hcount := digitCount_ofDigits_le hdigits (List.cons_ne_nil d rest)
          have hlength : digitCount n = (d :: rest).length + 1 := by
            rw [digitCount, hds]
            rfl
          rw [hvalue, hlength] at hcount
          omega

end Number

namespace Binary64

open Number

-- The two constants are far too large to be computed with.
attribute [local irreducible] unitsPerOne finestGrid

namespace Basin

variable {b : Basin} {power : Nat}

/-- A point of the finest grid in a basin is a quotient of units in it. -/
theorem contains_of_holds {point : Nat} (hle : b.low ≤ b.high) (h : b.holds point = true) :
    b.Contains (point * unitsPerOne) (10 ^ finestGrid) := by
  have hpoint : ofGrid point = 4 * (point * unitsPerOne) := by
    unfold ofGrid
    ring
  simp only [holds, hpoint, Nat.pow_eq, Bool.or_eq_true, Bool.and_eq_true, decide_eq_true_eq,
    beq_iff_eq] at h
  have hends : b.low * 10 ^ finestGrid ≤ b.high * 10 ^ finestGrid := Nat.mul_le_mul_right _ hle
  generalize hlow : b.low * 10 ^ finestGrid = low at h hends
  generalize hhigh : b.high * 10 ^ finestGrid = high at h hends
  generalize hx : point * unitsPerOne = x at h
  constructor
  · rw [hlow]
    rcases h with h | ⟨-, h⟩ <;> omega
  · rw [hhigh]
    rcases h with h | ⟨-, h⟩ <;> omega
  · rw [hlow, hhigh]
    intro hend
    rcases h with h | h
    · omega
    · exact h.1

theorem holds_of_neighbour? {d : Nat} (h : b.neighbour? power = some d) :
    b.holds (d * 10 ^ power) = true := by
  unfold neighbour? at h
  rcases eitherOf_eq_some h with ⟨rfl, hd⟩ | ⟨rfl, hd⟩
  · exact hd
  · exact hd

/-- On a grid whose steps are shorter than the basin there is a neighbour in it. -/
theorem exists_neighbour? (hlow : b.low < b.centre) (hhigh : b.centre < b.high)
    (hstep : b.low * 10 ^ finestGrid + ofGrid (10 ^ power) < b.high * 10 ^ finestGrid) :
    ∃ d, b.neighbour? power = some d := by
  have hP : 0 < 10 ^ finestGrid := Nat.pow_pos (by decide)
  have hgrid : 0 < ofGrid (10 ^ power) := by
    have hunits := unitsPerOne_pos
    exact Nat.mul_pos (Nat.pow_pos (by decide)) (by omega)
  have hlowP : b.low * 10 ^ finestGrid < b.centre * 10 ^ finestGrid :=
    Nat.mul_lt_mul_of_pos_right hlow hP
  have hhighP : b.centre * 10 ^ finestGrid < b.high * 10 ^ finestGrid :=
    Nat.mul_lt_mul_of_pos_right hhigh hP
  have hdivision := Nat.div_add_mod (b.centre * 10 ^ finestGrid) (ofGrid (10 ^ power))
  have hrest := Nat.mod_lt (b.centre * 10 ^ finestGrid) hgrid
  have hscale : ∀ d, ofGrid (d * 10 ^ power) = ofGrid (10 ^ power) * d := by
    intro d
    unfold ofGrid
    ring
  generalize hdown : b.centre * 10 ^ finestGrid / ofGrid (10 ^ power) = down at hdivision
  have hneighbour : b.holds (down * 10 ^ power) = true ∨
      b.holds ((down + 1) * 10 ^ power) = true := by
    have hup := Nat.mul_add_one (ofGrid (10 ^ power)) down
    simp only [holds, hscale, Nat.pow_eq, Bool.or_eq_true, Bool.and_eq_true, decide_eq_true_eq]
    omega
  rw [← hdown] at hneighbour
  unfold neighbour?
  exact exists_eitherOf hneighbour

theorem holds_of_search {count more d : Nat} (h : b.search count more = some (d, power)) :
    b.holds (d * 10 ^ power) = true := by
  induction more generalizing count with
  | zero =>
      rw [search] at h
      exact absurd h (by simp)
  | succ more ih =>
      rw [search, Option.orElse_eq_orElse, Option.orElse_eq_or, Option.or_eq_some_iff,
        Option.map_eq_some_iff] at h
      rcases h with ⟨d, hd, heq⟩ | ⟨-, h⟩
      · rw [← (Prod.mk.inj heq).1, ← (Prod.mk.inj heq).2]
        exact holds_of_neighbour? hd
      · exact ih h

/-- The search finds a point if there is a neighbour on any grid that it comes to. -/
theorem exists_search {count more k : Nat} (hk : k < more)
    (h : ∃ d, b.neighbour? (b.leading + 1 - (count + k)) = some d) :
    ∃ found, b.search count more = some found := by
  induction more generalizing count k with
  | zero => exact absurd hk (Nat.not_lt_zero k)
  | succ more ih =>
      rw [search, Option.orElse_eq_orElse, Option.orElse_eq_or]
      cases k with
      | zero =>
          obtain ⟨d, hd⟩ := h
          have hcount : count + 0 = count := rfl
          rw [hcount] at hd
          rw [hd]
          exact ⟨_, rfl⟩
      | succ k =>
          have hshift : count + (k + 1) = count + 1 + k := by omega
          rw [hshift] at h
          obtain ⟨found, hfound⟩ := ih (by omega) h
          rw [hfound]
          cases Option.map (·, b.leading + 1 - count) (b.neighbour? (b.leading + 1 - count)) with
          | none => exact ⟨found, rfl⟩
          | some first => exact ⟨first, rfl⟩

/-- The leading power of ten does not exceed the centre, and is at least `10 ^ 16` steps of the
finest grid. -/
theorem leading_le (h : 4 ≤ b.centre) :
    16 ≤ b.leading ∧ 10 ^ b.leading * (4 * unitsPerOne) ≤ b.centre * 10 ^ finestGrid := by
  have hfine : 10 ^ 16 * unitsPerOne ≤ 10 ^ finestGrid := by
    decide +kernel
  have hunits : 0 < 4 * unitsPerOne := by
    have hpos := unitsPerOne_pos
    omega
  have hcentre : 10 ^ 16 * (4 * unitsPerOne) ≤ b.centre * 10 ^ finestGrid :=
    calc
      10 ^ 16 * (4 * unitsPerOne) = 4 * (10 ^ 16 * unitsPerOne) := by ring
      _ ≤ b.centre * 10 ^ finestGrid := Nat.mul_le_mul h hfine
  have hleading : b.leading = digitCount (b.centre * 10 ^ finestGrid / (4 * unitsPerOne)) - 1 := rfl
  generalize hq : b.centre * 10 ^ finestGrid / (4 * unitsPerOne) = q at hleading
  have hsixteen : ¬ digitCount q ≤ 16 := by
    rw [digitCount_le_iff (by decide), ← hq, Nat.not_lt, Nat.le_div_iff_mul_le hunits]
    exact hcentre
  have hfirst : ¬ digitCount q ≤ b.leading := by omega
  rw [digitCount_le_iff (by omega), ← hq, Nat.not_lt, Nat.le_div_iff_mul_le hunits] at hfirst
  exact ⟨by omega, hfirst⟩

/-- Where the basin is wider than the `10 ^ 16`th part of its centre, the search finds a point. -/
theorem exists_search_of_wide (hcentre : 4 ≤ b.centre) (hlow : b.low < b.centre)
    (hhigh : b.centre < b.high) (hwide : b.low * 10 ^ 16 + b.centre < b.high * 10 ^ 16) :
    ∃ found, b.search 1 17 = some found := by
  obtain ⟨hsixteen, hleading⟩ := leading_le hcentre
  apply exists_search (k := 16) (by decide)
  apply exists_neighbour? hlow hhigh
  have hgrid : ofGrid (10 ^ (b.leading + 1 - (1 + 16))) * 10 ^ 16 =
      10 ^ b.leading * (4 * unitsPerOne) := by
    have hpower : 10 ^ b.leading = 10 ^ (b.leading + 1 - (1 + 16)) * 10 ^ 16 := by
      rw [← pow_add]
      congr 1
      omega
    unfold ofGrid
    rw [hpower]
    ring
  have hscaled : (b.low * 10 ^ 16 + b.centre) * 10 ^ finestGrid <
      b.high * 10 ^ 16 * 10 ^ finestGrid :=
    Nat.mul_lt_mul_of_pos_right hwide (Nat.pow_pos (by decide))
  apply Nat.lt_of_mul_lt_mul_right (a := 10 ^ 16)
  calc
    (b.low * 10 ^ finestGrid + ofGrid (10 ^ (b.leading + 1 - (1 + 16)))) * 10 ^ 16 =
        b.low * 10 ^ 16 * 10 ^ finestGrid + 10 ^ b.leading * (4 * unitsPerOne) := by
      rw [Nat.add_mul, hgrid]
      ring
    _ ≤ (b.low * 10 ^ 16 + b.centre) * 10 ^ finestGrid := by
      rw [Nat.add_mul]
      exact Nat.add_le_add_left hleading _
    _ < b.high * 10 ^ 16 * 10 ^ finestGrid := hscaled
    _ = b.high * 10 ^ finestGrid * 10 ^ 16 := by ring

end Basin

variable {e : Fin 2047} {f : Fin (Nat.pow 2 52)}

theorem basin_centre : (basin e f).centre = 4 * (parts e f).1 * 2 ^ (parts e f).2 := rfl

/-- A basin lies around its centre, and is wide enough for seventeen digits. -/
theorem basin_wide (h : 0 < (parts e f).1) :
    0 < (basin e f).low ∧ (basin e f).low < (basin e f).centre ∧
      (basin e f).centre < (basin e f).high ∧
      (basin e f).low * 10 ^ 16 + (basin e f).centre < (basin e f).high * 10 ^ 16 := by
  have hsig := fst_parts_lt e f
  have hstep : 0 < 2 ^ (parts e f).2 := Nat.two_pow_pos _
  obtain ⟨lower, hlower, hlow, hwide⟩ : ∃ lower, (basin e f).low = lower * 2 ^ (parts e f).2 ∧
      (0 < lower ∧ lower < 4 * (parts e f).1) ∧
      lower * 10 ^ 16 + 4 * (parts e f).1 < (4 * (parts e f).1 + 2) * 10 ^ 16 := by
    by_cases hpower : atPower e f
    · have hsixteen : (parts e f).1 = 2 ^ 52 := by
        obtain ⟨hf, he⟩ := hpower
        rw [← le_fst_parts (by omega), hf, Nat.add_zero]
      exact ⟨_, basin_low_of_atPower hpower, by omega, by omega⟩
    · exact ⟨_, basin_low_of_not_atPower hpower, by omega, by omega⟩
  rw [hlower, basin_centre, basin_high]
  refine ⟨Nat.mul_pos hlow.1 hstep, Nat.mul_lt_mul_of_pos_right hlow.2 hstep,
    Nat.mul_lt_mul_of_pos_right (by omega) hstep, ?_⟩
  calc
    lower * 2 ^ (parts e f).2 * 10 ^ 16 + 4 * (parts e f).1 * 2 ^ (parts e f).2 =
        (lower * 10 ^ 16 + 4 * (parts e f).1) * 2 ^ (parts e f).2 := by ring
    _ < (4 * (parts e f).1 + 2) * 10 ^ 16 * 2 ^ (parts e f).2 :=
      Nat.mul_lt_mul_of_pos_right hwide hstep
    _ = (4 * (parts e f).1 + 2) * 2 ^ (parts e f).2 * 10 ^ 16 := by ring

/-- Trimming takes only zeros away. -/
theorem exists_trimZeros_append (ds : List Char) :
    ∃ k, ds = trimZeros ds ++ List.replicate k '0' := by
  have hsplit := List.takeWhile_append_dropWhile (p := (· == '0')) (l := ds.reverse)
  have hzeros : ∀ c ∈ ds.reverse.takeWhile (· == '0'), c = '0' := by
    intro c hc
    simpa using List.all_eq_true.mp List.all_takeWhile c hc
  refine ⟨(ds.reverse.takeWhile (· == '0')).length, ?_⟩
  have hreverse := congrArg List.reverse hsplit
  rw [List.reverse_append, List.reverse_reverse, List.eq_replicate_of_mem hzeros,
    List.reverse_replicate] at hreverse
  exact hreverse.symm

/-- The decimal stands for a point of the finest grid: its digits, the first one not zero, spell
it but for a power of ten. -/
structure Decimal.Marks (d : Decimal) (point : Nat) : Prop where
  digits : AreDigits d.digits
  first : ∃ c rest, d.digits = c :: rest ∧ c ≠ '0'
  value : ∃ k : Nat, d.exponent = (k + d.digits.length : Nat) - (finestGrid + 1 : Nat) ∧
    ofDigits d.digits * 10 ^ k = point

/-- A decimal stands for the point that it was made of. -/
theorem Decimal.marks_ofPoint {point power : Nat} (h : 0 < point) :
    (Decimal.ofPoint point power).Marks (point * 10 ^ power) := by
  obtain ⟨k, hk⟩ := exists_trimZeros_append (Number.digits point)
  have hexponent : (Decimal.ofPoint point power).exponent =
      (power + (Number.digits point).length : Nat) - (finestGrid + 1 : Nat) := rfl
  have htrimmed : (Decimal.ofPoint point power).digits = trimZeros (Number.digits point) := rfl
  refine ⟨fun c hc => ?_, ?_, power + k, ?_, ?_⟩
  · apply areDigits_digits point
    rw [hk]
    exact List.mem_append_left _ hc
  · obtain ⟨c, rest, hdigits, hc⟩ := head_digits_ne_zero h
    rw [htrimmed]
    rw [hdigits] at hk ⊢
    cases htrim : trimZeros (c :: rest) with
    | nil =>
        rw [htrim, List.nil_append] at hk
        have hzero : c ∈ List.replicate k '0' := hk ▸ List.mem_cons_self
        exact absurd (List.eq_of_mem_replicate hzero) hc
    | cons c' rest' =>
        rw [htrim] at hk
        exact ⟨c', rest', rfl, (List.cons.inj hk).1 ▸ hc⟩
  · have hlength := congrArg List.length hk
    rw [List.length_append, List.length_replicate] at hlength
    rw [hexponent, htrimmed, hlength]
    omega
  · have hvalue := congrArg ofDigits hk
    rw [ofDigits_digits, ofDigits_append, ofDigits_zeros, List.length_replicate,
      Nat.add_zero] at hvalue
    rw [htrimmed, pow_add, Nat.mul_comm (10 ^ power), ← Nat.mul_assoc, ← hvalue]

theorem shortest_eq {point power : Nat}
    (h : (basin e f).search 1 17 = some (point, power)) :
    shortest e f = Decimal.ofPoint point power := by
  rw [shortest, h]
  rfl

/-- The shortest digits of a positive magnitude stand for a point in its basin. -/
theorem exists_shortest_marks (h : 0 < (parts e f).1) :
    ∃ point, (basin e f).Contains (point * unitsPerOne) (10 ^ finestGrid) ∧
      (shortest e f).Marks point := by
  obtain ⟨hlow, hbelow, habove, hwide⟩ := basin_wide h
  have hcentre : 4 ≤ (basin e f).centre := by
    rw [basin_centre]
    have hstep : 0 < 2 ^ (parts e f).2 := Nat.two_pow_pos _
    nlinarith
  obtain ⟨⟨d, power⟩, hfound⟩ := Basin.exists_search_of_wide hcentre hbelow habove hwide
  have hcontains := Basin.contains_of_holds (hbelow.trans habove).le
    (Basin.holds_of_search hfound)
  have hd : 0 < d := by
    apply Nat.pos_of_ne_zero
    rintro rfl
    have hpos : 0 < (basin e f).low * 10 ^ finestGrid := Nat.mul_pos hlow (Nat.pow_pos (by decide))
    have hzero := hcontains.low
    rw [Nat.zero_mul, Nat.zero_mul, Nat.mul_zero] at hzero
    omega
  refine ⟨d * 10 ^ power, hcontains, ?_⟩
  rw [shortest_eq hfound]
  exact Decimal.marks_ofPoint hd

end Binary64

end Formwork
