import Formwork.Json.Printer
import Formwork.Proofs.Json.Reader
import Formwork.Proofs.Number.Decimal
import Formwork.Proofs.Number.Shortest

/-!
# Numbers that are written and read back

A numeral is what a number is spelled with: digits before and after the point, and an exponent.
A reader takes exactly a numeral off the front of a text in which nothing continues it. Every
number that is no constant is written as a numeral of its own value.
-/

namespace Formwork

/-- The number is written without a constant and within the limit on digits. -/
def Number.Legible : Number → Prop
  | .int n => Number.digitCount n.natAbs ≤ Text.digitLimit
  | .float (.finite _ _ _) => True
  | .float _ => False

theorem Number.Legible.spelled {n : Number} (h : n.Legible) : n.Spelled := by
  cases n with
  | int n => exact h
  | float x =>
      rintro rfl
      exact h

namespace Json

open Number (AreDigits ofDigits digits)

/-- The spelling of a number. An exponent has a sign, which may be negative, and digits. -/
structure Numeral where
  negative : Bool
  whole : List Char
  fraction : List Char
  exponent : Option (Bool × List Char)

namespace Numeral

/-- The exponent in the text. -/
def exponentText (n : Numeral) : List Char :=
  match n.exponent with
  | none => []
  | some (negative, ds) => 'e' :: (if negative then '-' else '+') :: ds

/-- What follows the whole part in the text. -/
def tail (n : Numeral) : List Char :=
  (if n.fraction.isEmpty then [] else '.' :: n.fraction) ++ n.exponentText

/-- The text of a numeral. -/
def text (n : Numeral) : List Char :=
  (if n.negative then ['-'] else []) ++ (n.whole ++ n.tail)

/-- The value of the exponent. -/
def shift (n : Numeral) : Int :=
  match n.exponent with
  | none => 0
  | some (negative, ds) => if negative then -(ofDigits ds : Nat) else (ofDigits ds : Nat)

/-- The number that is spelled: an integer without a fraction and an exponent, else a binary
number. -/
def value (n : Numeral) : Number :=
  if n.fraction.isEmpty && n.exponent.isNone then
    .int (if n.negative then -(ofDigits n.whole : Nat) else (ofDigits n.whole : Nat))
  else
    .float (Binary64.ofDecimal n.negative (ofDigits (n.whole ++ n.fraction))
      (n.shift - n.fraction.length))

/-- The parts of a numeral are digits; the whole part has no zero in front, and an integer is
within the limit on digits. -/
structure WellFormed (n : Numeral) : Prop where
  whole : AreDigits n.whole
  first : n.whole = ['0'] ∨ ∃ c rest, n.whole = c :: rest ∧ c ≠ '0'
  fraction : AreDigits n.fraction
  exponent : ∀ negative ds, n.exponent = some (negative, ds) → AreDigits ds ∧ ds ≠ []
  limit : n.fraction.isEmpty && n.exponent.isNone → n.whole.length ≤ Text.digitLimit

end Numeral

/-- The text does not begin with a digit. -/
def NoDigitFirst (rest : List Char) : Prop :=
  ∀ c ∈ rest.head?, c.isDigit = false

/-- The text does not begin with a character that would continue a number. -/
def EndsNumber (rest : List Char) : Prop :=
  ∀ c ∈ rest.head?, c.isDigit = false ∧ c ≠ '.' ∧ c ≠ 'e' ∧ c ≠ 'E'

variable {rest : List Char}

theorem EndsNumber.noDigitFirst (h : EndsNumber rest) : NoDigitFirst rest :=
  fun c hc => (h c hc).1

theorem takeWhile_digits {ds : List Char} (hds : AreDigits ds) (hrest : NoDigitFirst rest) :
    (ds ++ rest).takeWhile isDigit = ds := by
  have hall : ∀ c ∈ ds, isDigit c = true := hds
  rw [List.takeWhile_append_of_pos hall]
  cases rest with
  | nil => rw [List.takeWhile_nil, List.append_nil]
  | cons c rest =>
      have hc : isDigit c = false := hrest c rfl
      rw [List.takeWhile_cons, if_neg (by rw [hc]; decide), List.append_nil]

theorem wholePart_append {whole : List Char} (hdigits : AreDigits whole)
    (hfirst : whole = ['0'] ∨ ∃ c rest, whole = c :: rest ∧ c ≠ '0')
    (hrest : NoDigitFirst rest) : wholePart (whole ++ rest) = whole := by
  rcases hfirst with rfl | ⟨c, ds, rfl, hc⟩
  · rfl
  · have hdigit : isDigit c = true := hdigits c List.mem_cons_self
    have hds : AreDigits ds := fun d hd => hdigits d (List.mem_cons_of_mem _ hd)
    rw [List.cons_append, wholePart, if_neg hc, if_pos hdigit, takeWhile_digits hds hrest]

namespace Numeral

variable {n : Numeral}

theorem WellFormed.exists_first (h : n.WellFormed) :
    ∃ c ds, n.whole = c :: ds ∧ c.isDigit = true := by
  rcases h.first with hzero | ⟨c, ds, hcons, -⟩
  · exact ⟨'0', [], hzero, rfl⟩
  · exact ⟨c, ds, hcons, h.whole c (hcons ▸ List.mem_cons_self)⟩

theorem noDigitFirst_exponentText_append (n : Numeral) (hrest : EndsNumber rest) :
    NoDigitFirst (n.exponentText ++ rest) := by
  unfold exponentText
  cases n.exponent with
  | none => exact hrest.noDigitFirst
  | some e =>
      intro c hc
      cases hc
      rfl

theorem noDigitFirst_tail_append (n : Numeral) (hrest : EndsNumber rest) :
    NoDigitFirst (n.tail ++ rest) := by
  unfold tail
  split
  · rw [List.nil_append]
    exact n.noDigitFirst_exponentText_append hrest
  · intro c hc
    cases hc
    rfl

theorem fractionPart_tail_append (h : n.WellFormed) (hrest : EndsNumber rest) :
    fractionPart (n.tail ++ rest) = n.fraction := by
  have hnext := n.noDigitFirst_exponentText_append hrest
  unfold tail
  split
  · rename_i hempty
    rw [List.isEmpty_iff.mp hempty, List.nil_append]
    unfold exponentText
    split
    · cases rest with
      | nil => rfl
      | cons c rest =>
          obtain ⟨-, hpoint, -⟩ := hrest c rfl
          simp [fractionPart, hpoint]
    · rfl
  · rw [List.cons_append, List.cons_append, List.append_assoc, fractionPart,
      takeWhile_digits h.fraction hnext]

theorem exponentPart?_append (h : n.WellFormed) (hrest : EndsNumber rest) :
    exponentPart? (n.exponentText ++ rest) =
      if n.exponent.isNone then none else some ⟨n.exponentText.length, n.shift⟩ := by
  unfold exponentText shift
  cases hexponent : n.exponent with
  | none =>
      rw [List.nil_append]
      cases rest with
      | nil => rfl
      | cons c rest =>
          obtain ⟨-, -, he, hE⟩ := hrest c rfl
          simp [exponentPart?, he, hE]
  | some e =>
      obtain ⟨negative, ds⟩ := e
      obtain ⟨hds, hne⟩ := h.exponent negative ds hexponent
      have htake := takeWhile_digits hds hrest.noDigitFirst
      have hempty : ds.isEmpty = false := by simpa using hne
      cases negative with
      | true => simp [exponentPart?, htake, hempty, Nat.add_comm, Nat.add_left_comm]
      | false => simp [exponentPart?, htake, hempty, Nat.add_comm, Nat.add_left_comm]

/-- The text of a numeral is taken off as a number of its value. -/
theorem numberToken_append (h : n.WellFormed) (hrest : EndsNumber rest) (position : Nat) :
    numberToken position (n.text ++ rest) = (.scalar (.num n.value), n.text.length) := by
  obtain ⟨first, others, hcons, hdigit⟩ := h.exists_first
  unfold numberToken
  extract_lets negative unsigned sign whole afterWhole fraction pointed exponent length size
    power value
  have hnegative : negative = n.negative := by
    cases hn : n.negative with
    | true => simp [negative, text, hn]
    | false =>
        have hminus : first ≠ '-' := by
          rintro rfl
          cases hdigit
        simp [negative, text, hn, hcons, hminus]
  have hunsigned : unsigned = n.whole ++ (n.tail ++ rest) := by
    simp only [unsigned, hnegative]
    cases hn : n.negative <;> simp [text, hn]
  have hwhole : whole = n.whole := by
    simp only [whole, hunsigned]
    exact wholePart_append h.whole h.first (n.noDigitFirst_tail_append hrest)
  have hafter : afterWhole = n.tail ++ rest := by
    simp only [afterWhole, hunsigned, hwhole, List.drop_left]
  have hfraction : fraction = n.fraction := by
    simp only [fraction, hafter]
    exact fractionPart_tail_append h hrest
  have hpointed : pointed = (if n.fraction.isEmpty then [] else '.' :: n.fraction).length := by
    simp only [pointed, hfraction]
    split
    · rfl
    · rw [List.length_cons, Nat.add_comm]
  have hexponent : exponent =
      if n.exponent.isNone then none else some ⟨n.exponentText.length, n.shift⟩ := by
    simp only [exponent, hafter, hpointed, tail, List.append_assoc, List.drop_left]
    exact exponentPart?_append h hrest
  have hlength : length = n.text.length := by
    simp only [length, sign, hnegative, hwhole, hpointed, hexponent, text, tail,
      List.length_append]
    cases he : n.exponent <;> cases n.negative <;> simp [exponentText, he, Nat.add_assoc]
  have hnone : exponent.isNone = n.exponent.isNone := by
    rw [hexponent]
    cases n.exponent <;> rfl
  have hpower : power = n.shift - n.fraction.length := by
    simp only [power, hfraction, hexponent]
    cases he : n.exponent <;> simp [shift, he]
  rw [if_neg (by rw [hwhole, hcons]; simp), hfraction, hnone]
  unfold Numeral.value
  split
  · rename_i hinteger
    have hlimit : ¬ Text.digitLimit < whole.length := by
      rw [hwhole]
      exact Nat.not_lt.mpr (h.limit hinteger)
    rw [if_neg hlimit, hlength, hnegative]
    simp only [size, hwhole]
    rfl
  · simp only [value, hnegative, hwhole, hfraction, hpower, hlength]

end Numeral

end Json

end Formwork
