import Formwork.DateText.Basic
import Formwork.Proofs.Number.Digits
import Mathlib.Tactic.FinCases
import Mathlib.Tactic.IntervalCases

/-!
# The tokens of a written date

A number in a text is one token, as long as what follows it does not continue it, and a decimal is
one with its point. So the written form of a date is cut into its parts and the marks between them.
-/

namespace Formwork

open Number (AreDigits)

/-- The digits `0` to `9`, one after another. -/
theorem Number.mem_of_isDigit {c : Char} (h : c.isDigit = true) :
    c ∈ ['0', '1', '2', '3', '4', '5', '6', '7', '8', '9'] := by
  obtain ⟨hlower, hupper⟩ := toNat_of_isDigit h
  have hc : c = Char.ofNat c.toNat := (Char.ofNat_toNat c).symm
  rw [hc]
  interval_cases c.toNat <;> decide

namespace DateText

/-- A digit is no letter. -/
theorem isLetter_of_isDigit {c : Char} (h : c.isDigit = true) : Text.isLetter c = false := by
  have hmem := Number.mem_of_isDigit h
  fin_cases hmem <;> decide

section Tokens

variable {run run' : Run} {t : Token} {c : Char} {ds fs rest : List Char}

theorem tokensAfter_of_extend? (h : run.extend? c = some run') (rest : List Char) :
    tokensAfter (some run) (c :: rest) = tokensAfter (some run') rest := by
  rw [tokensAfter, h]

/-- A run that nothing continues is cut off. -/
theorem tokensAfter_of_finish (hfinish : ∀ followed, run.finish followed = [t])
    (hrest : ∀ c ∈ rest.head?, run.extend? c = none) :
    tokensAfter (some run) rest = t :: tokensAfter none rest := by
  cases rest with
  | nil => exact hfinish false
  | cons c rest =>
      simp only [tokensAfter, hrest c rfl, hfinish, List.cons_append, List.nil_append]

/-- A mark is one token. -/
theorem tokensAfter_mark (h : begin c = ([[c]], none)) (rest : List Char) :
    tokensAfter none (c :: rest) = [c] :: tokensAfter none rest := by
  rw [tokensAfter, h]
  rfl

/-- A letter before a number is one token. -/
theorem tokensAfter_letter (hc : Text.isLetter c = true) (hds : AreDigits ds) (hne : ds ≠ [])
    (rest : List Char) :
    tokensAfter none (c :: (ds ++ rest)) = [c] :: tokensAfter none (ds ++ rest) := by
  have hbegin : begin c = ([], some ⟨.word, [c], false⟩) := by rw [begin, if_pos hc]
  rw [tokensAfter, hbegin]
  refine tokensAfter_of_finish (fun _ => rfl) fun d hd => ?_
  have hdigit : d.isDigit = true := by
    cases ds with
    | nil => exact absurd rfl hne
    | cons e ds =>
        cases hd
        exact hds d List.mem_cons_self
  have hpoint : d ≠ '.' := by
    rintro rfl
    cases hdigit
  simp [Run.extend?, isLetter_of_isDigit hdigit, hpoint]

/-- A run of digits goes on with more of them, whether it has a point or not. -/
theorem tokensAfter_digits {mode : Mode} (hmode : mode = .number ∨ mode = .pointedNumber)
    (hds : AreDigits ds) (text rest : List Char) :
    tokensAfter (some ⟨mode, text, false⟩) (ds ++ rest) =
      tokensAfter (some ⟨mode, ds.reverse ++ text, false⟩) rest := by
  induction ds generalizing text with
  | nil => rfl
  | cons c ds ih =>
      have hc := Number.isDigit_of_isDigit (hds c List.mem_cons_self)
      have hextend : Run.extend? ⟨mode, text, false⟩ c = some ⟨mode, c :: text, false⟩ := by
        rcases hmode with rfl | rfl <;> simp [Run.extend?, hc]
      rw [List.cons_append, tokensAfter_of_extend? hextend,
        ih (fun d hd => hds d (List.mem_cons_of_mem _ hd)), List.reverse_cons, List.append_assoc]
      rfl

/-- Digits open a run. -/
theorem tokensAfter_none_digits (hds : AreDigits ds) (hne : ds ≠ []) (rest : List Char) :
    tokensAfter none (ds ++ rest) = tokensAfter (some ⟨.number, ds.reverse, false⟩) rest := by
  cases ds with
  | nil => exact absurd rfl hne
  | cons c ds =>
      have hc : c.isDigit = true := hds c List.mem_cons_self
      have hbegin : begin c = ([], some ⟨.number, [c], false⟩) := by
        rw [begin, isLetter_of_isDigit hc, Number.isDigit_of_isDigit hc]
        rfl
      rw [List.cons_append, tokensAfter, hbegin, List.reverse_cons]
      exact tokensAfter_digits (.inl rfl) (fun d hd => hds d (List.mem_cons_of_mem _ hd)) [c] rest

/-- What follows a number does not continue it: the text ends, or goes on with a mark. -/
def EndsNumber (rest : List Char) : Prop :=
  ∀ c ∈ rest.head?, c ∈ ['-', '+', ':', 'T']

theorem endsNumber_nil : EndsNumber [] := by
  intro c hc
  cases hc

theorem endsNumber_cons (h : c ∈ ['-', '+', ':', 'T']) (rest : List Char) :
    EndsNumber (c :: rest) := by
  intro d hd
  cases hd
  exact h

theorem EndsNumber.head? (h : EndsNumber rest) (hc : c ∈ rest.head?) :
    Text.isDigit c = false ∧ c ≠ '.' ∧ c ≠ ',' := by
  have hmem := h c hc
  fin_cases hmem <;> decide

/-- A number is one token. -/
theorem tokensAfter_number (hds : AreDigits ds) (hne : ds ≠ []) (hrest : EndsNumber rest) :
    tokensAfter none (ds ++ rest) = ds :: tokensAfter none rest := by
  rw [tokensAfter_none_digits hds hne]
  refine tokensAfter_of_finish (fun followed => by simp [Run.finish]) fun c hc => ?_
  obtain ⟨hdigit, hpoint, hcomma⟩ := hrest.head? hc
  simp [Run.extend?, hdigit, hpoint, hcomma]

/-- There is no point among digits. -/
theorem count_point_of_areDigits (hds : AreDigits ds) : ds.count '.' = 0 := by
  refine List.count_eq_zero.mpr fun hmem => ?_
  cases hds '.' hmem

/-- A number with a fraction is one token. -/
theorem tokensAfter_decimal (hds : AreDigits ds) (hne : ds ≠ []) (hfs : AreDigits fs)
    (hnone : fs ≠ []) (hrest : EndsNumber rest) :
    tokensAfter none (ds ++ '.' :: (fs ++ rest)) = (ds ++ '.' :: fs) :: tokensAfter none rest := by
  have hpoint : Run.extend? ⟨.number, ds.reverse, false⟩ '.' =
      some ⟨.pointedNumber, '.' :: ds.reverse, false⟩ := rfl
  rw [tokensAfter_none_digits hds hne, tokensAfter_of_extend? hpoint,
    tokensAfter_digits (.inr rfl) hfs]
  have hpoints : (ds ++ '.' :: fs).count '.' = 1 := by
    rw [List.count_append, List.count_cons_self, count_point_of_areDigits hds,
      count_point_of_areDigits hfs]
  obtain ⟨initial, last, hconcat⟩ := (List.eq_nil_or_concat fs).resolve_left hnone
  rw [List.concat_eq_append] at hconcat
  subst hconcat
  have hlast : last.isDigit = true := hfs last List.mem_concat_self
  have hmark : last ≠ '.' ∧ last ≠ ',' := by
    constructor <;> rintro rfl <;> cases hlast
  refine tokensAfter_of_finish (fun followed => ?_) fun c hc => ?_
  · simp [Run.finish, hpoints, hmark]
  · obtain ⟨hdigit, hpoint, -⟩ := hrest.head? hc
    simp [Run.extend?, hdigit, hpoint, hmark]

end Tokens

end DateText

namespace DateTime

/-- The seconds of a written date, with their fraction if there is one. -/
def secondsToken (m : Moment) : DateText.Token :=
  Number.padded 2 m.second ++
    if m.microsecond = 0 then [] else '.' :: Number.padded 6 m.microsecond

/-- The tokens of a written offset: its sign, the hours and the minutes. -/
def offsetTokens : Option Int → List DateText.Token
  | none => []
  | some offset =>
    [[if offset < 0 then '-' else '+'], Number.padded 2 (offset.natAbs / 3600), [':'],
      Number.padded 2 (offset.natAbs / 60 % 60)]

/-- The tokens of a written date. -/
def isoTokens (d : DateTime) : List DateText.Token :=
  Number.padded 4 d.moment.year :: ['-'] :: Number.padded 2 d.moment.month :: ['-'] ::
    Number.padded 2 d.moment.day :: ['T'] :: Number.padded 2 d.moment.hour :: [':'] ::
    Number.padded 2 d.moment.minute :: [':'] :: secondsToken d.moment :: offsetTokens d.offset

end DateTime

namespace DateText

theorem padded_ne_nil (width n : Nat) : Number.padded width n ≠ [] :=
  List.append_ne_nil_of_right_ne_nil _ Nat.toDigits_ne_nil

theorem tokensAfter_padded (width n : Nat) {rest : List Char} (hrest : EndsNumber rest) :
    tokensAfter none (Number.padded width n ++ rest) =
      Number.padded width n :: tokensAfter none rest :=
  tokensAfter_number (Number.areDigits_padded _ _) (padded_ne_nil _ _) hrest

/-- A number and the mark after it are two tokens. -/
theorem tokensAfter_part (width n : Nat) {c : Char} (hc : c ∈ ['-', '+', ':']) (rest : List Char) :
    tokensAfter none (Number.padded width n ++ c :: rest) =
      Number.padded width n :: [c] :: tokensAfter none rest := by
  have hmark : c ∈ ['-', '+', ':', 'T'] ∧ begin c = ([[c]], none) := by
    fin_cases hc <;> decide
  rw [tokensAfter_padded _ _ (endsNumber_cons hmark.1 _), tokensAfter_mark hmark.2]

/-- The written form of an offset, which is empty without one. -/
def offsetPart : Option Int → List Char
  | none => []
  | some offset => DateTime.offsetText offset

theorem endsNumber_offsetPart (o : Option Int) : EndsNumber (offsetPart o) := by
  cases o with
  | none => exact endsNumber_nil
  | some offset =>
      refine endsNumber_cons ?_ _
      split <;> decide

theorem tokensAfter_offsetPart (o : Option Int) :
    tokensAfter none (offsetPart o) = DateTime.offsetTokens o := by
  cases o with
  | none => rfl
  | some offset =>
      have hsign : begin (if offset < 0 then '-' else '+') =
          ([[if offset < 0 then '-' else '+']], none) := by split <;> decide
      have hlast := tokensAfter_padded 2 (offset.natAbs / 60 % 60) endsNumber_nil
      rw [List.append_nil] at hlast
      rw [offsetPart, DateTime.offsetText]
      simp only [List.cons_append]
      rw [tokensAfter_mark hsign, tokensAfter_part _ _ (by decide), hlast]
      rfl

theorem tokensAfter_seconds (m : Moment) {rest : List Char} (hrest : EndsNumber rest) :
    tokensAfter none (DateTime.secondsToken m ++ rest) =
      DateTime.secondsToken m :: tokensAfter none rest := by
  unfold DateTime.secondsToken
  split
  · rw [List.append_nil]
    exact tokensAfter_padded 2 _ hrest
  · rw [List.append_assoc]
    exact tokensAfter_decimal (Number.areDigits_padded _ _) (padded_ne_nil _ _)
      (Number.areDigits_padded _ _) (padded_ne_nil _ _) hrest

theorem iso_eq (d : DateTime) : d.iso =
    Number.padded 4 d.moment.year ++ '-' :: (Number.padded 2 d.moment.month ++
      '-' :: (Number.padded 2 d.moment.day ++ 'T' :: (Number.padded 2 d.moment.hour ++
      ':' :: (Number.padded 2 d.moment.minute ++ ':' :: (DateTime.secondsToken d.moment ++
      offsetPart d.offset))))) := by
  rw [DateTime.iso, DateTime.secondsToken]
  cases d.offset <;> simp [offsetPart]

/-- There is no NUL in the written form of a date. -/
theorem filter_iso (d : DateTime) : d.iso.filter (· != '\x00') = d.iso := by
  have hpadded (width n : Nat) :
      (Number.padded width n).filter (· != '\x00') = Number.padded width n := by
    refine List.filter_eq_self.mpr fun c hc => bne_iff_ne.mpr ?_
    rintro rfl
    cases Number.areDigits_padded _ _ _ hc
  have hseconds : (DateTime.secondsToken d.moment).filter (· != '\x00') =
      DateTime.secondsToken d.moment := by
    unfold DateTime.secondsToken
    split <;> simp [hpadded]
  have hoffset : (offsetPart d.offset).filter (· != '\x00') = offsetPart d.offset := by
    cases d.offset with
    | none => rfl
    | some offset =>
        rw [offsetPart, DateTime.offsetText]
        split <;> simp [hpadded]
  rw [iso_eq]
  simp [hpadded, hseconds, hoffset]

/-- The written form of a date is cut into its tokens. -/
theorem tokens_iso (d : DateTime) : tokens d.iso = d.isoTokens := by
  rw [tokens, filter_iso, iso_eq, tokensAfter_part _ _ (by decide),
    tokensAfter_part _ _ (by decide), tokensAfter_padded _ _ (endsNumber_cons (by decide) _),
    tokensAfter_letter (by decide) (Number.areDigits_padded _ _) (padded_ne_nil _ _),
    tokensAfter_part _ _ (by decide), tokensAfter_part _ _ (by decide),
    tokensAfter_seconds _ (endsNumber_offsetPart _), tokensAfter_offsetPart]
  rfl

end DateText

end Formwork
