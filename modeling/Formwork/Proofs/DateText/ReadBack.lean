import Formwork.Proofs.DateText.Offset
import Formwork.Proofs.DateText.Tokens
import Formwork.Proofs.Resolution.Values
import Formwork.Proofs.Value.Accepts

/-!
# Dates read back

The written form of a date spells all of its parts, so it is read as the same date whatever the
reference is and whatever year numbers of two digits are near to.
-/

namespace Formwork

open Number (AreDigits)

theorem DateTime.isWritable_iff {d : DateTime} :
    d.isWritable = true ↔ ∀ offset, d.offset = some offset → offset.natAbs < daySeconds := by
  rw [isWritable]
  cases d.offset <;> simp

namespace DateText

/-- The token is a number, spelled with as many digits. -/
structure Spells (t : Token) (width n : Nat) : Prop where
  length : t.length = width
  digits : AreDigits t
  number : Text.natOfDigits? t = some n

theorem spells_padded {width n : Nat} (hwidth : 0 < width) (h : n < 10 ^ width) :
    Spells (Number.padded width n) width n where
  length := by
    rw [Number.length_padded]
    exact Nat.max_eq_left ((Number.digitCount_le_iff hwidth).mpr h)
  digits := Number.areDigits_padded width n
  number := by
    rw [(Number.areDigits_padded width n).natOfDigits? (padded_ne_nil width n),
      Number.ofDigits_padded]

namespace Spells

variable {t : Token} {width n : Nat}

theorem wholeNumber? (h : Spells t width n) (hwidth : width ≤ Text.digitLimit) :
    Text.wholeNumber? t = some n := by
  rw [Text.wholeNumber?_of_length_le (by rw [h.length]; exact hwidth), h.number]

theorem takeWhile (h : Spells t width n) (rest : Token) :
    (t ++ rest).takeWhile (· != '.') = t ++ rest.takeWhile (· != '.') := by
  refine List.takeWhile_append_of_pos fun c hc => bne_iff_ne.mpr ?_
  rintro rfl
  cases h.digits _ hc

theorem dropWhile (h : Spells t width n) (rest : Token) :
    (t ++ rest).dropWhile (· != '.') = rest.dropWhile (· != '.') := by
  refine List.dropWhile_append_of_pos fun c hc => bne_iff_ne.mpr ?_
  rintro rfl
  cases h.digits _ hc

theorem takeWhile_self (h : Spells t width n) : t.takeWhile (· != '.') = t := by
  have htake := h.takeWhile []
  rwa [List.append_nil, List.takeWhile_nil, List.append_nil] at htake

theorem dropWhile_self (h : Spells t width n) : t.dropWhile (· != '.') = [] := by
  have hdrop := h.dropWhile []
  rwa [List.append_nil, List.dropWhile_nil] at hdrop

theorem ofToken? (h : Spells t width n) : Numeral.ofToken? t = some ⟨n, 0, 0⟩ := by
  rw [Numeral.ofToken?, h.takeWhile_self, h.dropWhile_self, h.number]
  rfl

/-- A number is no word. -/
theorem ne_word (h : Spells t width n) (hwidth : 0 < width) {w : String}
    (hw : w.toList.head?.any Char.isDigit = false) : w.toList ≠ lower t := by
  intro heq
  cases t with
  | nil => exact absurd h.length (Nat.ne_of_lt hwidth)
  | cons c ts =>
      have hc : c.isDigit = true := h.digits c List.mem_cons_self
      have hlower : c.toLower.isDigit = true := by
        have hmem := Number.mem_of_isDigit hc
        fin_cases hmem <;> decide
      rw [heq] at hw
      have hnot : c.toLower.isDigit = false := hw
      rw [hlower] at hnot
      cases hnot

theorem isOneOf_eq_false (h : Spells t width n) (hwidth : 0 < width) {words : List String}
    (hwords : (words.any fun w => w.toList.head?.any Char.isDigit) = false) :
    isOneOf words t = false := by
  rw [List.any_eq_false] at hwords
  rw [isOneOf, List.any_eq_false]
  exact fun w hw heq =>
    h.ne_word hwidth (Bool.eq_false_iff.mpr (hwords w hw)) (beq_iff_eq.mp heq)

theorem meaning?_eq_none (h : Spells t width n) (hwidth : 0 < width) {table : List (String × Nat)}
    (htable : (table.any fun w => w.1.toList.head?.any Char.isDigit) = false) :
    meaning? table t = none := by
  rw [List.any_eq_false] at htable
  rw [meaning?, Option.map_eq_none_iff, List.find?_eq_none]
  exact fun w hw heq =>
    h.ne_word hwidth (Bool.eq_false_iff.mpr (htable w hw)) (beq_iff_eq.mp heq)

theorem isFiller_eq_false (h : Spells t width n) (hwidth : 0 < width) : isFiller t = false :=
  h.isOneOf_eq_false hwidth (by decide)

theorem month?_eq_none (h : Spells t width n) (hwidth : 0 < width) : month? t = none :=
  h.meaning?_eq_none hwidth (by decide)

end Spells

/-- The seconds of a written date are those of the date, with their fraction. -/
theorem secondsOf_secondsToken {m : Moment} (hsecond : m.second < 60)
    (hmicro : m.microsecond < 1000000) :
    secondsOf (DateTime.secondsToken m) = .ok (m.second, m.microsecond) := by
  have hs : Spells (Number.padded 2 m.second) 2 m.second :=
    spells_padded (by decide) (hsecond.trans (by decide))
  have hf : Spells (Number.padded 6 m.microsecond) 6 m.microsecond :=
    spells_padded (by decide) hmicro
  have hwhole : Text.wholeNumber? (Number.padded 2 m.second) = some m.second :=
    hs.wholeNumber? (by decide)
  unfold DateTime.secondsToken
  split
  · rename_i hzero
    rw [List.append_nil, secondsOf, hs.dropWhile_self, hwhole, hzero]
    rfl
  · have hpoint : ¬ (Number.padded 6 m.microsecond).contains '.' = true := by
      rw [List.contains_iff_mem]
      intro hmem
      cases hf.digits _ hmem
    have hcut : (Number.padded 6 m.microsecond ++ List.replicate
        (6 - (Number.padded 6 m.microsecond).length) '0').take 6 =
          Number.padded 6 m.microsecond := by
      rw [hf.length, Nat.sub_self, List.replicate_zero, List.append_nil, List.take_of_length_le]
      exact hf.length.le
    have htake : (Number.padded 2 m.second ++ '.' :: Number.padded 6 m.microsecond).takeWhile
        (· != '.') = Number.padded 2 m.second := by
      rw [hs.takeWhile]
      simp
    have hdrop : (Number.padded 2 m.second ++ '.' :: Number.padded 6 m.microsecond).dropWhile
        (· != '.') = '.' :: Number.padded 6 m.microsecond := by
      rw [hs.dropWhile]
      simp
    have hfraction : Text.wholeNumber? (Number.padded 6 m.microsecond) = some m.microsecond :=
      hf.wholeNumber? (by decide)
    simp only [secondsOf, hdrop, if_neg hpoint, hcut, htake, hwhole, hfraction]
    rfl

namespace Reading

variable {y k : Nat} {r r' : Reading} {before rest : List Token} {t : Token}

theorem run_of_step (h : r.step y before t rest = .ok (r', k)) :
    run y before 0 r (t :: rest) = run y (t :: before) k r' rest := by
  rw [run, h]
  rfl

theorem step_of_spells {width n : Nat} (h : Spells t width n) :
    r.step y before t rest = r.setNumber before t rest := by
  rw [step, h.ofToken?]
  rfl

/-- A year, a month and a day were read, in this order. -/
def dated (year month day : Nat) : Reading :=
  { empty with members := ⟨[year, month, day], some 0, none, true⟩ }

/-- A number with as many digits as a year begins a date. -/
theorem setNumber_separated {n : Nat} (h : Spells t 4 n) (hr : r.members.values.length ≠ 3)
    (rest : List Token) :
    r.setNumber [] t (['-'] :: rest) = r.setSeparated t ['-'] rest := by
  have hunit : unitFor? [] (['-'] :: rest) = none := by
    have hmark : timeUnit? ['-'] = none := by decide
    simp [unitFor?, hmark]
  have hseparator : isSeparator ['-'] = true := by decide
  simp [setNumber, h.ofToken?, need, bind, Except.bind, h.length, hr, hunit, hseparator]

/-- A number with two digits before a colon begins a time of day. -/
theorem setNumber_clock {n : Nat} (h : Spells t 2 n) (minute : Token) (rest before : List Token)
    (hbefore : before.head? = some ['T']) :
    r.setNumber before t ([':'] :: minute :: rest) = r.setClock n minute rest := by
  have hunit : unitFor? before ([':'] :: minute :: rest) = none := by
    have hmark : timeUnit? [':'] = none := by decide
    have hletter : timeUnit? ['T'] = none := by decide
    simp [unitFor?, hmark, hbefore, hletter]
  simp [setNumber, h.ofToken?, need, bind, Except.bind, h.length, hunit]

theorem pushText?_of_spells {width n : Nat} (h : Spells t width n) (hwidth : width ≤ 2)
    (ms : Members) : ms.pushText? t = some (ms.push n) := by
  have hnumber : Text.wholeNumber? t = some n :=
    h.wholeNumber? (hwidth.trans (by decide))
  simp [Members.pushText?, hnumber, h.length, Nat.not_lt.mpr hwidth]

/-- A year, a month and a day with the same separator are taken together. -/
theorem setSeparated_date {year month day : Token} {y m d : Nat} (hyear : Spells year 4 y)
    (hmonth : Spells month 2 m) (hday : Spells day 2 d) (rest : List Token) :
    empty.setSeparated year ['-'] (month :: ['-'] :: day :: rest) = .ok (dated y m d, 4) := by
  have hnumber : Text.wholeNumber? year = some y := hyear.wholeNumber? (by decide)
  have hpush : empty.members.pushText? year = some ⟨[y], some 0, none, true⟩ := by
    simp [Members.pushText?, hnumber, hyear.length, hyear.digits.all_isDigit, Members.pushYear?,
      Members.push, empty, Members.empty]
  simp [setSeparated, withMembers?, need, bind, Except.bind, hpush,
    hmonth.isFiller_eq_false, hmonth.digits.all_isDigit, pushText?_of_spells hmonth,
    pushWordOrDigits, hday.month?_eq_none, pushText?_of_spells hday, Members.push, pure,
    Except.pure, dated]

/-- An hour, a minute and seconds with colons between them are taken together. -/
theorem setClock_time {minute seconds : Token} {m : Nat} (hminute : Spells minute 2 m)
    (hm : m < 60) {second micro : Nat} (hseconds : secondsOf seconds = .ok (second, micro))
    (hour : Nat) (rest : List Token) :
    r.setClock hour minute ([':'] :: seconds :: rest) =
      .ok ({ r with
        hour := some hour, minute := some m, second := some second,
        microsecond := some micro }, 4) := by
  have hsixtieths : Numeral.sixtiethsOrStop ⟨m, 0, 0⟩ = .ok none := by
    have hfew : ¬ Nat.pow 10 Numeral.precision ≤ m := Nat.not_le.mpr (hm.trans (by decide))
    simp only [Numeral.sixtiethsOrStop, Numeral.sixtieths, if_neg hfew, if_true]
  simp [setClock, hminute.ofToken?, need, bind, Except.bind, hsixtieths, hseconds, pure,
    Except.pure]

/-- A sign after the time of day takes the hours and minutes of an offset with it. -/
theorem setOffset_of_spells {hours minutes : Token} {h m : Nat} (hhours : Spells hours 2 h)
    (hminutes : Spells minutes 2 m) (negative : Bool) :
    let size : Int := (3600 * h + 60 * m : Nat)
    r.setOffset negative [hours, [':'], minutes] =
      .ok ({ r with offset := some (if negative then -size else size) }, 3) := by
  simp [setOffset, offsetParts, hhours.length, hhours.wholeNumber? (by decide),
    hminutes.wholeNumber? (by decide), need, bind, Except.bind, pure, Except.pure]

/-- What the written form of a date tells. -/
def ofDate (d : DateTime) : Reading :=
  { dated d.moment.year d.moment.month d.moment.day with
    hour := some d.moment.hour, minute := some d.moment.minute, second := some d.moment.second,
    microsecond := some d.moment.microsecond, offset := d.offset }

theorem step_letter {y m d year : Nat} (rest : List Token) :
    (dated y m d).step year before ['T'] rest = .ok (dated y m d, 0) := by
  rfl

/-- After a time of day and before any zone, a sign begins an offset. -/
theorem step_sign {year hour : Nat} {sign : Token} (hsign : sign = ['-'] ∨ sign = ['+'])
    (hhour : r.hour = some hour) (rest : List Token) :
    r.step year before sign rest = r.setOffset (sign = ['-']) rest := by
  have hwords : ∀ t : Token, t = ['-'] ∨ t = ['+'] → Numeral.ofToken? t = none ∧
      isNotFinite t = false ∧ weekday? t = none ∧ month? t = none ∧ meridiem? t = none ∧
      isZoneName t = false := by
    rintro t (rfl | rfl) <;> decide
  obtain ⟨hnumeral, hfinite, hweekday, hmonth, hmeridiem, hzone⟩ := hwords sign hsign
  simp [step, hnumeral, hfinite, hweekday, hmonth, hmeridiem, hzone, hhour, hsign.symm]

/-- The year, month and day of a written date are read in one step. -/
theorem run_date {year month day : Token} {y m d : Nat} (hyear : Spells year 4 y)
    (hmonth : Spells month 2 m) (hday : Spells day 2 d) (currentYear : Nat) (rest : List Token) :
    run currentYear [] 0 empty (year :: ['-'] :: month :: ['-'] :: day :: rest) =
      run currentYear [day, ['-'], month, ['-'], year] 0 (dated y m d) rest := by
  have hstep : empty.step currentYear [] year (['-'] :: month :: ['-'] :: day :: rest) =
      .ok (dated y m d, 4) := by
    rw [step_of_spells hyear, setNumber_separated hyear (by decide),
      setSeparated_date hyear hmonth hday]
  rw [run_of_step hstep]
  rfl

/-- The hour, minute and seconds after the letter are read in one step. -/
theorem run_time {hour minute seconds : Token} {h m second micro : Nat} (hhour : Spells hour 2 h)
    (hminute : Spells minute 2 m) (hm : m < 60) (hseconds : secondsOf seconds = .ok (second, micro))
    (currentYear : Nat) (hbefore : before.head? = some ['T']) (rest : List Token) :
    run currentYear before 0 r (hour :: [':'] :: minute :: [':'] :: seconds :: rest) =
      run currentYear (seconds :: [':'] :: minute :: [':'] :: hour :: before) 0
        { r with
          hour := some h, minute := some m, second := some second, microsecond := some micro }
        rest := by
  have hstep := setClock_time (r := r) hminute hm hseconds h rest
  rw [← setNumber_clock hhour _ _ before hbefore,
    ← step_of_spells (y := currentYear) hhour] at hstep
  rw [run_of_step hstep]
  rfl

/-- An offset of whole minutes and less than a day is read in one step. -/
theorem run_offset {offset : Int} (hminutes : offset.natAbs % 60 = 0)
    (hday : offset.natAbs < DateTime.daySeconds) {hour : Nat} (hhour : r.hour = some hour)
    (currentYear : Nat) (before : List Token) :
    run currentYear before 0 r (DateTime.offsetTokens (some offset)) =
      .ok { r with offset := some offset } := by
  have hhours : Spells (Number.padded 2 (offset.natAbs / 3600)) 2 (offset.natAbs / 3600) := by
    have hsmall : offset.natAbs / 3600 < 10 ^ 2 := by
      rw [DateTime.daySeconds] at hday
      omega
    exact spells_padded (by decide) hsmall
  have hrest : Spells (Number.padded 2 (offset.natAbs / 60 % 60)) 2 (offset.natAbs / 60 % 60) :=
    spells_padded (by decide) ((Nat.mod_lt _ (by decide)).trans (by decide))
  have hsize : 3600 * (offset.natAbs / 3600) + 60 * (offset.natAbs / 60 % 60) = offset.natAbs := by
    omega
  have hrun : ∀ sign : Token, sign = ['-'] ∨ sign = ['+'] →
      (if sign = ['-'] then -(offset.natAbs : Int) else offset.natAbs) = offset →
      run currentYear before 0 r [sign, Number.padded 2 (offset.natAbs / 3600), [':'],
        Number.padded 2 (offset.natAbs / 60 % 60)] = .ok { r with offset := some offset } := by
    intro sign hsign hvalue
    have hstep : r.step currentYear before sign [Number.padded 2 (offset.natAbs / 3600), [':'],
        Number.padded 2 (offset.natAbs / 60 % 60)] =
          .ok ({ r with offset := some offset }, 3) := by
      rw [step_sign hsign hhour, setOffset_of_spells hhours hrest, hsize]
      simp only [decide_eq_true_eq, hvalue]
    rw [run_of_step hstep]
    rfl
  rw [DateTime.offsetTokens]
  by_cases hnegative : offset < 0
  · rw [if_pos hnegative]
    exact hrun _ (.inl rfl) (by rw [if_pos rfl]; omega)
  · rw [if_neg hnegative]
    exact hrun _ (.inr rfl) (by rw [if_neg (by decide)]; omega)

/-- The tokens of a written date are read as what they are. -/
theorem ofTokens_isoTokens {d : DateTime} (hwritable : d.isWritable = true)
    (hminutes : ∀ offset, d.offset = some offset → offset.natAbs % 60 = 0) (currentYear : Nat) :
    ofTokens currentYear d.isoTokens = .ok (ofDate d) := by
  obtain ⟨⟨-, hyear⟩, ⟨-, hmonth⟩, ⟨-, hday⟩, hhour, hminute, hsecond, hmicro⟩ := d.valid
  have hmonthDays := Calendar.daysIn_le d.moment.year d.moment.month
  rw [ofTokens, DateTime.isoTokens,
    run_date (spells_padded (by decide) (Nat.lt_succ_of_le hyear))
      (spells_padded (by decide) (by omega)) (spells_padded (by decide) (by omega)),
    run_of_step (step_letter _),
    run_time (spells_padded (by decide) (by omega)) (spells_padded (by decide) (by omega)) hminute
      (secondsOf_secondsToken hsecond hmicro) _ rfl]
  cases hoffset : d.offset with
  | none =>
      rw [ofDate, hoffset]
      rfl
  | some offset =>
      have hsize := DateTime.isWritable_iff.mp hwritable offset hoffset
      rw [run_offset (hminutes offset hoffset) hsize rfl, ofDate, hoffset]

end Reading

section ReadBack

variable {y : Nat} {reference d : DateTime}

/-- What the written form of a date tells is the date, with any reference and in any year. -/
theorem build?_ofDate (hwritable : d.isWritable = true) (y : Nat) (reference : DateTime) :
    build? y reference (.ofDate d) = some d := by
  refine build?_eq_some_iff.mpr
    ⟨⟨some d.moment.year, some d.moment.month, some d.moment.day⟩, ?_, ?_, d.valid, ?_,
      d.of?_moment⟩
  · simp [Members.meaning?, Members.byOrder?, Reading.ofDate, Reading.dated]
  · simp [Reading.tells]
  · have hzone : zoneOffset (.ofDate d) = d.offset := rfl
    rw [Reading.NearZone, hzone, offsetDayLimit, DateTime.daySeconds]
    cases hoffset : d.offset with
    | none => decide
    | some offset =>
        have hsize := DateTime.isWritable_iff.mp hwritable offset hoffset
        rw [DateTime.daySeconds] at hsize
        rw [Option.getD_some]
        omega

/-- The offset of a date that was read has no seconds. -/
theorem natAbs_offset_mod {s : String} (h : parseIn y reference s = .ok d) {offset : Int}
    (ho : d.offset = some offset) : offset.natAbs % 60 = 0 := by
  rcases offset_of_parseIn h offset ho with
    rfl | ⟨sign, rest, hours, minutes, count, -, -, -, hsize⟩
  · rfl
  · omega

/-- The written form of a date without seconds in its offset is read as the date. -/
theorem parseIn_iso (hwritable : d.isWritable = true)
    (hminutes : ∀ offset, d.offset = some offset → offset.natAbs % 60 = 0) (y : Nat)
    (reference : DateTime) : parseIn y reference (String.ofList d.iso) = .ok d := by
  refine parseIn_eq_ok_iff.mpr ⟨?_, .ofDate d, ?_, build?_ofDate hwritable y reference⟩
  · rw [Text.isBlankText, String.toList_ofList, List.all_eq_false]
    exact ⟨'T', by simp [iso_eq], by decide⟩
  · rw [String.toList_ofList, tokens_iso, Reading.ofTokens_isoTokens hwritable hminutes]

/-- A date that was read, with an offset of less than a day if it has one, has a written form. This
is read as the date with any reference and in any year, so as the default of a date field it is
accepted, and gives the date whatever the reference. -/
theorem parseIn_toJson [Host] {s : String} (h : parseIn y reference s = .ok d)
    (hday : ∀ offset, d.offset = some offset → -86400 < offset ∧ offset < 86400) :
    ∃ text, (InitialValue.date d).toJson? = some (.str text) ∧
      (∀ y' reference', parseIn y' reference' text = .ok d) ∧
      ∀ a format showTime reference',
        let f := Field.leaf a (.date format showTime) (some (.str text))
        (f.check (.str text)).outcome = .ok none ∧ f.given? reference' = some (.date d) := by
  have hwritable : d.isWritable = true := by
    refine DateTime.isWritable_iff.mpr fun offset hoffset => ?_
    have hbounds := hday offset hoffset
    rw [DateTime.daySeconds]
    omega
  have hread (y' : Nat) (reference' : DateTime) :
      parseIn y' reference' (String.ofList d.iso) = .ok d :=
    parseIn_iso hwritable (fun offset ho => natAbs_offset_mod h ho) y' reference'
  have hdate (reference' : DateTime) :
      parse reference' (.str (String.ofList d.iso)) = .ok d := hread Host.year reference'
  refine ⟨String.ofList d.iso, ?_, hread, fun a format showTime reference' => ⟨?_, ?_⟩⟩
  · simp [InitialValue.toJson?, DateTime.iso?, hwritable]
  · exact (Field.check_eq_none_iff _ _).mpr ⟨d, hdate .epoch⟩
  · exact Field.given?_eq_date_iff.mpr ⟨_, rfl, hdate reference'⟩

attribute [local instance] Host.standard in
/-- A date of the first century, with microseconds and an offset to the west. -/
theorem parseIn_toJson_west :
    ∃ d text, parseIn 2024 .epoch "0099-01-02 03:04:05.006-01:30" = .ok d ∧
      d.offset = some (-5400) ∧ (InitialValue.date d).toJson? = some (.str text) ∧
      ∀ y' reference', parseIn y' reference' text = .ok d := by
  have hd : parseIn 2024 .epoch "0099-01-02 03:04:05.006-01:30" =
      .ok ⟨⟨99, 1, 2, 3, 4, 5, 6000⟩, some (-5400), by decide⟩ := rfl
  obtain ⟨text, htext, hsame, -⟩ := parseIn_toJson hd (by rintro _ ⟨⟩; decide)
  exact ⟨_, text, hd, rfl, htext, hsame⟩

end ReadBack

end DateText

end Formwork
