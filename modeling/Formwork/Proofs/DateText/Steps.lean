import Formwork.DateText.Basic
import Formwork.Proofs.Outcome

/-!
# What the reading of a date can tell

Members of a date are only ever added, and a place that is known stays known. Only a zone or a
signed number changes the offset. The date that is built of a reading has its year and its offset.
-/

namespace Formwork.DateText

open Except

theorem need_eq_ok_iff {α : Type} {o : Option α} {a : α} : need o = .ok a ↔ o = some a := by
  cases o <;> simp [need]

namespace Members

/-- Members were added to those so far, and what was known of these stays known. -/
structure Extends (ms more : Members) : Prop where
  values : ms.values <+: more.values
  yearAt : ∀ place, ms.yearAt = some place → more.yearAt = some place
  monthAt : ∀ place, ms.monthAt = some place → more.monthAt = some place
  hasCentury : ms.hasCentury = true → more.hasCentury = true

theorem Extends.refl (ms : Members) : ms.Extends ms :=
  ⟨List.prefix_refl _, fun _ h => h, fun _ h => h, id⟩

theorem Extends.trans {ms more most : Members} (h : ms.Extends more) (h' : more.Extends most) :
    ms.Extends most where
  values := h.values.trans h'.values
  yearAt place hplace := h'.yearAt place (h.yearAt place hplace)
  monthAt place hplace := h'.monthAt place (h.monthAt place hplace)
  hasCentury hcentury := h'.hasCentury (h.hasCentury hcentury)

/-- A member that was there stays at its place. -/
theorem Extends.value? {ms more : Members} (h : ms.Extends more) {place value : Nat}
    (hvalue : ms.value? place = some value) : more.value? place = some value := by
  obtain ⟨added, hvalues⟩ := h.values
  have hplace : place < ms.values.length := (List.getElem?_eq_some_iff.mp hvalue).1
  rw [Members.value?, ← hvalues, List.getElem?_append_left hplace]
  exact hvalue

theorem extends_push (ms : Members) (value : Nat) : ms.Extends (ms.push value) :=
  ⟨List.prefix_append _ _, fun _ h => h, fun _ h => h, id⟩

theorem pushYear?_eq_some_iff {ms more : Members} {value : Nat} :
    ms.pushYear? value = some more ↔
      ms.yearAt = none ∧ more = { ms.push value with yearAt := some ms.values.length } := by
  unfold pushYear?
  cases ms.yearAt <;> simp [eq_comm]

theorem pushMonth?_eq_some_iff {ms more : Members} {value : Nat} :
    ms.pushMonth? value = some more ↔
      ms.monthAt = none ∧ more = { ms.push value with monthAt := some ms.values.length } := by
  unfold pushMonth?
  cases ms.monthAt <;> simp [eq_comm]

/-- A year is added with its century or without. -/
theorem extends_of_pushYear? {ms more : Members} (century : Bool) {value : Nat}
    (h : pushYear? { ms with hasCentury := ms.hasCentury || century } value = some more) :
    ms.Extends more := by
  obtain ⟨hyear, rfl⟩ := pushYear?_eq_some_iff.mp h
  refine ⟨List.prefix_append _ _, fun place hplace => ?_, fun _ h => h, fun hc => ?_⟩
  · have hnone : ms.yearAt = none := hyear
    rw [hnone] at hplace
    cases hplace
  · simp [push, hc]

theorem extends_of_pushMonth? {ms more : Members} {value : Nat}
    (h : ms.pushMonth? value = some more) : ms.Extends more := by
  obtain ⟨hmonth, rfl⟩ := pushMonth?_eq_some_iff.mp h
  refine ⟨List.prefix_append _ _, fun _ h => h, fun place hplace => ?_, id⟩
  rw [hmonth] at hplace
  cases hplace

theorem extends_of_pushText? {ms more : Members} {t : Token} (h : ms.pushText? t = some more) :
    ms.Extends more := by
  rw [pushText?, Option.bind_eq_bind, Option.bind_eq_some_iff] at h
  obtain ⟨value, -, h⟩ := h
  split at h
  · apply extends_of_pushYear? true
    rwa [Bool.or_true]
  · cases h
    exact ms.extends_push value

theorem extends_of_pushYearText? {ms more : Members} {t : Token}
    (h : ms.pushYearText? t = some more) : ms.Extends more := by
  rw [pushYearText?, Option.bind_eq_bind, Option.bind_eq_some_iff] at h
  obtain ⟨value, -, h⟩ := h
  exact extends_of_pushYear? _ h

theorem extends_of_pushNumeral? {ms more : Members} {n : Numeral}
    (h : ms.pushNumeral? n = some more) : ms.Extends more := by
  unfold pushNumeral? at h
  split at h
  · apply extends_of_pushYear? true
    rwa [Bool.or_true]
  · cases h
    exact ms.extends_push n.whole

end Members

namespace Reading

/-- Members were added and the time of day was set, and nothing else was told. -/
structure Counts (r r' : Reading) : Prop where
  members : r.members.Extends r'.members
  weekday : r'.weekday = r.weekday
  zone : r'.zone = r.zone
  offset : r'.offset = r.offset

variable {r r' : Reading} {rest : List Token} {taken : Nat}

theorem Counts.trans {r'' : Reading} (h : r.Counts r') (h' : r'.Counts r'') : r.Counts r'' :=
  ⟨h.members.trans h'.members, h'.weekday.trans h.weekday, h'.zone.trans h.zone,
    h'.offset.trans h.offset⟩

/-- Whatever is set of the time of day, nothing else is told. -/
theorem counts_timed (r : Reading) (hour minute second microsecond : Option Nat) :
    r.Counts { r with
      hour := hour, minute := minute, second := second, microsecond := microsecond } :=
  ⟨.refl _, rfl, rfl, rfl⟩

theorem withMembers?_eq_ok_iff {ms : Option Members} :
    r.withMembers? ms = .ok r' ↔ ∃ m, ms = some m ∧ r' = { r with members := m } := by
  rw [withMembers?, bind_eq_ok_iff]
  simp only [need_eq_ok_iff]
  exact exists_congr fun m => and_congr_right fun _ => ⟨fun h => (Except.ok.inj h).symm,
    fun h => congrArg Except.ok h.symm⟩

theorem counts_of_withMembers? {ms : Option Members} (h : r.withMembers? ms = .ok r')
    (hms : ∀ m, ms = some m → r.members.Extends m) : r.Counts r' := by
  obtain ⟨m, hm, rfl⟩ := withMembers?_eq_ok_iff.mp h
  exact ⟨hms m hm, rfl, rfl, rfl⟩

/-- Two more members after one that was added, as in a date without separators. -/
theorem counts_of_pushTwo {ms₁ ms₂ : Members} {second third : Token}
    (hfirst : r.members.Extends ms₁) (hsecond : ms₁.pushText? second = some ms₂)
    (h : r.withMembers? (ms₂.pushText? third) = .ok r') : r.Counts r' := by
  apply counts_of_withMembers? h
  intro ms hthird
  have htwo : r.members.Extends ms₂ := hfirst.trans (Members.extends_of_pushText? hsecond)
  exact htwo.trans (Members.extends_of_pushText? hthird)

theorem counts_of_pushWordOrDigits {t : Token} (h : r.pushWordOrDigits t = .ok r') :
    r.Counts r' := by
  unfold pushWordOrDigits at h
  split at h
  · exact counts_of_withMembers? h fun _ => Members.extends_of_pushMonth?
  · exact counts_of_withMembers? h fun _ => Members.extends_of_pushText?

theorem counts_of_setUnit {t : Token} {n : Numeral} {unit : TimeUnit}
    (h : r.setUnit t n unit = .ok r') : r.Counts r' := by
  cases unit with
  | hour =>
      rw [setUnit, bind_eq_ok_iff] at h
      obtain ⟨minute, -, h⟩ := h
      cases h
      exact counts_timed ..
  | minute =>
      rw [setUnit, bind_eq_ok_iff] at h
      obtain ⟨second, -, h⟩ := h
      cases h
      exact counts_timed ..
  | second =>
      rw [setUnit, bind_eq_ok_iff] at h
      obtain ⟨⟨second, micro⟩, -, h⟩ := h
      cases h
      exact counts_timed ..

theorem counts_of_setClock {hour : Nat} {minute : Token}
    (h : r.setClock hour minute rest = .ok (r', taken)) : r.Counts r' := by
  rw [setClock, bind_eq_ok_iff] at h
  obtain ⟨n, -, h⟩ := h
  rw [bind_eq_ok_iff] at h
  obtain ⟨second, -, h⟩ := h
  dsimp only at h
  split at h
  · rw [bind_eq_ok_iff] at h
    obtain ⟨⟨second, micro⟩, -, h⟩ := h
    cases h
    exact counts_timed ..
  · cases h
    exact counts_timed ..

theorem counts_of_setSeparated {first separator : Token}
    (h : r.setSeparated first separator rest = .ok (r', taken)) : r.Counts r' := by
  rw [setSeparated, bind_eq_ok_iff] at h
  obtain ⟨r₁, h₁, h⟩ := h
  have hfirst : r.Counts r₁ :=
    counts_of_withMembers? h₁ fun _ => Members.extends_of_pushText?
  split at h
  · cases h
    exact hfirst
  split at h
  · cases h
    exact hfirst
  extract_lets further at h
  have hfurther : ∀ r₂, r.Counts r₂ → further r₂ = .ok (r', taken) → r.Counts r' := by
    intro r₂ hsecond h
    unfold further at h
    split at h
    · cases h
      exact hsecond
    split at h
    · split at h
      · cases h
      · rw [bind_eq_ok_iff] at h
        obtain ⟨r₃, h₃, h⟩ := h
        cases h
        exact hsecond.trans (counts_of_pushWordOrDigits h₃)
    · cases h
      exact hsecond
  split at h
  · rw [bind_eq_ok_iff] at h
    obtain ⟨r₂, h₂, h⟩ := h
    apply hfurther r₂ _ h
    exact hfirst.trans (counts_of_withMembers? h₂ fun _ => Members.extends_of_pushText?)
  · rw [bind_eq_ok_iff] at h
    obtain ⟨r₂, h₂, h⟩ := h
    apply hfurther r₂ _ h
    apply hfirst.trans (counts_of_withMembers? h₂ _)
    intro m hm
    obtain ⟨month, -, hm⟩ := Option.bind_eq_some_iff.mp hm
    exact Members.extends_of_pushMonth? hm

theorem counts_of_setPlain {n : Numeral} (h : r.setPlain n rest = .ok (r', taken)) :
    r.Counts r' := by
  have hmember : ∀ {r'}, r.withMembers? (r.members.pushNumeral? n) = .ok r' → r.Counts r' :=
    fun h => counts_of_withMembers? h fun _ => Members.extends_of_pushNumeral?
  have hadded : ∀ {taken'}, (do return (← r.withMembers? (r.members.pushNumeral? n), taken') :
      Step) = .ok (r', taken) → r.Counts r' := by
    intro taken' h
    rw [bind_eq_ok_iff] at h
    obtain ⟨r₁, h₁, h⟩ := h
    cases h
    exact hmember h₁
  unfold setPlain at h
  dsimp only at h
  split at h
  · exact hadded h
  split at h
  · split at h
    · cases h
      exact counts_timed ..
    · exact hadded h
  split at h
  · split at h
    · cases h
      exact counts_timed ..
    split at h
    · exact hadded h
    · cases h
  · split at h
    · exact hadded h
    · cases h

theorem counts_of_setNumber {before : List Token} {t : Token}
    (h : r.setNumber before t rest = .ok (r', taken)) : r.Counts r' := by
  unfold setNumber at h
  rw [bind_eq_ok_iff] at h
  obtain ⟨n, -, h⟩ := h
  extract_lets length beforeTime at h
  -- the cases are the lengths of the number: those of a time, of a date and of both
  split at h
  · rw [bind_eq_ok_iff] at h
    obtain ⟨hour, -, h⟩ := h
    split at h
    · rw [bind_eq_ok_iff] at h
      obtain ⟨minute, -, h⟩ := h
      cases h
      exact counts_timed ..
    · cases h
      exact counts_timed ..
  split at h
  · split at h
    · simp only [bind_eq_ok_iff, need_eq_ok_iff] at h
      obtain ⟨m₁, h₁, m₂, h₂, r₁, h₃, h⟩ := h
      cases h
      exact counts_of_pushTwo (Members.extends_of_pushText? h₁) h₂ h₃
    · simp only [bind_eq_ok_iff] at h
      obtain ⟨hour, -, minute, -, ⟨second, micro⟩, -, h⟩ := h
      cases h
      exact counts_timed ..
  split at h
  · simp only [bind_eq_ok_iff, need_eq_ok_iff] at h
    obtain ⟨m₁, h₁, m₂, h₂, r₁, h₃, h⟩ := h
    have hdate : r.Counts r₁ := counts_of_pushTwo (Members.extends_of_pushYearText? h₁) h₂ h₃
    apply hdate.trans
    split at h
    · cases h
      exact counts_timed ..
    simp only [bind_eq_ok_iff] at h
    obtain ⟨hour, -, minute, -, h⟩ := h
    split at h
    · cases h
      exact counts_timed ..
    · rw [bind_eq_ok_iff] at h
      obtain ⟨second, -, h⟩ := h
      cases h
      exact counts_timed ..
  -- a number of no such length is told by what stands around it
  split at h
  · rw [bind_eq_ok_iff] at h
    obtain ⟨r₁, h₁, h⟩ := h
    cases h
    exact counts_of_setUnit h₁
  · cases h
    exact counts_timed ..
  · split at h
    · exact counts_of_setClock h
    · split at h
      · exact counts_of_setSeparated h
      · exact counts_of_setPlain h
    · exact counts_of_setPlain h

theorem counts_of_setMonth {currentYear month : Nat}
    (h : r.setMonth currentYear month rest = .ok (r', taken)) : r.Counts r' := by
  rw [setMonth, bind_eq_ok_iff] at h
  obtain ⟨r₁, h₁, h⟩ := h
  have hmonth : r.Counts r₁ :=
    counts_of_withMembers? h₁ fun _ => Members.extends_of_pushMonth?
  split at h
  · split at h
    · split at h
      · cases h
      rw [bind_eq_ok_iff] at h
      obtain ⟨r₂, h₂, h⟩ := h
      have hsecond : r.Counts r₂ :=
        hmonth.trans (counts_of_withMembers? h₂ fun _ => Members.extends_of_pushText?)
      split at h
      · cases h
        exact hsecond
      split at h
      · split at h
        · cases h
        · rw [bind_eq_ok_iff] at h
          obtain ⟨r₃, h₃, h⟩ := h
          cases h
          exact hsecond.trans
            (counts_of_withMembers? h₃ fun _ => Members.extends_of_pushText?)
      · cases h
        exact hsecond
    split at h
    · split at h
      · split at h
        · rw [bind_eq_ok_iff] at h
          obtain ⟨year, -, h⟩ := h
          rw [bind_eq_ok_iff] at h
          obtain ⟨r₂, h₂, h⟩ := h
          cases h
          exact hmonth.trans
            (counts_of_withMembers? h₂ fun _ => Members.extends_of_pushYearText?)
        · cases h
          exact hmonth
      · cases h
        exact hmonth
    · cases h
      exact hmonth
  · cases h
    exact hmonth

/-- The tokens spell an offset: a sign, and after it the hours and minutes. -/
def SpellsOffset (ts : List Token) (offset : Int) : Prop :=
  ∃ sign rest hours minutes count, sign :: rest <:+ ts ∧ (sign = ['+'] ∨ sign = ['-']) ∧
    offsetParts rest = .ok (hours, minutes, count) ∧
    offset.natAbs = 3600 * hours + 60 * minutes

/-- A signed number changes the offset, and the name of the zone that may follow. -/
theorem setOffset_eq_ok {negative : Bool} (h : r.setOffset negative rest = .ok (r', taken)) :
    r'.members = r.members ∧ r'.weekday = r.weekday ∧ ∃ offset hours minutes count,
      r'.offset = some offset ∧ offsetParts rest = .ok (hours, minutes, count) ∧
      offset.natAbs = 3600 * hours + 60 * minutes := by
  rw [setOffset, bind_eq_ok_iff] at h
  obtain ⟨⟨hours, minutes, count⟩, hparts, h⟩ := h
  have hsize : (if negative then -((3600 * hours + 60 * minutes : Nat) : Int)
      else ((3600 * hours + 60 * minutes : Nat) : Int)).natAbs = 3600 * hours + 60 * minutes := by
    cases negative <;> simp only [Bool.false_eq_true, if_true, if_false] <;> omega
  dsimp only at h
  split at h
  · split at h
    · cases h
      exact ⟨rfl, rfl, _, hours, minutes, _, rfl, hparts, hsize⟩
    · cases h
      exact ⟨rfl, rfl, _, hours, minutes, _, rfl, hparts, hsize⟩
  · cases h
    exact ⟨rfl, rfl, _, hours, minutes, _, rfl, hparts, hsize⟩

/-- The name of a zone takes the offset away, or sets it to zero or to the number after it. -/
theorem setZone_eq_ok {name : Token} (h : r.setZone name rest = .ok (r', taken)) :
    r'.members = r.members ∧ r'.weekday = r.weekday ∧
      ∀ offset, r'.offset = some offset → offset = 0 ∨ SpellsOffset rest offset := by
  have hplain : ∀ {offset : Int}, (if name = ['z'] then some 0 else none) = some offset →
      offset = 0 := by
    intro offset ho
    split at ho
    · exact (Option.some.inj ho).symm
    · cases ho
  unfold setZone at h
  dsimp only at h
  split at h
  · rename_i sign rest
    split at h
    · rename_i hsign
      rw [bind_eq_ok_iff] at h
      obtain ⟨⟨r₁, k⟩, hoffset, h⟩ := h
      cases h
      obtain ⟨hmembers, hweekday, offset, hours, minutes, count, ho, hparts, hsize⟩ :=
        setOffset_eq_ok hoffset
      refine ⟨hmembers, hweekday, fun offset' ho' => .inr ?_⟩
      rw [ho] at ho'
      cases ho'
      have hsign : sign = ['+'] ∨ sign = ['-'] := by simpa using hsign
      exact ⟨sign, rest, hours, minutes, count, List.suffix_refl _, hsign, hparts, hsize⟩
    · cases h
      exact ⟨rfl, rfl, fun _ ho => .inl (hplain ho)⟩
  · cases h
    exact ⟨rfl, rfl, fun _ ho => .inl (hplain ho)⟩

/-- What one step can do: members are added, and the offset stays, or is taken away, or is zero,
or is one that the tokens spell from here on. -/
theorem step_eq_ok {currentYear : Nat} {before : List Token} {t : Token}
    (h : r.step currentYear before t rest = .ok (r', taken)) :
    r.members.Extends r'.members ∧
      (r'.offset = r.offset ∨
        ∀ offset, r'.offset = some offset → offset = 0 ∨ SpellsOffset (t :: rest) offset) := by
  have hcounts : r.Counts r' → r.members.Extends r'.members ∧ (r'.offset = r.offset ∨
      ∀ offset, r'.offset = some offset → offset = 0 ∨ SpellsOffset (t :: rest) offset) :=
    fun h => ⟨h.members, .inl h.offset⟩
  unfold step at h
  split at h
  · exact hcounts (counts_of_setNumber h)
  split at h
  · cases h
    exact ⟨.refl _, .inl rfl⟩
  split at h
  · exact hcounts (counts_of_setMonth h)
  split at h
  · split at h
    · cases h
      exact ⟨.refl _, .inl rfl⟩
    · cases h
  · cases h
  split at h
  · obtain ⟨hmembers, -, hoffset⟩ := setZone_eq_ok h
    refine ⟨hmembers ▸ .refl _, .inr fun offset ho => ?_⟩
    rcases hoffset offset ho with hzero | ⟨sign, ts, hours, minutes, count, hsuffix, hspelled⟩
    · exact .inl hzero
    · exact .inr ⟨sign, ts, hours, minutes, count, hsuffix.trans (List.suffix_cons _ _), hspelled⟩
  split at h
  · rename_i hsign
    obtain ⟨hmembers, -, offset, hours, minutes, count, ho, hparts, hsize⟩ := setOffset_eq_ok h
    refine ⟨hmembers ▸ .refl _, .inr fun offset' ho' => .inr ?_⟩
    rw [ho] at ho'
    cases ho'
    have hsign : t = ['+'] ∨ t = ['-'] := by simp at hsign; exact hsign.2
    exact ⟨t, rest, hours, minutes, count, List.suffix_refl _, hsign, hparts, hsize⟩
  split at h
  · cases h
    exact ⟨.refl _, .inl rfl⟩
  · cases h

/-- What was read so far is extended by reading on. -/
theorem extends_of_run {currentYear taken : Nat} {before ts : List Token}
    (h : run currentYear before taken r ts = .ok r') : r.members.Extends r'.members := by
  induction ts generalizing before taken r with
  | nil =>
      cases taken <;> cases h <;> exact .refl _
  | cons t rest ih =>
      cases taken with
      | succ taken => exact ih h
      | zero =>
          rw [run, bind_eq_ok_iff] at h
          obtain ⟨⟨r₁, k⟩, hstep, h⟩ := h
          exact (step_eq_ok hstep).1.trans (ih h)

end Reading

/-- The year of a reading: the one that its members mean, with a century if it has none, or else
that of the reference. -/
def yearOf (currentYear : Nat) (reference : DateTime) (r : Reading) (m : Members.Meaning) : Nat :=
  (m.year.map fun year => if r.members.hasCentury then year else nearYear currentYear year).getD
    reference.moment.year

/-- The parts of a reading, with those that it lacks from the reference; a day of the reference is
cut to the length of the month. -/
def completed (currentYear : Nat) (reference : DateTime) (r : Reading) (m : Members.Meaning) :
    Moment where
  year := yearOf currentYear reference r m
  month := m.month.getD reference.moment.month
  day := m.day.getD (min reference.moment.day (Calendar.daysIn
    (yearOf currentYear reference r m) (m.month.getD reference.moment.month)))
  hour := r.hour.getD reference.moment.hour
  minute := r.minute.getD reference.moment.minute
  second := r.second.getD reference.moment.second
  microsecond := r.microsecond.getD reference.moment.microsecond

/-- The moment on the weekday of a reading, if it tells one and its members mean no day. -/
def Reading.moved (r : Reading) (m : Members.Meaning) (moment : Moment) : Moment :=
  match r.weekday, m.day with
  | some weekday, none => moment.onWeekday weekday
  | _, _ => moment

/-- The zone of a reading is not too far from universal time. -/
def Reading.NearZone (r : Reading) : Prop :=
  -(offsetDayLimit : Int) ≤ ((zoneOffset r).getD 0) / DateTime.daySeconds ∧
    ((zoneOffset r).getD 0) / DateTime.daySeconds ≤ offsetDayLimit

section Build

theorem of?_eq_some {moment : Moment} {offset : Option Int} {d : DateTime}
    (h : DateTime.of? moment offset = some d) : d.moment = moment ∧ d.offset = offset := by
  unfold DateTime.of? at h
  split at h
  · cases h
    exact ⟨rfl, rfl⟩
  · cases h

/-- A day more changes the year by one at most. -/
theorem year_nextDay (m : Moment) : m.year ≤ m.nextDay.year ∧ m.nextDay.year ≤ m.year + 1 := by
  unfold Moment.nextDay
  split
  · exact ⟨Nat.le_refl _, Nat.le_succ _⟩
  split
  · exact ⟨Nat.le_refl _, Nat.le_succ _⟩
  · exact ⟨Nat.le_succ _, Nat.le_refl _⟩

theorem year_addDays (m : Moment) (days : Nat) :
    m.year ≤ (m.addDays days).year ∧ (m.addDays days).year ≤ m.year + days := by
  induction days generalizing m with
  | zero => exact ⟨Nat.le_refl _, Nat.le_refl _⟩
  | succ days ih =>
      have hday := year_nextDay m
      have hmore := ih m.nextDay
      rw [Moment.addDays]
      omega

theorem year_onWeekday {m : Moment} {year : Nat} (h : m.year = year) (weekday : Nat) :
    year ≤ (m.onWeekday weekday).year ∧ (m.onWeekday weekday).year < year + 7 := by
  have hdays : (weekday + 7 - Calendar.weekday m.year m.month m.day) % 7 < 7 :=
    Nat.mod_lt _ (by omega)
  have hyear := year_addDays m ((weekday + 7 - Calendar.weekday m.year m.month m.day) % 7)
  rw [Moment.onWeekday]
  omega

variable {currentYear : Nat} {reference d : DateTime} {r : Reading}

/-- A date is built of a reading whose members mean something, if its parts are those of a date and
its zone is near. -/
theorem build?_eq_some_iff :
    build? currentYear reference r = some d ↔ ∃ m, r.members.meaning? = some m ∧ r.tells m = true ∧
      (completed currentYear reference r m).Valid ∧ r.NearZone ∧
      DateTime.of? (r.moved m (completed currentYear reference r m)) (zoneOffset r) = some d := by
  rw [build?, Option.bind_eq_bind, Option.bind_eq_some_iff]
  refine exists_congr fun m => and_congr_right fun _ => ?_
  simp only [Option.bind_eq_bind, Option.bind_none, Option.ite_none_left_eq_some, not_not,
    Bool.not_eq_true', Bool.not_eq_false, Bool.or_eq_true, decide_eq_true_eq, not_or, Int.not_lt]
  rfl

/-- The date of a reading has the offset of its zone, and the year that the members mean; only a
weekday moves the date forward, by less than a week. -/
theorem build?_eq_some (h : build? currentYear reference r = some d) :
    d.offset = zoneOffset r ∧ ∃ m, r.members.meaning? = some m ∧
      1 ≤ yearOf currentYear reference r m ∧
      yearOf currentYear reference r m ≤ d.moment.year ∧
      d.moment.year < yearOf currentYear reference r m + 7 := by
  obtain ⟨m, hm, -, hvalid, -, hof⟩ := build?_eq_some_iff.mp h
  obtain ⟨hmoment, hoffset⟩ := of?_eq_some hof
  refine ⟨hoffset, m, hm, hvalid.1.1, ?_⟩
  rw [hmoment, Reading.moved]
  split
  · rename_i weekday _ _
    apply year_onWeekday
    rfl
  · exact ⟨Nat.le_refl _, Nat.lt_add_of_pos_right (by omega)⟩

/-- A text is read as a date if it is not blank and has a reading of which the date is built. -/
theorem parseIn_eq_ok_iff {s : String} :
    parseIn currentYear reference s = .ok d ↔ Text.isBlankText s = false ∧
      ∃ r, Reading.ofTokens currentYear (tokens s.toList) = .ok r ∧
        build? currentYear reference r = some d := by
  unfold parseIn
  cases Text.isBlankText s with
  | true => simp
  | false =>
      cases Reading.ofTokens currentYear (tokens s.toList) with
      | error e => cases e <;> simp
      | ok r => cases hbuild : build? currentYear reference r <;> simp [hbuild]

end Build

end Formwork.DateText
