import Formwork.Proofs.Description.Years
import Formwork.Proofs.Resolution.Dates
import Formwork.Proofs.Resolution.Written

/-!
# Resolution in different years

The year of the host is all that a verification or a resolution takes from a clock. In two years in
which the dates in the defaults of a document are read alike, its source has the same verdict and
the same initial values; other texts do not count. A date that spells a year of two digits makes a
difference.

## Main results

* `resolveSource_in_all_years`: which texts are read alike, and what follows for a source.
-/

namespace Formwork

namespace Form

/-- A date among the values that a form is resolved with is read from the default of a field that
binds its key. -/
theorem exists_bound_of_get?_eq_date [Host] {options : Options} {initial : Overrides} {form : Form}
    {r : Resolution} (hr : (form.resolveWith options (initial.map .obj)).outcome = .ok r)
    {key : String} {d : DateTime} (hd : Entries.get? r.values key = some (.date d)) :
    ∃ f s, (key, f) ∈ form.fields.flatMap Field.bound ∧ f.dateDefault = some (.str s) ∧
      DateText.parseIn Host.year options.dateReference s = .ok d := by
  obtain ⟨-, -, hvalues, -⟩ := eq_of_resolveWith hr
  rw [hvalues, Entries.get?_merge, Entries.get?_merge, Entries.last?_mapValues] at hd
  cases hcaller : Entries.last? (initial.getD []) key with
  | some j => simp [hcaller] at hd
  | none =>
      have hlast : Entries.last? (form.given options.dateReference) key = some (.date d) := by
        simpa [hcaller] using hd
      obtain ⟨f, hgives, hf⟩ := last?_given_eq_some_iff.mp hlast
      obtain ⟨v, hv, hparse⟩ := Field.given?_eq_date_iff.mp hf
      cases v with
      | str s => exact ⟨f, s, hgives.mem, hv, hparse⟩
      | _ => cases hparse

end Form

section Years

open DateText

variable [host : Host] {y y' : Nat}

namespace Field

theorem initialValue_inYear {reference : DateTime} {key : String} {f : Field}
    (h : ∀ s, f.dateDefault = some (.str s) → parseIn y reference s = parseIn y' reference s) :
    @initialValue (host.inYear y) reference key f =
      @initialValue (host.inYear y') reference key f := by
  cases hv : f.dateDefault with
  | none =>
      have hvalue := @initialValue_of_no_dateDefault (host.inYear y) reference key f hv
      have hvalue' := @initialValue_of_no_dateDefault (host.inYear y') reference key f hv
      exact hvalue.trans hvalue'.symm
  | some v =>
      have hdate : ∀ s, v = .str s → parseIn y reference s = parseIn y' reference s := by
        rintro s rfl
        exact h s hv
      obtain ⟨a, format, showTime, rfl⟩ := exists_of_dateDefault hv
      unfold initialValue
      simp only [effectiveDefault, default, tryDate_inYear hdate]

end Field

namespace Form

variable {reference : DateTime} {options : Options} {initial : Option Json} {source : Source}
  {form : Form}

theorem setDefaults_inYear {values : InitialValues} {bindings : List (String × Field)}
    (h : ∀ p ∈ bindings, ∀ s, p.2.dateDefault = some (.str s) →
      parseIn y reference s = parseIn y' reference s) :
    @setDefaults (host.inYear y) reference values bindings =
      @setDefaults (host.inYear y') reference values bindings := by
  induction bindings generalizing values with
  | nil => rfl
  | cons p rest ih =>
      rw [List.forall_mem_cons] at h
      simp only [setDefaults, Field.initialValue_inYear h.1, ih h.2]

/-- A form is resolved alike if the defaults of the dates that it binds are read alike. -/
theorem resolveWith_inYear
    (h : ∀ p ∈ form.fields.flatMap Field.bound, ∀ s, p.2.dateDefault = some (.str s) →
      parseIn y options.dateReference s = parseIn y' options.dateReference s) :
    @resolveWith (host.inYear y) options initial form =
      @resolveWith (host.inYear y') options initial form := by
  have hdefaults : @defaults (host.inYear y) options.dateReference form =
      @defaults (host.inYear y') options.dateReference form := by
    simp only [defaults, setDefaults_inYear h]
  simp only [resolveWith, resolve, hdefaults]
  rfl

/-- The default of a date of a form is one of the dates in the document that describes the form. -/
theorem mem_dateTexts_of_documentOf {document : Json}
    (h : Description.DocumentOf document form) {f g : Field} (hf : f ∈ form.fields)
    (hg : g ∈ f.nested) {s : String} (hs : g.dateDefault = some (.str s)) :
    s ∈ dateTexts document := by
  obtain ⟨ms, nodes, rfl, hnodes, hall, -⟩ := h
  obtain ⟨n, hn, hdescribes, hc⟩ := exists_left_of_mem hall f hf
  obtain ⟨⟨route, m⟩, hm, hdescribed, -⟩ := exists_left_of_mem (hdescribes.nested hc) g hg
  have hdefault : m.member? "defaultValue" = some (.str s) :=
    hdescribed.member?_default.trans (Field.default_of_dateDefault hs)
  obtain ⟨a, format, showTime, rfl⟩ := Field.exists_of_dateDefault hs
  obtain ⟨ms', rfl, htype⟩ := hdescribed.typeOf
  have hmem : s ∈ Description.dateTexts n := by
    refine Description.mem_dateTexts_iff.mpr ⟨_, hm, _, hdefault, ?_⟩
    rw [Description.datesIn_date htype]
    exact List.mem_singleton_self s
  simp only [dateTexts, Json.member?, hnodes]
  exact List.mem_flatMap.mpr ⟨n, hn, hmem⟩

/-- A source is resolved alike if the dates in the defaults of its document are read alike, both from
the first day of 1970 and from the reference of the options. -/
theorem resolveSource_inYear
    (h : ∀ document, source.load = .ok document → ReadAlike y y' .epoch (dateTexts document) ∧
      ReadAlike y y' options.dateReference (dateTexts document)) :
    @resolveSource (host.inYear y) options initial source =
      @resolveSource (host.inYear y') options initial source := by
  have hverify : @verify (host.inYear y) source = @verify (host.inYear y') source :=
    verify_inYear fun document hdocument => (h document hdocument).1
  simp only [resolveSource, hverify]
  refine Audit.bind_congr_of_ok fun verdict hverdict => ?_
  cases verdict with
  | error f => rfl
  | ok form =>
      rw [Audit.outcome_mapError, mapError_eq_ok_iff] at hverdict
      obtain ⟨document, hload, hdocument⟩ :=
        (@verify_eq_ok_iff (host.inYear y') source form).mp hverdict
      have hresolve : @resolveWith (host.inYear y) options initial form =
          @resolveWith (host.inYear y') options initial form := by
        refine resolveWith_inYear fun p hp s hs => ?_
        obtain ⟨f, hf, hbound⟩ := List.mem_flatMap.mp hp
        have hmem : s ∈ dateTexts document :=
          @mem_dateTexts_of_documentOf (host.inYear y') _ _ hdocument _ _ hf
            (Field.mem_nested_of_mem_bound hbound) _ hs
        exact (h document hload).2 s hmem
      simp only [hresolve]

end Form

end Years

namespace Form

open DateText

/-- A text is read alike in all years exactly if no reading of it as a date spells a year of two
digits and it breaks the reading off in all years or in none; so it is if it spells no such year.
In two years in which the dates in the defaults of its document are read alike, a source has the
same verdict and the same resolution. A date among the initial values is read from a text, and if
this spells a year of two digits, the form has another value there a century later, as far as no
other field binds the key. -/
theorem resolveSource_in_all_years (host : Host) (options : Options) (initial : Overrides)
    (source : Source) :
    (∀ reference s,
      ((∀ y y', parseIn y reference s = parseIn y' reference s) ↔
        (∀ y d, parseIn y reference s = .ok d → ¬ SpellsShortYear y s) ∧
          ∀ y y', parseIn y reference s = .error .imprecise →
            parseIn y' reference s = .error .imprecise) ∧
      ∀ y, ¬ SpellsShortYear y s → ∀ y', parseIn y reference s = parseIn y' reference s) ∧
    (∀ y y', (∀ document, source.load = .ok document →
        ReadAlike y y' .epoch (dateTexts document) ∧
          ReadAlike y y' options.dateReference (dateTexts document)) →
      @verify (host.inYear y) source = @verify (host.inYear y') source ∧
        @resolveSource (host.inYear y) options (initial.map .obj) source =
          @resolveSource (host.inYear y') options (initial.map .obj) source) ∧
    ∀ form y r, (@resolveWith (host.inYear y) options (initial.map .obj) form).outcome = .ok r →
      ∀ key d, Entries.get? r.values key = some (.date d) →
        ∃ f s, (key, f) ∈ form.fields.flatMap Field.bound ∧ f.dateDefault = some (.str s) ∧
          parseIn y options.dateReference s = .ok d ∧
          (SpellsShortYear y s →
            (∀ p ∈ form.fields.flatMap Field.bound, p.1 = key → p.2 = f) →
            ∀ r', (@resolveWith (host.inYear (y + 100)) options (initial.map .obj) form).outcome =
                .ok r' →
              Entries.get? r'.values key ≠ some (.date d)) := by
  refine ⟨fun reference s => ⟨parseIn_eq_in_all_years_iff, ?_⟩, fun y y' halike => ⟨?_, ?_⟩,
    fun form y r hr key d hd => ?_⟩
  · exact fun y hlong y' => parseIn_of_not_spellsShortYear hlong y'
  · exact verify_inYear fun document hdocument => (halike document hdocument).1
  · exact resolveSource_inYear halike
  · obtain ⟨f, s, hf, hs, hparse⟩ :=
      @exists_bound_of_get?_eq_date (host.inYear y) _ _ _ _ hr _ _ hd
    refine ⟨f, s, hf, hs, hparse, fun hshort honly r' hr' hd' => ?_⟩
    obtain ⟨g, t, hg, ht, hparse'⟩ :=
      @exists_bound_of_get?_eq_date (host.inYear (y + 100)) _ _ _ _ hr' _ _ hd'
    obtain rfl : g = f := honly _ hg rfl
    rw [hs] at ht
    cases ht
    exact parseIn_century_ne hparse hshort hparse'

/-- A date under a key of an object. -/
def dayField (date : String) : Field :=
  .leaf (.named "day") (.date none none) (some (.str date))

/-- A note that is no date but could be read as one. -/
def noteField : Field :=
  .leaf (.named "note") (.string ⟨none, none⟩) (some (.str "1/1/70"))

/-- A form with a date in an object, and a note. -/
def visitForm (date : String) : Form :=
  ⟨[.object (.named "visit") [("day", dayField date)] none, noteField], none⟩

theorem load_visitForm (date : String) :
    (visitForm date).source.load = .ok (visitForm date).toJson := by
  refine (Source.load_render_iff (Nat.le_of_ble_eq_true rfl)).mpr ?_
  simp [visitForm, dayField, noteField, Field.toJson, Field.propertiesToJson, Attributes.named,
    Attributes.members, Leaf.members, Bounds.members, memberOf, FieldType.name, Entries.keys]

theorem dateTexts_visitForm (date : String) :
    dateTexts (visitForm date).toJson = [date] := by
  have hday : Description.dateTexts (dayField date).toJson = [date] := by
    rw [Description.dateTexts_eq_append]
    rfl
  have hnote : Description.dateTexts noteField.toJson = [] := by
    rw [Description.dateTexts_eq_append]
    rfl
  have hvisit : Description.dateTexts
      (Field.object (.named "visit") [("day", dayField date)] none).toJson = [date] := by
    rw [Description.dateTexts_eq_append, ← hday]
    exact (List.nil_append _).trans (List.append_nil _)
  have hnodes : dateTexts (visitForm date).toJson =
      (visitForm date).fields.flatMap fun f => Description.dateTexts f.toJson :=
    List.flatMap_map ..
  rw [hnodes, visitForm, List.flatMap_cons, List.flatMap_cons, hvisit, hnote]
  rfl

/-- The values of a caller who fills in the note. -/
def noted : Overrides :=
  some [("note", .str "by hand")]

/-- With a year of four digits the form is verified and resolved alike in two years, since the note is
not read as a date. With a year of two digits it has another date a century later. -/
theorem resolveSource_centuryApart :
    (@verify (Host.standard.inYear 2019) (visitForm "2024-05-06").source =
        @verify (Host.standard.inYear 2119) (visitForm "2024-05-06").source ∧
      @resolveSource (Host.standard.inYear 2019) .standard (noted.map .obj)
          (visitForm "2024-05-06").source =
        @resolveSource (Host.standard.inYear 2119) .standard (noted.map .obj)
          (visitForm "2024-05-06").source) ∧
    SpellsShortYear 2019 "1/1/70" ∧
    ∃ r d, (@resolveWith (Host.standard.inYear 2019) .standard (noted.map .obj)
        (visitForm "1/1/70")).outcome = .ok r ∧
      Entries.get? r.values "day" = some (.date d) ∧
      ∀ r', (@resolveWith (Host.standard.inYear 2119) .standard (noted.map .obj)
          (visitForm "1/1/70")).outcome = .ok r' →
        Entries.get? r'.values "day" ≠ some (.date d) := by
  obtain ⟨htexts, halike, hchanged⟩ :=
    resolveSource_in_all_years .standard .standard noted (visitForm "2024-05-06").source
  have hspells : SpellsShortYear 2019 "1/1/70" := by
    by_contra hlong
    have hsame := (htexts .epoch "1/1/70").2 2019 hlong 2119
    have hne : parseIn 2019 .epoch "1/1/70" ≠ parseIn 2119 .epoch "1/1/70" := by decide +kernel
    exact hne hsame
  refine ⟨halike 2019 2119 fun document hdocument => ?_, hspells, ?_⟩
  · rw [load_visitForm] at hdocument
    cases hdocument
    rw [dateTexts_visitForm]
    constructor <;> rw [ReadAlike, List.forall_mem_singleton] <;> decide +kernel
  · have hvalue : ((@resolveWith (Host.standard.inYear 2019) .standard (noted.map .obj)
        (visitForm "1/1/70")).outcome.toOption.bind fun r => Entries.get? r.values "day") =
          (parseIn 2019 .epoch "1/1/70").toOption.map .date := by
      decide +kernel
    have hdate : (parseIn 2019 .epoch "1/1/70").toOption.isSome = true := by decide +kernel
    obtain ⟨d, hd⟩ := Option.isSome_iff_exists.mp hdate
    rw [hd, Option.map_some, Option.bind_eq_some_iff] at hvalue
    obtain ⟨r, hr, hvalue⟩ := hvalue
    have hresolved := toOption_eq_some_iff.mp hr
    obtain ⟨f, s, hf, hs, -, hcentury⟩ := hchanged _ 2019 r hresolved "day" d hvalue
    have hbound : (visitForm "1/1/70").fields.flatMap Field.bound =
        [("day", dayField "1/1/70"), ("note", noteField)] := rfl
    rw [hbound] at hf hcentury
    obtain rfl : f = dayField "1/1/70" := by simpa using hf
    cases hs
    exact ⟨r, d, hresolved, hvalue, hcentury hspells (by simp)⟩

/-- A year of two digits is read as a year of the last century up to 2019, and as one of this
century from 2021 on. So a leap day that is verified in one year is refused in another. -/
theorem parseIn_shortYear_ne :
    ((parseIn 2019 .epoch "1/1/70").toOption.bind DateTime.iso?) = some "1970-01-01T00:00:00" ∧
      ((parseIn 2021 .epoch "1/1/70").toOption.bind DateTime.iso?) =
        some "2070-01-01T00:00:00" ∧
      (@verifyParts (Host.standard.inYear 2024) (visitForm "2/29/00").toJson).outcome.isOk = true ∧
      (@verifyParts (Host.standard.inYear 2051) (visitForm "2/29/00").toJson).outcome.isOk =
        false := by
  decide +kernel

end Form

end Formwork
