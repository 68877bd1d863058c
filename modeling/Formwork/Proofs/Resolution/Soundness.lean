import Formwork.Proofs.Description.Nesting
import Formwork.Proofs.Description.Numbers
import Formwork.Proofs.Resolution.Authored
import Formwork.Proofs.Resolution.Values

/-!
# Initial values fit the fields that give them

A verified default fits its own field. An input reads its initial value under its key, and there
stands what the last field gave: it fits that field, which is the own one of the input unless
another field gives a value under the same key.
-/

namespace Formwork

/-- The first number is less than the second, or has the same value. -/
def Number.AtMost (x y : Number) : Prop :=
  x.lt y = true ∨ x.same y = true

/-- Of two defined numbers, the one is at most the other or greater. -/
theorem Number.atMost_of_not_lt {x y : Number} (hx : x.place?.isSome = true)
    (hy : y.place?.isSome = true) (h : y.lt x = false) : x.AtMost y := by
  obtain ⟨p, hp⟩ := Option.isSome_iff_exists.mp hx
  obtain ⟨q, hq⟩ := Option.isSome_iff_exists.mp hy
  have hlt : q.lt p = false := by simpa [Number.lt, hp, hq] using h
  have htotal : p.lt q = true ∨ p = q := by
    cases p with
    | below => cases q <;> simp_all [Place.lt]
    | «at» m =>
        cases q with
        | «at» n =>
            have hle : m ≤ n := by simpa [Place.lt] using hlt
            rcases Int.lt_or_eq_of_le hle with hlt | rfl
            · exact .inl (by simpa [Place.lt] using hlt)
            · exact .inr rfl
        | _ => simp_all [Place.lt]
    | above => cases q <;> simp_all [Place.lt]
  rcases htotal with hless | rfl
  · exact .inl (by simpa [Number.lt, hp, hq] using hless)
  · exact .inr (by simp [Number.same, hp, hq])

/-- Any number that can be spelled is defined. -/
theorem Number.Spelled.isSome_place? {x : Number} (h : x.Spelled) : x.place?.isSome = true := by
  cases x with
  | int n => rfl
  | float x =>
      cases x with
      | undefined => exact absurd rfl h
      | infinity negative => cases negative <;> rfl
      | finite negative e f => rfl

namespace Field

variable [Host]

/-- The initial values that fit a field: dates for a date, numbers within its bounds for a number,
and for any other field the values that pass its check. -/
def Fits (v : InitialValue) : Field → Prop
  | .leaf _ (.date _ _) _ => ∃ d, v = .date d
  | .leaf _ (.number min max _) _ =>
    ∃ x, v = .json (.num x) ∧ (∀ m, min = some m → m.AtMost x) ∧ ∀ m, max = some m → x.AtMost m
  | f => ∃ j, v = .json j ∧ (f.check j).outcome = .ok none

/-- The default of a described field is accepted by the field. -/
theorem accepts_of_effectiveDefault {level : Nat} {n v : Json} {f : Field}
    (h : Description.Describes level n f) (hv : f.effectiveDefault = some v) : f.Accepts v := by
  have hdefault : ∀ w, f.default = some w → f.Accepts w :=
    fun w hw => accepts_of_takesDefault (h.takesDefault w hw)
  cases f with
  | leaf a l d =>
      cases l with
      | checkbox checked =>
          rcases Option.or_eq_some_iff.mp hv with hd | ⟨-, hchecked⟩
          · exact hdefault v hd
          · obtain ⟨b, -, rfl⟩ := Option.map_eq_some_iff.mp hchecked
            exact ⟨b, rfl⟩
      | _ => exact hdefault v hv
  | _ => exact hdefault v hv

/-- The default of a described number lies within its bounds. -/
theorem fits_number {level : Nat} {n v : Json} {a : Attributes} {min max step : Option Number}
    {d : Option Json} (h : Description.Describes level n (.leaf a (.number min max step) d))
    (hregular : (Field.leaf a (.number min max step) d).Regular Number.Spelled)
    (hv : d = some v) : (Field.leaf a (.number min max step) d).Fits (.json v) := by
  cases h with
  | @leaf _ ms _ _ bound attributes payload default =>
      obtain ⟨⟨x, rfl⟩, hmin, hmax⟩ := default v hv
      have hx : Number.Spelled x := Json.regular_num.mp (hregular.default _ hv)
      obtain ⟨hlower, hupper⟩ := hregular.bounds rfl
      refine ⟨x, rfl, fun m hm => ?_, fun m hm => ?_⟩
      · exact Number.atMost_of_not_lt (hlower m hm).isSome_place? hx.isSome_place?
          (hmin m hm x rfl)
      · exact Number.atMost_of_not_lt hx.isSome_place? (hupper m hm).isSome_place?
          (hmax x rfl m hm)

/-- What a described field gives fits it. -/
theorem fits_of_given? {reference : DateTime} {level : Nat} {n : Json} {f : Field}
    {v : InitialValue} (h : Description.Describes level n f)
    (hregular : f.Regular Number.Spelled) (hv : f.given? reference = some v) : f.Fits v := by
  have hother : f.dateDefault = none → ∃ j, f.effectiveDefault = some j ∧ v = .json j ∧
      (f.check j).outcome = .ok none := by
    intro hdate
    rw [given?_of_no_dateDefault hdate] at hv
    obtain ⟨j, hj, rfl⟩ := Option.map_eq_some_iff.mp hv
    exact ⟨j, hj, rfl, (check_eq_none_iff f j).mpr (accepts_of_effectiveDefault h hj)⟩
  cases f with
  | leaf a l d =>
      cases l with
      | date format showTime =>
          cases hd : d with
          | none => simp [given?, dateDefault, effectiveDefault, default, hd] at hv
          | some j =>
              have hdate : dateDefault (.leaf a (.date format showTime) d) = some j := hd
              rw [given?_of_dateDefault hdate] at hv
              obtain ⟨date, -, rfl⟩ := Option.map_eq_some_iff.mp hv
              exact ⟨date, rfl⟩
      | number min max step =>
          obtain ⟨j, hj, rfl, -⟩ := hother rfl
          exact fits_number h hregular hj
      | _ =>
          obtain ⟨j, -, hv, hcheck⟩ := hother rfl
          exact ⟨j, hv, hcheck⟩
  | _ =>
      obtain ⟨j, -, hv, hcheck⟩ := hother rfl
      exact ⟨j, hv, hcheck⟩

end Field

namespace Form

section

variable [Host]

/-- Without values of the caller, the initial value of every input is what the last field that
gives a value under its key gives, and fits that field. So it fits the field of the input itself
unless another field gives a value under the key. -/
theorem resolveSource_values_fit {options : Options} {source : Source} {r : Resolution}
    (h : (resolveSource options none source).outcome = .ok (.ok r)) {e : Descriptor}
    (he : e ∈ r.walk) {v : InitialValue} (hv : e.widget.initial = some v) :
    (∃ f, r.form.GivesLast options.dateReference e.widget.binding f ∧
      f.given? options.dateReference = some v ∧ f.Fits v) ∧
    ((∀ p ∈ r.form.fields.flatMap Field.bound, p.1 = e.widget.binding →
      (p.2.given? options.dateReference).isSome = true → p.2 = e.widget.field) →
        e.widget.field.Fits v) := by
  have hr : Resolves options none source r := resolves_of_resolveSource h
  have hgiven := hr.get?_of_initial he hv
  rw [hr.get?_values] at hgiven
  obtain ⟨f, hlast, hf⟩ := last?_given_eq_some_iff.mp hgiven
  obtain ⟨document, hload, hdocument⟩ := hr.document
  obtain ⟨g, hg, hbound⟩ := List.mem_flatMap.mp hlast.mem
  have hnested : f ∈ g.nested := Field.mem_nested_of_mem_bound hbound
  have hregular : f.Regular Number.Spelled :=
    hdocument.regular (Source.regular_load hload) g hg f hnested
  obtain ⟨level, n, hn⟩ := hdocument.describes hg hnested
  have hfits : f.Fits v := Field.fits_of_given? hn hregular hf
  refine ⟨⟨f, hlast, hf, hfits⟩, fun hown => ?_⟩
  have hself : f = e.widget.field := hown _ hlast.mem rfl (by rw [hf]; rfl)
  rwa [← hself]

/-- Fields of a resolution with the same authored form are the same. -/
theorem Resolves.eq_of_toJson_eq {options : Options} {initial : Overrides} {source : Source}
    {r : Resolution} (h : Resolves options initial source r) {f g f' g' : Field}
    (hf : f ∈ r.form.fields) (hg : g ∈ f.nested) (hf' : f' ∈ r.form.fields) (hg' : g' ∈ f'.nested)
    (hjson : g.toJson = g'.toJson) : g = g' := by
  have hself : ∀ f ∈ r.form.fields, ∀ g ∈ f.nested,
      (Field.verify none g.toJson).outcome = .ok g := by
    intro f hf g hg
    obtain ⟨document, -, ms, nodes, -, -, hall, -⟩ := h.document
    obtain ⟨n, -, hdescribes, hcopyable⟩ := exists_left_of_mem hall f hf
    obtain ⟨p, -, hdescribed, hc⟩ := exists_left_of_mem (hdescribes.nested hcopyable) g hg
    exact Field.verify_eq_ok_iff.mpr ⟨hdescribed.authored, hc⟩
  have hsame := hself f hf g hg
  rw [hjson, hself f' hf' g' hg'] at hsame
  exact (Except.ok.inj hsame).symm

end

/-- A document with a number between bounds, a date, and a text in an object. -/
def staySource : Source :=
  .text ("\x7b\"fields\":[\x7b\"name\":\"n\",\"type\":\"number\",\"min\":1,\"max\":9,"
    ++ "\"defaultValue\":4\x7d,\x7b\"name\":\"d\",\"type\":\"date\","
    ++ "\"defaultValue\":\"6 May 2024\"\x7d,"
    ++ "\x7b\"name\":\"o\",\"type\":\"object\",\"properties\":\x7b\"t\":"
    ++ "\x7b\"name\":\"t\",\"type\":\"string\",\"defaultValue\":\"s\"\x7d\x7d\x7d]\x7d")

attribute [local instance] Host.standard in
/-- The values of the number, of the date and of the text fit them. -/
theorem resolveSource_values_fit_stay :
    ∃ r, (resolveSource .standard none staySource).outcome = .ok (.ok r) ∧
      ∀ path ∈ ["n", "d", "o.t"], ∃ e v, r.find? path = some e ∧
        e.widget.initial = some v ∧ e.widget.field.Fits v := by
  have hfound : ((resolution? .standard none staySource).map fun r =>
      ["n", "d", "o.t"].all fun path => (r.find? path).any fun e =>
        e.widget.initial.isSome && (r.form.fields.flatMap Field.bound).all fun p =>
          p.1 != e.widget.binding || p.2.toJson == e.widget.field.toJson) = some true := by
    decide +kernel
  obtain ⟨r, hr, hfound⟩ := Option.map_eq_some_iff.mp hfound
  have hresolved := resolution?_eq_some_iff.mp hr
  have hresolves : Resolves .standard none staySource r := resolves_of_resolveSource hresolved
  refine ⟨r, hresolved, fun path hpath => ?_⟩
  obtain ⟨e, hfind, he⟩ := (Option.any_eq_true ..).mp (List.all_eq_true.mp hfound path hpath)
  obtain ⟨hinitial, hbound⟩ := Bool.and_eq_true_iff.mp he
  obtain ⟨v, hv⟩ := Option.isSome_iff_exists.mp hinitial
  have hwalk : e ∈ r.walk := List.mem_of_find?_eq_some hfind
  refine ⟨e, v, hfind, hv, (resolveSource_values_fit hresolved hwalk hv).2 fun p hp hkey _ => ?_⟩
  obtain ⟨f, hf, hpf⟩ := List.mem_flatMap.mp hp
  obtain ⟨g, hg, q, hq, _, hwidget⟩ := hresolves.widgetAt hwalk
  have hfield : e.widget.field = q := by rw [hwidget]; rfl
  have hjson : p.2.toJson = q.toJson := by
    have hsame := List.all_eq_true.mp hbound p hp
    rw [hkey, hfield] at hsame
    simpa using hsame
  rw [hfield]
  exact hresolves.eq_of_toJson_eq hf (Field.mem_nested_of_mem_bound hpf) hg hq hjson

/-- A document with a number and, under the same key, a text in an object. -/
def sharedKeySource : Source :=
  .text ("\x7b\"fields\": [\x7b\"name\": \"x\", \"type\": \"number\", "
    ++ "\"defaultValue\": 5\x7d, "
    ++ "\x7b\"name\": \"o\", \"type\": \"object\", \"properties\": \x7b\"x\": "
    ++ "\x7b\"name\": \"x\", \"type\": \"string\", \"defaultValue\": \"s\"\x7d\x7d\x7d]\x7d")

attribute [local instance] Host.standard in
/-- The number has the text for its initial value, which does not fit it. -/
theorem sharedKey_not_fits :
    ∃ r e v, (resolveSource .standard none sharedKeySource).outcome = .ok (.ok r) ∧ e ∈ r.walk ∧
      e.widget.initial = some v ∧ ¬ e.widget.field.Fits v := by
  have hfound : ((resolution? .standard none sharedKeySource).bind fun r =>
      (r.find? "x").map fun e => (e.widget.field.type, e.widget.initial)) =
        some (.number, some (.json (.str "s"))) := by
    decide +kernel
  obtain ⟨r, hr, hfound⟩ := Option.bind_eq_some_iff.mp hfound
  obtain ⟨e, hfind, hwidget⟩ := Option.map_eq_some_iff.mp hfound
  obtain ⟨htype, hv⟩ := Prod.mk.inj hwidget
  refine ⟨r, e, _, resolution?_eq_some_iff.mp hr, List.mem_of_find?_eq_some hfind, hv, ?_⟩
  cases hfield : e.widget.field with
  | leaf a l d =>
      rw [hfield] at htype
      cases l with
      | number min max step =>
          rintro ⟨x, hx, -⟩
          cases hx
      | _ => cases htype
  | _ =>
      rw [hfield] at htype
      cases htype

end Form

end Formwork
