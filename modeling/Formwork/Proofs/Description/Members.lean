import Formwork.Proofs.Description.Basic

/-!
# Reading members

Each check of members succeeds with exactly what the grammar says that the members
describe: first the forms of single values, then members that may be absent, and from
these the frame, the shared attributes and bounds.
-/

namespace Formwork

/-- A number has the value of an integer exactly if it stands at its place. -/
theorem Number.toInt?_eq_some_iff (x : Number) (n : Int) :
    x.toInt? = some n ↔ x.place? = some (.at (n * Binary64.unitsPerOne)) := by
  have hu := Binary64.unitsPerOne_pos
  generalize hunit : Binary64.unitsPerOne = unit at hu
  have hne : (unit : Int) ≠ 0 := by omega
  cases x with
  | int m =>
      simp only [toInt?, place?, hunit, Option.some.injEq, Place.at.injEq,
        Int.mul_eq_mul_right_iff hne]
  | float b =>
      cases b with
      | undefined => simp [toInt?, place?]
      | infinity negative => cases negative <;> simp [toInt?, place?]
      | finite negative e f =>
          simp only [toInt?, place?, hunit, Option.some.injEq, Place.at.injEq]
          generalize Binary64.units e f = size
          by_cases hd : unit ∣ size
          · obtain ⟨k, rfl⟩ := hd
            have hcomm : ((unit * k : Nat) : Int) = (k : Int) * unit := by
              rw [Int.natCast_mul, Int.mul_comm]
            rw [if_pos (Nat.mul_mod_right unit k), Nat.mul_div_cancel_left k hu, hcomm]
            cases negative with
            | false =>
                simp only [Bool.false_eq_true, if_false, Option.some.injEq,
                  Int.mul_eq_mul_right_iff hne]
            | true =>
                rw [if_pos rfl, if_pos rfl, ← Int.neg_mul, Int.mul_eq_mul_right_iff hne,
                  Option.some.injEq]
          · rw [if_neg (fun h => hd (Nat.dvd_of_mod_eq_zero h))]
            refine iff_of_false (by simp) fun h => hd ?_
            have hi : (unit : Int) ∣ (size : Int) := by
              cases negative with
              | false => exact ⟨n, by rw [Int.mul_comm, ← h, if_neg (by decide)]⟩
              | true => exact ⟨-n, by rw [Int.mul_neg, Int.mul_comm, ← h, if_pos rfl, Int.neg_neg]⟩
            exact Int.natCast_dvd_natCast.mp hi

namespace Checked

open Description

theorem text?_eq_some_iff (v : Json) (s : String) : text? v = some s ↔ Text v s := by
  cases v <;> simp [text?, Text]

theorem bool?_eq_some_iff (v : Json) (b : Bool) : bool? v = some b ↔ Truth v b := by
  cases v <;> simp [bool?, Truth]

theorem number?_eq_some_iff (v : Json) (x : Number) : number? v = some x ↔ Numeric v x := by
  cases v <;> simp [number?, Numeric]

theorem natural?_eq_some_iff (v : Json) (n : Nat) : natural? v = some n ↔ Whole v n := by
  have hint : natural? v = some n ↔ integer? v = some (n : Int) := by
    unfold natural?
    cases integer? v with
    | none => simp
    | some i =>
        cases i with
        | ofNat k =>
            change some k = some n ↔ some (k : Int) = some (n : Int)
            rw [Option.some.injEq, Option.some.injEq, Int.ofNat_inj]
        | negSucc k => simp
  rw [hint]
  cases v with
  | num x =>
      rw [integer?, Number.toInt?_eq_some_iff]
      constructor
      · intro h
        exact ⟨x, rfl, h⟩
      · intro h
        obtain ⟨_, hx, h⟩ := h
        cases hx
        exact h
  | _ =>
      refine iff_of_false (by simp [integer?]) ?_
      intro h
      obtain ⟨x, hx, -⟩ := h
      cases hx

/-- A whole number that must lie in a range is read with the proof that it does. -/
theorem natural?_range {range : Nat → Prop} [DecidablePred range] (v : Json)
    (n : { n // range n }) :
    ((natural? v).bind fun k => if h : range k then some ⟨k, h⟩ else none) = some n ↔
      WholeIn v n := by
  rw [WholeIn, ← natural?_eq_some_iff]
  cases natural? v with
  | none => simp
  | some k =>
      by_cases hk : range k
      · simp [hk, Subtype.ext_iff]
      · have hne : k ≠ n.val := fun h => hk (h ▸ n.property)
        simp [hk, hne]

theorem positive?_eq_some_iff (v : Json) (n : Positive) : positive? v = some n ↔ WholeIn v n :=
  natural?_range v n

theorem span?_eq_some_iff (v : Json) (n : Span) : span? v = some n ↔ WholeIn v n :=
  natural?_range v n

theorem positiveNumber?_eq_some_iff (v : Json) (x : Number) :
    positiveNumber? v = some x ↔ Size v x := by
  cases v with
  | num y =>
      by_cases hy : (Number.int 0).lt y = true
      · simp only [positiveNumber?, number?, Size, Option.bind_eq_bind, Option.bind_some, hy]
        constructor
        · rintro h
          cases h
          exact ⟨rfl, hy⟩
        · intro h
          obtain ⟨h, -⟩ := h
          cases h
          rfl
      · simp only [positiveNumber?, number?, Size, Option.bind_eq_bind, Option.bind_some, hy]
        apply iff_of_false (by simp)
        intro h
        obtain ⟨h, hx⟩ := h
        cases h
        exact hy hx
  | _ => simp [positiveNumber?, number?, Size]

theorem cardSize?_eq_some_iff (v : Json) (c : CardSize) :
    cardSize? v = some c ↔ Named CardSize.name v c := by
  unfold Named
  cases v with
  | str s => cases c <;> simp only [cardSize?, CardSize.name] <;> split <;> simp_all
  | _ => simp [cardSize?]

theorem mode?_eq_some_iff (v : Json) (m : SelectMode) :
    mode? v = some m ↔ Named SelectMode.name v m := by
  unfold Named
  cases v with
  | str s => cases m <;> simp only [mode?, SelectMode.name] <;> split <;> simp_all
  | _ => simp [mode?]

theorem listStyle?_eq_some_iff (v : Json) (s : FileListStyle) :
    listStyle? v = some s ↔ Named FileListStyle.name v s := by
  unfold Named
  cases v with
  | str t =>
      cases s <;> simp only [listStyle?, FileListStyle.name] <;> repeat' split
      all_goals simp_all
  | _ => simp [listStyle?]

theorem objects?_eq_some_iff (v : Json) (objects : List Members) :
    objects? v = some objects ↔ Objects v objects := by
  unfold Objects
  cases v with
  | arr vs =>
      apply mapM_eq_some_iff.trans
      rw [Json.arr.injEq, ← List.forall₂_eq_eq_eq, List.forall₂_map_right_iff]
      constructor
      · refine List.Forall₂.imp fun w ms h => ?_
        cases w <;> simp_all
      · refine List.Forall₂.imp fun w ms h => ?_
        subst h
        rfl
  | _ => simp [objects?]

theorem given_eq_none_iff {ms : Members} {key : String} :
    given ms key = none ↔ ∀ v, Entries.get? ms key = some v → v = .null := by
  unfold given
  split
  · rename_i h
    simp [h]
  · rename_i h
    cases hv : Entries.get? ms key <;> simp_all

theorem given_eq_some_iff {ms : Members} {key : String} {v : Json} :
    given ms key = some v ↔ Entries.get? ms key = some v ∧ v ≠ .null := by
  unfold given
  split
  · rename_i h
    simp only [h, reduceCtorEq, Option.some.injEq, false_iff, not_and, not_not]
    exact Eq.symm
  · rename_i h
    refine ⟨fun hv => ⟨hv, ?_⟩, And.left⟩
    rintro rfl
    exact h hv

/-- A member that may be absent or null is read as the grammar says, whatever error stands for a
value of the wrong form. -/
theorem match_given_eq_ok_iff {ε α : Type} {form : Json → Option α} {relation : Json → α → Prop}
    (hform : ∀ v a, form v = some a ↔ relation v a) (hnull : ∀ a, ¬ relation .null a)
    {ms : Members} {key : String} {e : ε} {a : Option α} :
    (match given ms key with
      | none => .ok none
      | some v =>
        match form v with
        | some a => .ok (some a)
        | none => .error e : Except ε (Option α)) = .ok a ↔ Says relation ms key a := by
  cases hg : given ms key with
  | none =>
      have hall := given_eq_none_iff.mp hg
      cases a with
      | none => simpa [Says] using hall
      | some a =>
          apply iff_of_false (by simp)
          intro h
          obtain ⟨v, hv, hr⟩ := h
          exact hnull a (hall v hv ▸ hr)
  | some v =>
      obtain ⟨hv, hne⟩ := given_eq_some_iff.mp hg
      dsimp only
      cases a with
      | none => cases form v <;> simp [Says, hv, hne]
      | some a =>
          simp only [Says, hv, Option.some.injEq, exists_eq_left', ← hform]
          cases form v <;> simp

theorem optional_eq_ok_iff {α : Type} {form : Json → Option α} {relation : Json → α → Prop}
    (hform : ∀ v a, form v = some a ↔ relation v a) (hnull : ∀ a, ¬ relation .null a)
    {ms : Members} {key : String} {flaw : Flaw} {a : Option α} :
    optional ms key form flaw = .ok a ↔ Says relation ms key a :=
  match_given_eq_ok_iff hform hnull

theorem optional_text {ms : Members} {key : String} {flaw : Flaw} {a : Option String} :
    optional ms key text? flaw = .ok a ↔ Says Text ms key a :=
  optional_eq_ok_iff text?_eq_some_iff fun _ h => by cases h

theorem optional_bool {ms : Members} {key : String} {flaw : Flaw} {a : Option Bool} :
    optional ms key bool? flaw = .ok a ↔ Says Truth ms key a :=
  optional_eq_ok_iff bool?_eq_some_iff fun _ h => by cases h

theorem optional_number {ms : Members} {key : String} {flaw : Flaw} {a : Option Number} :
    optional ms key number? flaw = .ok a ↔ Says Numeric ms key a :=
  optional_eq_ok_iff number?_eq_some_iff fun _ h => by cases h

theorem not_whole_null (n : Nat) : ¬ Whole .null n := by
  intro h
  obtain ⟨x, h, -⟩ := h
  cases h

theorem optional_natural {ms : Members} {key : String} {flaw : Flaw} {a : Option Nat} :
    optional ms key natural? flaw = .ok a ↔ Says Whole ms key a :=
  optional_eq_ok_iff natural?_eq_some_iff not_whole_null

theorem optional_positive {ms : Members} {key : String} {flaw : Flaw} {a : Option Positive} :
    optional ms key positive? flaw = .ok a ↔ Says WholeIn ms key a :=
  optional_eq_ok_iff positive?_eq_some_iff fun n => not_whole_null n.val

theorem optional_span {ms : Members} {key : String} {flaw : Flaw} {a : Option Span} :
    optional ms key span? flaw = .ok a ↔ Says WholeIn ms key a :=
  optional_eq_ok_iff span?_eq_some_iff fun n => not_whole_null n.val

theorem optional_size {ms : Members} {key : String} {flaw : Flaw} {a : Option Number} :
    optional ms key positiveNumber? flaw = .ok a ↔ Says Size ms key a :=
  optional_eq_ok_iff positiveNumber?_eq_some_iff fun _ h => by cases h.1

theorem optional_objects {ms : Members} {key : String} {flaw : Flaw} {a : Option (List Members)} :
    optional ms key objects? flaw = .ok a ↔ Says Objects ms key a :=
  optional_eq_ok_iff objects?_eq_some_iff fun _ h => by cases h

theorem optional_named {α : Type} {form : Json → Option α} {name : α → String}
    (hform : ∀ v a, form v = some a ↔ Named name v a) {ms : Members} {key : String} {flaw : Flaw}
    {a : Option α} : optional ms key form flaw = .ok a ↔ Says (Named name) ms key a :=
  optional_eq_ok_iff hform fun _ h => by cases h

/-- A frame is read from an object of its members. -/
theorem card_eq_ok_iff {v : Json} {c : Card} :
    card v = .ok c ↔ ∃ ms, v = .obj ms ∧ CardOf ms c := by
  cases v with
  | obj ms =>
      simp only [card, bind_eq_ok_iff, except_pure_eq_ok_iff, optional_text, optional_bool,
        optional_named cardSize?_eq_some_iff, Json.obj.injEq, exists_eq_left']
      constructor
      · intro h
        obtain ⟨title, ht, description, hd, extra, he, bordered, hb, size, hs, rfl⟩ := h
        exact ⟨ht, hd, hb, hs, he⟩
      · intro h
        exact ⟨_, h.title, _, h.description, _, h.extra, _, h.bordered, _, h.size, rfl⟩
  | _ => simp [card]

/-- The shared attributes are read from members that describe them, under the given name. -/
theorem attributes_eq_ok_iff {ms : Members} {name : String} {a : Attributes} :
    attributes ms name = .ok a ↔ a.name = name ∧ SharedOf ms a := by
  simp only [attributes, bind_eq_ok_iff, optional_text, optional_bool, optional_span,
    optional_objects]
  constructor
  · intro h
    obtain ⟨required, hr, label, hl, placeholder, hp, newline, hn, span, hs, rules, hu, h⟩ := h
    cases hv : Entries.get? ms "card" with
    | none =>
        simp only [hv, bind_eq_ok_iff, except_pure_eq_ok_iff, Except.ok.injEq, exists_eq_left'] at h
        subst h
        exact ⟨rfl, hr, hl, hp, hn, hs, hu, hv⟩
    | some v =>
        simp only [hv, bind_eq_ok_iff, except_pure_eq_ok_iff, map_eq_ok_iff, card_eq_ok_iff] at h
        obtain ⟨_, ⟨c, ⟨frame, rfl, hc⟩, rfl⟩, rfl⟩ := h
        exact ⟨rfl, hr, hl, hp, hn, hs, hu, frame, hv, hc⟩
  · intro h
    obtain ⟨rfl, h⟩ := h
    refine ⟨_, h.required, _, h.label, _, h.placeholder, _, h.newline, _, h.span, _, h.rules, ?_⟩
    have hcard := h.card
    cases hc : a.card with
    | none =>
        rw [hc] at hcard
        simp [show Entries.get? ms "card" = none from hcard, ← hc]
    | some c =>
        rw [hc] at hcard
        obtain ⟨frame, hv, hf⟩ := hcard
        simp only [hv, bind_eq_ok_iff, except_pure_eq_ok_iff, map_eq_ok_iff, card_eq_ok_iff]
        exact ⟨_, ⟨c, ⟨frame, rfl, hf⟩, rfl⟩, by rw [← hc]⟩

/-- Bounds are read from members that describe them in the right order. -/
theorem bounds_eq_ok_iff {ms : Members} {lowerKey upperKey : String} {b : Bounds} :
    bounds ms lowerKey upperKey = .ok b ↔ BoundsOf ms lowerKey upperKey b := by
  simp only [bounds, bind_eq_ok_iff, optional_natural]
  constructor
  · intro h
    obtain ⟨lower, hl, upper, hu, h⟩ := h
    have hb : (Bounds.mk lower upper).Ordered ∧ ⟨lower, upper⟩ = b := by
      cases lower with
      | none => simpa [Bounds.Ordered] using h
      | some l =>
          cases upper with
          | none => simpa [Bounds.Ordered] using h
          | some u =>
              by_cases hlt : u < l
              · simp [hlt] at h
              · simpa [hlt, Bounds.Ordered, Nat.not_lt.mp hlt] using h
    obtain ⟨ho, rfl⟩ := hb
    exact ⟨hl, hu, ho⟩
  · intro h
    obtain ⟨hl, hu, ho⟩ := h
    refine ⟨_, hl, _, hu, ?_⟩
    obtain ⟨lower, upper⟩ := b
    cases lower with
    | none => rfl
    | some l =>
        cases upper with
        | none => rfl
        | some u => simp [Nat.not_lt.mpr (ho l rfl u rfl)]

end Checked

end Formwork
