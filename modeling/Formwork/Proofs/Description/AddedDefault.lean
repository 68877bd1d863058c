import Formwork.Proofs.Description.Document

/-!
# A default that is added

A description without a default describes the same field after one is added, as long as the field
takes the value: it checks the default more closely than a value, by the length of a list, the
bounds of a number and one level deeper in objects and arrays. So what is taken as a default passes
the check of values. For most leaves the two agree; a number has to lie within its bounds as well,
and for the default of an upload the host must have room for a copy.

## Main results

* `verify_added_default`: which values can be added as a default.
* `addedDeepList_refused`: a list of files that passes the check, but is not taken.
-/

namespace Formwork

namespace Field

variable {f : Field} {v : Json}

/-- The field with another default, or without one. -/
def withDefault (d : Option Json) : Field → Field
  | .leaf a l _ => .leaf a l d
  | .array a items count _ => .array a items count d
  | .object a properties _ => .object a properties d

@[simp] theorem withDefault_withDefault (d e : Option Json) :
    (f.withDefault d).withDefault e = f.withDefault e := by
  cases f <;> rfl

theorem withDefault_eq_self {d : Option Json} (h : f.default = d) : f.withDefault d = f := by
  subst h
  cases f <;> rfl

variable [Host]

@[simp] theorem takesDefault_withDefault (d : Option Json) :
    (f.withDefault d).TakesDefault v ↔ f.TakesDefault v := by
  cases f <;> exact Iff.rfl

theorem isStorable_withDefault (level : Nat) (f : Field) (v : Json) :
    (f.withDefault (some v)).isStorable level = true ↔
      (f.withDefault none).isStorable level = true ∧ v.height ≤ Host.defaultRoom level := by
  cases f <;>
    simp only [withDefault, isStorable, attributes, default, Option.map_some, Option.map_none,
      Option.getD_some, Option.getD_none, Bool.and_eq_true, decide_eq_true_eq, Nat.zero_le,
      and_true] <;>
    exact and_congr_right' decide_eq_true_iff

/-- A default can be copied apart from what it is added to. -/
theorem copyable_withDefault (level : Nat) (f : Field) (v : Json) :
    (f.withDefault (some v)).Copyable level ↔
      (f.withDefault none).Copyable level ∧ v.height ≤ Host.defaultRoom level := by
  have hstorable := isStorable_withDefault level f v
  cases f with
  | leaf a l d => exact copyable_leaf.trans (hstorable.trans (and_congr_left' copyable_leaf.symm))
  | array a items count d =>
      simp only [withDefault, copyable_array] at hstorable ⊢
      rw [hstorable, and_right_comm]
  | object a properties d =>
      simp only [withDefault, copyable_object] at hstorable ⊢
      rw [hstorable, and_right_comm]

end Field

namespace Description

open Checked (Members)

variable {ms ms' : Members} {level : Nat} {f : Field}

/-- The members are the same but for the default. -/
def AgreeButDefault (ms ms' : Members) : Prop :=
  ∀ key, key ≠ "defaultValue" → Entries.get? ms' key = Entries.get? ms key

theorem AgreeButDefault.symm (h : AgreeButDefault ms ms') : AgreeButDefault ms' ms :=
  fun key hkey => (h key hkey).symm

theorem agreeButDefault_set (ms : Members) (v : Json) :
    AgreeButDefault ms (Entries.set ms "defaultValue" v) := by
  intro key hkey
  rw [Entries.get?_set, if_neg hkey]

section Members

variable (h : AgreeButDefault ms ms')

include h

theorem AgreeButDefault.member {α : Type} {relation : Json → α → Prop} {key : String}
    {o : Option α} (hkey : key ≠ "defaultValue") (hmember : Says relation ms key o) :
    Says relation ms' key o := by
  unfold Says at hmember ⊢
  rwa [h key hkey]

theorem AgreeButDefault.boundsOf {lowerKey upperKey : String} {b : Bounds}
    (hlower : lowerKey ≠ "defaultValue") (hupper : upperKey ≠ "defaultValue")
    (hbounds : BoundsOf ms lowerKey upperKey b) : BoundsOf ms' lowerKey upperKey b :=
  ⟨h.member hlower hbounds.lower, h.member hupper hbounds.upper, hbounds.ordered⟩

theorem AgreeButDefault.optionsOf {options : List Choice} (hoptions : OptionsOf ms options) :
    OptionsOf ms' options := by
  unfold OptionsOf at hoptions ⊢
  rwa [h "options" (by decide)]

theorem AgreeButDefault.cardMember {c : Option Card} (hcard : CardMember ms c) :
    CardMember ms' c := by
  unfold CardMember at hcard ⊢
  rwa [h "card" (by decide)]

theorem AgreeButDefault.sharedOf {a : Attributes} (ha : SharedOf ms a) : SharedOf ms' a where
  required := h.member (by decide) ha.required
  label := h.member (by decide) ha.label
  placeholder := h.member (by decide) ha.placeholder
  newline := h.member (by decide) ha.newline
  span := h.member (by decide) ha.span
  rules := h.member (by decide) ha.rules
  card := h.cardMember ha.card

theorem AgreeButDefault.attributesOf {type : FieldType} {a : Attributes}
    (ha : AttributesOf ms type a) : AttributesOf ms' type a where
  name := (h "name" (by decide)).trans ha.name
  name_ne := ha.name_ne
  type := (h "type" (by decide)).trans ha.type
  shared := h.sharedOf ha.shared

theorem AgreeButDefault.leafOf {l : Leaf} (hl : LeafOf ms l) : LeafOf ms' l := by
  cases l with
  | string => exact h.boundsOf (by decide) (by decide) hl
  | longtext =>
      obtain ⟨hlength, hrows⟩ := hl
      exact ⟨h.boundsOf (by decide) (by decide) hlength, h.member (by decide) hrows⟩
  | number =>
      obtain ⟨hmin, hmax, hstep, hrange⟩ := hl
      exact ⟨h.member (by decide) hmin, h.member (by decide) hmax, h.member (by decide) hstep,
        hrange⟩
  | checkbox => exact h.member (by decide) hl
  | radio => exact h.optionsOf hl
  | select =>
      obtain ⟨hoptions, hmode⟩ := hl
      exact ⟨h.optionsOf hoptions, h.member (by decide) hmode⟩
  | upload =>
      obtain ⟨hmultiple, hcount, hsize, haccept, hstyle⟩ := hl
      exact ⟨h.member (by decide) hmultiple, h.member (by decide) hcount,
        h.member (by decide) hsize, h.member (by decide) haccept, h.member (by decide) hstyle⟩
  | date =>
      obtain ⟨hformat, htime⟩ := hl
      exact ⟨h.member (by decide) hformat, h.member (by decide) htime⟩
  | json => exact hl

end Members

variable [Host]

/-- Members that are the same but for the default describe the same field with the other default,
if it takes this. -/
theorem Describes.withDefault (hf : Describes level (.obj ms) f) (h : AgreeButDefault ms ms')
    (hd : ∀ v ∈ Entries.get? ms' "defaultValue", f.TakesDefault v) :
    Describes level (.obj ms') (f.withDefault (Entries.get? ms' "defaultValue")) := by
  cases hf with
  | leaf bound attributes payload =>
      exact .leaf bound (h.attributesOf attributes) (h.leafOf payload) hd
  | array bound attributes element flat inner length =>
      exact .array bound (h.attributesOf attributes) ((h "items" (by decide)).trans element) flat
        inner (h.boundsOf (by decide) (by decide) length) hd
  | object bound attributes element keys named inner =>
      exact .object bound (h.attributesOf attributes)
        ((h "properties" (by decide)).trans element) keys named inner hd

end Description

namespace Field

open Description
open Checked (Members)

section Added

variable [Host] {path : Option String} {ms : Members} {f : Field}

/-- With a default that is added, a description gives the same field with this default, exactly if
the field takes it and it can be copied. -/
theorem verify_set_default_iff (h : (verify path (.obj ms)).outcome = .ok f)
    (hnone : Entries.get? ms "defaultValue" = none) {v : Json} {g : Field} :
    (verify path (.obj (Entries.set ms "defaultValue" v))).outcome = .ok g ↔
      g = f.withDefault (some v) ∧ f.TakesDefault v ∧ v.height ≤ Host.defaultRoom 0 := by
  have hagree : AgreeButDefault ms (Entries.set ms "defaultValue" v) := agreeButDefault_set ms v
  have hsome : Entries.get? (Entries.set ms "defaultValue" v) "defaultValue" = some v := by
    rw [Entries.get?_set, if_pos rfl]
  obtain ⟨hf, hc⟩ := verify_eq_ok_iff.mp h
  have hdefault : f.withDefault none = f := withDefault_eq_self (hf.default.trans hnone)
  rw [verify_eq_ok_iff]
  constructor
  · rintro ⟨hg, hgc⟩
    have hgd : g.withDefault (some v) = g := withDefault_eq_self (hg.default.trans hsome)
    rw [← hgd, copyable_withDefault] at hgc
    -- without its default the description is the one that gives `f`
    have hbare : Describes 0 (.obj ms) (g.withDefault none) := by
      have hbare := hg.withDefault hagree.symm (by simp [hnone])
      rwa [hnone] at hbare
    have heq : f = g.withDefault none :=
      Except.ok.inj (h.symm.trans (verify_eq_ok_iff.mpr ⟨hbare, hgc.1⟩))
    have htakes : g.TakesDefault v := hg.takesDefault v (hg.default.trans hsome)
    refine ⟨?_, ?_, hgc.2⟩
    · rw [heq, withDefault_withDefault, hgd]
    · rwa [heq, takesDefault_withDefault]
  · rintro ⟨rfl, htakes, hheight⟩
    constructor
    · have hdescribes := hf.withDefault hagree (by simpa [hsome] using htakes)
      rwa [hsome] at hdescribes
    · rw [copyable_withDefault, hdefault]
      exact ⟨hc, hheight⟩

omit [Host] in
theorem height_of_offered {options : List Choice} {v : Json} (h : Choice.Offered options v) :
    v.height = 1 := by
  obtain ⟨c, -, ⟨s, -, rfl⟩ | ⟨x, y, p, -, rfl, -⟩⟩ := h <;> simp only [Json.height]

theorem height_of_isDate {v : Json} (h : DateText.IsDate v) : v.height = 1 := by
  obtain ⟨d, hd⟩ := h
  cases v with
  | str s => simp only [Json.height]
  | _ => cases hd

/-- All leaves but uploads accept scalars and lists of scalars only, for copies of which every host
has room. -/
theorem height_of_accepts {l : Leaf} (hl : l.type ≠ .upload) {v : Json} (h : l.Accepts v) :
    v.height ≤ Host.defaultRoom 0 := by
  have hroom := Host.two_le_defaultRoom 0
  have hscalar : 1 ≤ Host.defaultRoom 0 := by omega
  cases l with
  | upload => exact absurd rfl hl
  | radio options => rwa [height_of_offered h]
  | select options mode =>
      cases mode with
      | none => rwa [height_of_offered h]
      | some mode =>
          obtain ⟨vs, rfl, hall⟩ := h
          have hlist : (Json.arr vs).height ≤ 2 :=
            Json.height_arr_le_iff.mpr fun w hw => Nat.le_of_eq (height_of_offered (hall w hw))
          exact Nat.le_trans hlist hroom
  | date => rwa [height_of_isDate h]
  | _ =>
      obtain ⟨_, rfl⟩ := h
      simpa only [Json.height]

/-- A leaf other than a number takes as a default what it accepts. -/
theorem takesDefault_leaf_iff {a : Attributes} {l : Leaf} {d : Option Json} {v : Json}
    (hl : l.type ≠ .number) : (Field.leaf a l d).TakesDefault v ↔ l.Accepts v := by
  refine and_iff_left_of_imp fun _ => ?_
  cases l with
  | number => exact absurd rfl hl
  | _ => trivial

/-- A number takes as a default what it accepts and what is not outside of its bounds. -/
theorem takesDefault_number_iff {a : Attributes} {min max step : Option Number} {d : Option Json}
    {v : Json} : (Field.leaf a (.number min max step) d).TakesDefault v ↔
      ∃ x, v = .num x ∧ (∀ m ∈ min, ¬ x.lt m = true) ∧ ∀ m ∈ max, ¬ m.lt x = true := by
  constructor
  · rintro ⟨⟨x, rfl⟩, hmin, hmax⟩
    exact ⟨x, rfl, fun m hm => Bool.not_eq_true _ ▸ hmin m hm x rfl,
      fun m hm => Bool.not_eq_true _ ▸ hmax x rfl m hm⟩
  · rintro ⟨x, rfl, hmin, hmax⟩
    refine ⟨⟨x, rfl⟩, fun m hm y hy => ?_, fun y hy m hm => ?_⟩
    · cases hy
      exact Bool.not_eq_true _ ▸ hmin m hm
    · cases hy
      exact Bool.not_eq_true _ ▸ hmax m hm

/-- A default that is added to an accepted description and taken passes the check of values. The
other way around, most leaves take whatever passes the check; a number takes exactly what lies
within its bounds as well, and an upload exactly what can be copied as well. -/
theorem verify_added_default (h : (verify path (.obj ms)).outcome = .ok f)
    (hnone : Entries.get? ms "defaultValue" = none) (v : Json) :
    let accepted := ∃ g, (verify path (.obj (Entries.set ms "defaultValue" v))).outcome = .ok g
    let valid := (f.check v).outcome = .ok none
    (accepted → valid) ∧
      (f.type ∈ [.string, .longtext, .json, .checkbox, .radio, .select, .date] →
        valid → accepted) ∧
      (f.type = .upload → (accepted ↔ valid ∧ v.height ≤ Host.defaultRoom 0)) ∧
      ∀ a min max step d, f = .leaf a (.number min max step) d →
        (accepted ↔ valid ∧ ∃ x, v = .num x ∧ (∀ m ∈ min, ¬ x.lt m = true) ∧
          ∀ m ∈ max, ¬ m.lt x = true) := by
  intro accepted valid
  have haccepted : accepted ↔ f.TakesDefault v ∧ v.height ≤ Host.defaultRoom 0 := by
    simp only [accepted, verify_set_default_iff h hnone, exists_eq_left]
  have hvalid : valid ↔ f.Accepts v := check_eq_none_iff f v
  rw [haccepted, hvalid]
  refine ⟨fun htakes => accepts_of_takesDefault htakes.1, fun htype haccepts => ?_,
    fun htype => ?_, ?_⟩
  · cases f with
    | leaf a l d =>
        refine ⟨(takesDefault_leaf_iff ?_).mpr haccepts, height_of_accepts ?_ haccepts⟩ <;>
        · intro hl
          rw [Field.type, hl] at htype
          exact absurd htype (by decide)
    | _ => simp [Field.type] at htype
  · cases f with
    | leaf a l d =>
        have hl : l.type ≠ .number := by
          intro hl
          exact absurd (htype.symm.trans hl) (by decide)
        exact and_congr_left' (takesDefault_leaf_iff hl)
    | _ => cases htype
  · rintro a min max step d rfl
    rw [takesDefault_number_iff]
    constructor
    · rintro ⟨⟨x, rfl, hbounds⟩, -⟩
      exact ⟨⟨x, rfl⟩, x, rfl, hbounds⟩
    · rintro ⟨-, x, rfl, hbounds⟩
      have hroom := Host.two_le_defaultRoom 0
      exact ⟨⟨x, rfl, hbounds⟩, by simp only [Json.height]; omega⟩

end Added

attribute [local instance] Host.standard in
/-- Of two numbers that pass the check, only the one within the bounds is taken as a default. A list
of lists is taken as the default of an upload, since the standard host has room for a copy. -/
theorem verify_added_number :
    let ms : Members := [("name", .str "n"), ("type", .str "number"), ("min", .int 1)]
    let upload : Members := [("name", .str "u"), ("type", .str "upload")]
    (∃ f, (verify none (.obj ms)).outcome = .ok f ∧ (f.check (.int 5)).outcome = .ok none ∧
      (f.check (.int 0)).outcome = .ok none) ∧
    (∃ g, (verify none (.obj (Entries.set ms "defaultValue" (.int 5)))).outcome = .ok g) ∧
    (¬ ∃ g, (verify none (.obj (Entries.set ms "defaultValue" (.int 0)))).outcome = .ok g) ∧
    ∃ g, (verify none (.obj (Entries.set upload "defaultValue" (nestedLists 2)))).outcome =
      .ok g := by
  intro ms upload
  obtain ⟨a, hf⟩ : ∃ a, (verify none (.obj ms)).outcome =
      .ok (.leaf a (.number (some (.int 1)) none none) none) := ⟨_, rfl⟩
  refine ⟨⟨_, hf, rfl, rfl⟩, ?_, ?_, ?_⟩
  · refine ((verify_added_default hf rfl (.int 5)).2.2.2 _ _ _ _ _ rfl).mpr ⟨rfl, _, rfl, ?_, nofun⟩
    simp [Number.lt_int]
  · rw [(verify_added_default hf rfl (.int 0)).2.2.2 _ _ _ _ _ rfl]
    rintro ⟨-, x, hx, hmin, -⟩
    cases hx
    simp [Number.lt_int] at hmin
  · obtain ⟨f, hupload⟩ : ∃ f, (verify none (.obj upload)).outcome = .ok f := ⟨_, rfl⟩
    have htype : f.type = .upload := by
      cases hupload
      rfl
    have hvalid : (f.check (nestedLists 2)).outcome = .ok none := by
      cases hupload
      rfl
    have hroom : (nestedLists 2).height ≤ Host.defaultRoom 0 := by
      rw [height_nestedLists]
      decide
    exact ((verify_added_default hupload rfl (nestedLists 2)).2.2.1 htype).mpr ⟨hvalid, hroom⟩

attribute [local instance] Host.standard in
/-- A list of files that lists have been put around passes the check of an upload, but is refused as
its default, since the standard host has no room for a copy. -/
theorem addedDeepList_refused :
    let ms : Members := [("name", .str "u"), ("type", .str "upload")]
    ∃ f, (verify none (.obj ms)).outcome = .ok f ∧ f.type = .upload ∧
      (f.check (nestedLists 699)).outcome = .ok none ∧
      ¬ ∃ g, (verify none (.obj (Entries.set ms "defaultValue" (nestedLists 699)))).outcome =
        .ok g := by
  intro ms
  refine ⟨_, rfl, rfl, ?_, ?_⟩
  · obtain ⟨vs, hvs⟩ := nestedLists_eq_arr 699
    rw [hvs]
    rfl
  · rintro ⟨g, hg⟩
    obtain ⟨-, -, hheight⟩ := (verify_set_default_iff rfl rfl).mp hg
    rw [height_nestedLists] at hheight
    exact absurd hheight (by decide)

end Field

end Formwork
