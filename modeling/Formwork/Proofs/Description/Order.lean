import Formwork.Proofs.Description.Agreement
import Mathlib.Data.List.Perm.Basic

/-!
# Documents in another order

Whether a document is accepted does not depend on how it is written: the order of the members of its
objects, the order of its fields and members that nothing reads make no difference. Each edit leaves
what the edited value says as it was, and so does any number of them.
-/

namespace Formwork

namespace Description

open Checked (Members)
open Formwork.Field (Alike PropertiesAlike)

section Properties

variable {ms ms' : Members} {level : Nat} {properties : List (String × Field)}

variable [Host]

theorem propertiesOf_obj_iff :
    PropertiesOf level (.obj ms) properties ↔
      List.Forall₂ (fun e p => e.1 = p.1 ∧ Describes level e.2 p.2) ms properties ∧
        "" ∉ Entries.keys properties := by
  rw [← keys_zip_iff_forall₂, PropertiesOf]
  constructor
  · rintro ⟨_, ⟨⟩, hkeys, hnamed, hall⟩
    exact ⟨⟨hkeys, hall⟩, hnamed⟩
  · rintro ⟨⟨hkeys, hall⟩, hnamed⟩
    exact ⟨ms, rfl, hkeys, hnamed, hall⟩

theorem PropertiesOf.keys_eq (h : PropertiesOf level (.obj ms) properties) :
    Entries.keys ms = Entries.keys properties := by
  obtain ⟨_, ⟨⟩, hkeys, -⟩ := h
  exact hkeys

/-- An entry has one in the other object that says the same. -/
theorem Agree.entry (h : Agree .properties ms ms') (hms : (Entries.keys ms).Nodup)
    {e : String × Json} (he : e ∈ ms) : ∃ e' ∈ ms', e.1 = e'.1 ∧ Part.Same .field e.2 e'.2 := by
  obtain ⟨v', hv', hsame⟩ := get?_of_rel ((h e.1).2 .field rfl) (Entries.get?_of_mem hms he)
  exact ⟨(e.1, v'), Entries.mem_of_get? hv', rfl, hsame⟩

theorem Agree.mem_keys {key : String} (h : Agree .properties ms ms')
    (hms : (Entries.keys ms).Nodup) (hkey : key ∈ Entries.keys ms) : key ∈ Entries.keys ms' := by
  obtain ⟨e, he, rfl⟩ := List.mem_map.mp hkey
  obtain ⟨e', he', hee, -⟩ := h.entry hms he
  exact List.mem_map.mpr ⟨e', he', hee.symm⟩

/-- What entries describe is described by entries that agree with them, with fields that are
alike. -/
theorem Agree.describesProperties (h : Agree .properties ms ms') (hms : (Entries.keys ms).Nodup)
    (hms' : (Entries.keys ms').Nodup) (hp : PropertiesOf level (.obj ms) properties) :
    ∃ others, PropertiesOf level (.obj ms') others ∧ PropertiesAlike properties others := by
  obtain ⟨hall, hnamed⟩ := propertiesOf_obj_iff.mp hp
  have hright : ∀ e' ∈ ms', ∃ q : String × Field, (e'.1 = q.1 ∧ Describes level e'.2 q.2) ∧
      ∃ p ∈ properties, p.1 = q.1 ∧ p.2.Alike q.2 := by
    intro e' he'
    obtain ⟨e, he, hkey, hsame⟩ := h.symm.entry hms' he'
    obtain ⟨p, hp, hpkey, hf⟩ := exists_right_of_mem hall e he
    obtain ⟨f', hf', halike⟩ := hsame.symm.1 _ _ hf
    exact ⟨(e'.1, f'), ⟨rfl, hf'⟩, p, hp, hpkey.symm.trans hkey.symm, halike⟩
  obtain ⟨others, hothers⟩ := exists_forall₂ hright
  have hall' : List.Forall₂ (fun e q => e.1 = q.1 ∧ Describes level e.2 q.2) ms' others :=
    hothers.imp fun _ _ h => h.1
  have hkeys' : Entries.keys ms' = Entries.keys others := (keys_zip_iff_forall₂.mpr hall').1
  have hnamed' : "" ∉ Entries.keys others := by
    rw [← hkeys']
    rw [← hp.keys_eq] at hnamed
    exact fun hempty => hnamed (h.symm.mem_keys hms' hempty)
  refine ⟨others, propertiesOf_obj_iff.mpr ⟨hall', hnamed'⟩, ?_⟩
  apply PropertiesAlike.of_right
  · exact hp.keys_eq ▸ hms
  · exact hkeys' ▸ hms'
  · intro key hkey
    rw [← hp.keys_eq] at hkey
    exact hkeys' ▸ h.mem_keys hms hkey
  · intro q hq
    obtain ⟨_, -, -, hp⟩ := exists_left_of_mem hothers q hq
    exact hp

end Properties

section Objects

variable {part : Part} {ms ms' : Members}

variable [Host]

theorem layoutValue_of_rel {l : Option Layout} (h : Option.Rel (Part.Same .layout)
    (Entries.get? ms "layout") (Entries.get? ms' "layout"))
    (hl : LayoutValue ((Entries.get? ms "layout").getD .null) l) :
    LayoutValue ((Entries.get? ms' "layout").getD .null) l := by
  generalize Entries.get? ms "layout" = o, Entries.get? ms' "layout" = o' at h hl ⊢
  cases h with
  | some hv => exact (hv l).mp hl
  | none => exact hl

theorem Agree.documentOf {form : Form} (h : Agree .document ms ms')
    (hform : DocumentOf (.obj ms) form) : ∃ form, DocumentOf (.obj ms') form := by
  obtain ⟨_, nodes, ⟨⟩, hnodes, hall, hnodup, hl⟩ := hform
  obtain ⟨v', hv', hsame⟩ := get?_of_rel ((h "fields").2 .fields rfl) hnodes
  obtain ⟨fields, nodes', rfl, hall', hnodup'⟩ := hsame.mp ⟨_, nodes, rfl, hall, hnodup⟩
  exact ⟨⟨fields, form.layout⟩, ms', nodes', rfl, hv', hall', hnodup',
    layoutValue_of_rel ((h "layout").2 .layout rfl) hl⟩

theorem Agree.layoutValue {l : Option Layout} (h : Agree .layout ms ms')
    (hl : LayoutValue (.obj ms) l) : LayoutValue (.obj ms') l := by
  cases l with
  | none => cases hl
  | some l =>
      obtain ⟨_, ⟨⟩, hl⟩ := hl
      exact ⟨ms', rfl, h.layoutOf hl⟩

theorem Agree.frameOf {c : Card} (h : Agree .card ms ms') (hc : FrameOf (.obj ms) c) :
    FrameOf (.obj ms') c := by
  obtain ⟨_, ⟨⟩, hc⟩ := hc
  exact ⟨ms', rfl, h.cardOf hc⟩

theorem Agree.redescribed (h : Agree .field ms ms') :
    Redescribed Describes Alike (.obj ms) (.obj ms') :=
  fun _ _ => h.describes

theorem Agree.redescribed_properties (h : Agree .properties ms ms')
    (hms : (Entries.keys ms).Nodup) (hms' : (Entries.keys ms').Nodup) :
    Redescribed PropertiesOf PropertiesAlike (.obj ms) (.obj ms') :=
  fun _ _ => h.describesProperties hms hms'

/-- Objects whose members agree say the same. -/
theorem Agree.same (h : Agree part ms ms') (hpart : part ≠ .value)
    (hms : (Json.obj ms).Distinct) (hms' : (Json.obj ms').Distinct) :
    part.Same (.obj ms) (.obj ms') := by
  have hkeys := (Json.regular_obj.mp hms).1
  have hkeys' := (Json.regular_obj.mp hms').1
  cases part with
  | document => exact ⟨fun ⟨_, hd⟩ => h.documentOf hd, fun ⟨_, hd⟩ => h.symm.documentOf hd⟩
  | layout => exact fun l => ⟨h.layoutValue, h.symm.layoutValue⟩
  | fields => exact iff_of_false (by rintro ⟨_, _, ⟨⟩, _⟩) (by rintro ⟨_, _, ⟨⟩, _⟩)
  | field => exact ⟨h.redescribed, h.symm.redescribed⟩
  | card => exact fun c => ⟨h.frameOf, h.symm.frameOf⟩
  | options => exact fun _ => iff_of_false (by rintro ⟨_, ⟨⟩, _⟩) (by rintro ⟨_, ⟨⟩, _⟩)
  | option => exact fun c => ⟨h.choiceOf, h.symm.choiceOf⟩
  | properties =>
      exact ⟨h.redescribed_properties hkeys hkeys', h.symm.redescribed_properties hkeys' hkeys⟩
  | value => exact absurd rfl hpart

omit [Host] in
theorem typeOf?_of_rel {t : FieldType}
    (h : Option.Rel Reordered (Entries.get? ms "type") (Entries.get? ms' "type"))
    (ht : Field.typeOf? ms = some t) : Field.typeOf? ms' = some t := by
  rw [Field.typeOf?_eq_some_iff] at ht ⊢
  obtain ⟨v', hv', hvalue⟩ := get?_of_rel h ht
  rw [hv', hvalue.eq_of_scalar trivial]

/-- Members agree if those that are read do. Which ones are read of a field depends on its type,
which is among them. -/
theorem agree_of_rel (h : ∀ key inside, part.member? ms key = some inside →
    Option.Rel inside.Same (Entries.get? ms key) (Entries.get? ms' key)) : Agree part ms ms' := by
  refine fun key => ⟨?_, h key⟩
  cases part with
  | field =>
      have hrel : Option.Rel Reordered (Entries.get? ms "type") (Entries.get? ms' "type") :=
        h "type" .value rfl
      have htype : Field.typeOf? ms' = Field.typeOf? ms := Option.ext fun _ =>
        ⟨typeOf?_of_rel (rel_symm (fun _ _ hv => hv.symm) hrel), typeOf?_of_rel hrel⟩
      rw [Part.member?, Part.member?, htype]
  | _ => rfl

end Objects

section Edits

variable {part : Part} {v v' : Json}

variable [Host]

/-- A value says the same as itself, if the keys of its objects are different. -/
theorem Part.Same.refl (part : Part) (hv : v.Distinct) : part.Same v v := by
  cases part with
  | value => exact Reordered.refl v
  | card | layout | option | options => exact fun _ => Iff.rfl
  | fields | document => exact Iff.rfl
  | field => exact ⟨fun _ f hf => ⟨f, hf, Alike.refl f⟩, fun _ f hf => ⟨f, hf, Alike.refl f⟩⟩
  | properties =>
      have hself : Redescribed PropertiesOf PropertiesAlike v v := by
        intro level properties hp
        have hnodup : (Entries.keys properties).Nodup := by
          obtain ⟨nodes, rfl, -⟩ := id hp
          exact hp.keys_eq ▸ (Json.regular_obj.mp hv).1
        exact ⟨properties, hp, hnodup, hnodup, fun p hp => ⟨p, hp, rfl, Alike.refl p.2⟩,
          fun p hp => ⟨p, hp, rfl, Alike.refl p.2⟩⟩
      exact ⟨hself, hself⟩

/-- A member with the same value says the same. -/
theorem rel_of_get?_eq {ms ms' : Members} {key : String} (inside : Part)
    (hms : (Json.obj ms).Distinct) (h : Entries.get? ms key = Entries.get? ms' key) :
    Option.Rel inside.Same (Entries.get? ms key) (Entries.get? ms' key) := by
  rw [← h]
  cases hv : Entries.get? ms key with
  | none => exact .none
  | some v => exact .some (.refl inside ((Json.regular_obj.mp hms).2 _ (Entries.mem_of_get? hv)))

/-- A list of fields in another order describes fields of different names, too. -/
theorem fieldsOf_perm {nodes nodes' : List Json} (h : nodes.Perm nodes') :
    (∃ fields, FieldsOf (.arr nodes) fields) → ∃ fields, FieldsOf (.arr nodes') fields := by
  rintro ⟨fields, _, ⟨⟩, hall, hnodup⟩
  obtain ⟨fields', hall', hperm⟩ := List.perm_comp_forall₂ h.symm hall
  exact ⟨fields', nodes', rfl, hall', (hperm.map Field.name).nodup_iff.mpr hnodup⟩

theorem fieldsOf_element {before after : List Json} (h : Redescribed Describes Alike v v') :
    (∃ fields, FieldsOf (.arr (before ++ v :: after)) fields) →
      ∃ fields, FieldsOf (.arr (before ++ v' :: after)) fields := by
  rintro ⟨fields, _, ⟨⟩, hall, hnodup⟩
  have hv : ∀ f, Describes 0 v f ∧ f.Copyable 0 →
      ∃ f', (Describes 0 v' f' ∧ f'.Copyable 0) ∧ f.Alike f' := by
    rintro f ⟨hf, hcopyable⟩
    obtain ⟨f', hf', halike⟩ := h 0 f hf
    exact ⟨f', ⟨hf', (halike.copyable 0).mp hcopyable⟩, halike⟩
  obtain ⟨fields', hall', halike⟩ := forall₂_replace Alike.refl hv hall
  have hnames : fields.map Field.name = fields'.map Field.name := by
    rw [← List.forall₂_eq_eq_eq, List.forall₂_map_left_iff, List.forall₂_map_right_iff]
    exact halike.imp fun _ _ h => h.name
  exact ⟨fields', _, rfl, hall', hnames ▸ hnodup⟩

omit [Host] in
theorem choicesOf_element {before after : List Json} {options : List Choice}
    (h : ∀ c, ChoiceOf v c → ChoiceOf v' c) (ho : ChoicesOf (.arr (before ++ v :: after)) options) :
    ChoicesOf (.arr (before ++ v' :: after)) options := by
  obtain ⟨_, ⟨⟩, hne, hall⟩ := ho
  obtain ⟨options', hall', heq⟩ :=
    forall₂_replace (@rfl _) (fun c hc => ⟨c, h c hc, rfl⟩) hall
  rw [List.forall₂_eq_eq_eq] at heq
  exact ⟨_, rfl, hne, heq ▸ hall'⟩

omit [Host] in
theorem not_layoutValue_arr {vs : List Json} (l : Option Layout) : ¬ LayoutValue (.arr vs) l := by
  cases l with
  | none => nofun
  | some l => rintro ⟨_, ⟨⟩, _⟩

/-- A list that is edited at one element says the same. -/
theorem Part.Same.list {before after : List Json} (hpart : part ≠ .value)
    (h : part.element.Same v v') :
    part.Same (.arr (before ++ v :: after)) (.arr (before ++ v' :: after)) := by
  cases part with
  | fields => exact ⟨fieldsOf_element h.1, fieldsOf_element h.2⟩
  | options =>
      exact fun _ => ⟨choicesOf_element fun c => (h c).mp, choicesOf_element fun c => (h c).mpr⟩
  | document => exact iff_of_false (by rintro ⟨_, _, _, ⟨⟩, _⟩) (by rintro ⟨_, _, _, ⟨⟩, _⟩)
  | layout => exact fun l => iff_of_false (not_layoutValue_arr l) (not_layoutValue_arr l)
  | field => exact ⟨nofun, nofun⟩
  | card => exact fun _ => iff_of_false (by rintro ⟨_, ⟨⟩, _⟩) (by rintro ⟨_, ⟨⟩, _⟩)
  | option => exact fun _ => iff_of_false (by rintro ⟨_, ⟨⟩, _⟩) (by rintro ⟨_, ⟨⟩, _⟩)
  | properties => exact ⟨by rintro _ _ ⟨_, ⟨⟩, _⟩, by rintro _ _ ⟨_, ⟨⟩, _⟩⟩
  | value => exact absurd rfl hpart

theorem Edit.same_of_ne (h : Edit part v v') (hne : part ≠ .value → part.Same v v') :
    part.Same v v' := by
  by_cases hpart : part = .value
  · subst hpart
    exact Relation.EqvGen.rel _ _ h
  · exact hne hpart

/-- An edit leaves what the value says as it was. -/
theorem Edit.same (h : Edit part v v') (hv : v.Distinct) : part.Same v v' := by
  have hv' : v'.Distinct := h.distinct_iff.mp hv
  refine h.same_of_ne fun hpart => ?_
  -- by induction on how deep the edit lies; the members that agree carry it one level up
  induction h with
  | order perm =>
      refine Agree.same (agree_of_rel fun key inside _ => ?_) hpart hv hv'
      exact rel_of_get?_eq inside hv (Entries.get?_of_perm (Json.regular_obj.mp hv).1 perm key)
  | fields perm => exact ⟨fieldsOf_perm perm, fieldsOf_perm perm.symm⟩
  | @unread _ ms new _ unread =>
      refine Agree.same (agree_of_rel fun key inside hread => rel_of_get?_eq inside hv ?_)
        hpart hv hv'
      have hne : key ≠ new := fun heq => by simp [heq, unread] at hread
      rw [Entries.get?_append_cons_of_ne _ hne, List.append_nil]
  | @member part before after key v v' edit ih =>
      obtain ⟨hms, hall⟩ := Json.regular_obj.mp hv
      obtain ⟨hms', hall'⟩ := Json.regular_obj.mp hv'
      refine Agree.same (agree_of_rel fun other inside hread => ?_) hpart hv hv'
      by_cases hkey : other = key
      -- a member that is read was edited as what it is read for
      · subst hkey
        rw [hread] at edit ih
        rw [Entries.get?_append_cons_self hms, Entries.get?_append_cons_self hms']
        have hmem : (other, v) ∈ before ++ (other, v) :: after := by simp
        have hmem' : (other, v') ∈ before ++ (other, v') :: after := by simp
        exact .some (edit.same_of_ne (ih (hall _ hmem) (hall' _ hmem')))
      · refine rel_of_get?_eq inside hv ?_
        rw [Entries.get?_append_cons_of_ne v hkey, Entries.get?_append_cons_of_ne v' hkey]
  | @element part before after v v' edit ih =>
      have hmem : v ∈ before ++ v :: after := by simp
      have hmem' : v' ∈ before ++ v' :: after := by simp
      have hdistinct := Json.regular_arr.mp hv v hmem
      have hdistinct' := Json.regular_arr.mp hv' v' hmem'
      exact .list hpart (edit.same_of_ne (ih hdistinct hdistinct'))

end Edits

variable [Host]

/-- Documents that differ by edits describe forms both or neither. -/
theorem Rewritten.documentOf_iff {d d' : Json} (h : Rewritten d d') (hd : d.Distinct) :
    (∃ form, DocumentOf d form) ↔ ∃ form, DocumentOf d' form := by
  induction h with
  | rel d d' edit => exact edit.same hd
  | refl d => exact Iff.rfl
  | symm d d' h ih => exact (ih ((Rewritten.distinct_iff h).mpr hd)).symm
  | trans d d' d'' h _ ih ih' => exact (ih hd).trans (ih' ((Rewritten.distinct_iff h).mp hd))

end Description

namespace Form

open Description

/-- The verdict on a document does not depend on the order of members, at any depth, on the order
of the fields, nor on members that nothing reads. -/
theorem verifyParts_accepts_iff_of_rewritten [Host] {d d' : Json} (hd : d.Distinct)
    (h : Rewritten d d') :
    (∃ form, (verifyParts d).outcome = .ok form) ↔
      ∃ form, (verifyParts d').outcome = .ok form := by
  simp only [verifyParts_eq_ok_iff]
  exact h.documentOf_iff hd

attribute [local instance] Host.standard in
/-- A document is accepted with its fields the other way around, the members of one of them as
well, and a note that nothing reads. -/
theorem verifyParts_accepts_swapped :
    let a := Json.obj [("name", .str "a"), ("type", .str "date")]
    let a' := Json.obj [("type", .str "date"), ("name", .str "a")]
    let b := Json.obj [("name", .str "b"), ("type", .str "json")]
    let d := Json.obj [("fields", .arr [a, b])]
    let d' := Json.obj [("fields", .arr [b, a']), ("note", .null)]
    d.Distinct ∧ Rewritten d d' ∧ ∃ form, (verifyParts d').outcome = .ok form := by
  intro a a' b d d'
  have hd : d.Distinct := by simp [d, a, b, Json.Distinct, Entries.keys]
  have hmembers : Edit .field a a' := .order (.swap _ _ _)
  have hfield : Edit .document (.obj [("fields", .arr [a, b])]) (.obj [("fields", .arr [a', b])]) :=
    @Edit.member .document [] [] "fields" _ _ (@Edit.element .fields [] [b] _ _ hmembers)
  have hfields : Edit .document (.obj [("fields", .arr [a', b])])
      (.obj [("fields", .arr [b, a'])]) :=
    @Edit.member .document [] [] "fields" _ _ (.fields (.swap _ _ _))
  have hnote : Edit .document (.obj [("fields", .arr [b, a'])]) d' :=
    .unread rfl (by simp [Entries.keys]) (by simp)
  have hrewritten : Rewritten d d' :=
    .trans _ _ _ (.rel _ _ hfield) (.trans _ _ _ (.rel _ _ hfields) (.rel _ _ hnote))
  exact ⟨hd, hrewritten, (verifyParts_accepts_iff_of_rewritten hd hrewritten).mp ⟨_, rfl⟩⟩

end Form

end Formwork
