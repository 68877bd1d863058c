import Formwork.Proofs.DateText.Year
import Formwork.Proofs.Description.Nesting

/-!
# Verification in different years

The year of the host counts only where a text is read as a date: in the default of a date, and in
the default of an array or an object where a date stands for it, up to two steps below. So two hosts
that differ in the year alone verify a description alike, if they read these texts alike. They do
unless a text spells a year of two digits.

## Implementation notes

Both runs are on the same host put into two years, and each function is compared with itself: those
that read no date are equal by definition, and the others follow the shape of the functions that
they are made of. Which texts a default is read for depends on the fields that the parts of the
description were verified as, of which only the types matter; `Shape` keeps these.
-/

namespace Formwork

namespace DateText

/-- The texts are read alike in two years. -/
def ReadAlike (y y' : Nat) (reference : DateTime) (texts : List String) : Prop :=
  ∀ s ∈ texts, parseIn y reference s = parseIn y' reference s

end DateText

namespace Description

open DateText

/-- The texts in a value that are read as dates when it is checked against a description, at most a
number of steps below: those for which a description of a date stands. -/
def datesIn : Nat → Json → Json → List String
  | _, .obj ms, .str s => if Field.typeOf? ms = some .date then [s] else []
  | steps + 1, n, .arr vs => (parts n).flatMap fun e => vs.flatMap (datesIn steps e.2)
  | steps + 1, n, .obj es =>
    (parts n).flatMap fun e =>
      (es.filter fun x => x.1 = e.1).flatMap fun x => datesIn steps e.2 x.2
  | _, _, _ => []

/-- The texts in the defaults of a description, and of those that lie in it, that are read as
dates. -/
def dateTexts (n : Json) : List String :=
  (within n).flatMap fun p => ((p.2.member? "defaultValue").map (datesIn 2 p.2)).getD []

variable {steps : Nat} {n : Json} {f : Field}

theorem datesIn_date {ms : Checked.Members} (h : Field.typeOf? ms = some .date) (steps : Nat)
    (s : String) : datesIn steps (.obj ms) (.str s) = [s] := by
  cases steps <;> exact if_pos h

theorem mem_dateTexts_iff {s : String} :
    s ∈ dateTexts n ↔
      ∃ p ∈ within n, ∃ v, p.2.member? "defaultValue" = some v ∧ s ∈ datesIn 2 p.2 v := by
  rw [dateTexts, List.mem_flatMap]
  refine exists_congr fun p => and_congr_right fun _ => ?_
  cases p.2.member? "defaultValue" <;> simp

/-- The dates of a description are those of its own default and those of its parts. -/
theorem dateTexts_eq_append (n : Json) :
    dateTexts n = ((n.member? "defaultValue").map (datesIn 2 n)).getD [] ++
      (parts n).flatMap fun e => dateTexts e.2 := by
  rw [dateTexts, within_eq_cons, List.flatMap_cons, List.flatMap_assoc]
  simp only [List.flatMap_map, dateTexts]

/-- The description is of the type of the field. -/
def TypeOf (n : Json) (f : Field) : Prop :=
  ∃ ms, n = .obj ms ∧ Field.typeOf? ms = some f.type

/-- The description is of the type of the field, and its parts are of the types of what lies
directly in the field. -/
structure Shape (n : Json) (f : Field) : Prop where
  type : TypeOf n f
  part : ∀ e ∈ f.children, ∃ m, (e.1, m) ∈ parts n ∧ TypeOf m e.2

theorem Describes.typeOf [Host] {level : Nat} (h : Describes level n f) : TypeOf n f := by
  obtain ⟨ms, rfl, htype⟩ := h.type
  exact ⟨ms, rfl, Field.typeOf?_eq_some_iff.mpr htype⟩

theorem Describes.shape [Host] {level : Nat} (h : Describes level n f) : Shape n f where
  type := h.typeOf
  part e he := by
    obtain ⟨⟨key, m⟩, hm, rfl, hdescribes⟩ := exists_left_of_mem h.parts e he
    exact ⟨m, hm, hdescribes.typeOf⟩

section ReadAlike

variable {y y' : Nat} {reference : DateTime}

theorem ReadAlike.date {v : Json} (h : ReadAlike y y' reference (datesIn steps n v))
    (hn : TypeOf n f) (hdate : f.type = .date) :
    ∀ s, v = .str s → parseIn y reference s = parseIn y' reference s := by
  rintro s rfl
  obtain ⟨ms, rfl, htype⟩ := hn
  rw [hdate] at htype
  exact h s (datesIn_date htype steps s ▸ List.mem_singleton_self s)

theorem ReadAlike.elements {vs : List Json}
    (h : ReadAlike y y' reference (datesIn (steps + 1) n (.arr vs))) {e : String × Json}
    (he : e ∈ parts n) : ∀ v ∈ vs, ReadAlike y y' reference (datesIn steps e.2 v) := by
  intro v hv s hs
  refine h s ?_
  rw [datesIn]
  exact List.mem_flatMap.mpr ⟨e, he, List.mem_flatMap.mpr ⟨v, hv, hs⟩⟩

theorem ReadAlike.entry {es : List (String × Json)}
    (h : ReadAlike y y' reference (datesIn (steps + 1) n (.obj es))) {x : String × Json}
    (hx : x ∈ es) {m : Json} (hm : (x.1, m) ∈ parts n) :
    ReadAlike y y' reference (datesIn steps m x.2) := by
  intro s hs
  refine h s ?_
  rw [datesIn]
  have hkept : x ∈ es.filter fun x' => x'.1 = x.1 := List.mem_filter.mpr ⟨hx, by simp⟩
  exact List.mem_flatMap.mpr ⟨(x.1, m), hm, List.mem_flatMap.mpr ⟨x, hkept, hs⟩⟩

end ReadAlike

end Description

section Years

open DateText Description

variable [host : Host] {y y' : Nat}

theorem DateText.parse_inYear {reference : DateTime} {v : Json}
    (h : ∀ s, v = .str s → parseIn y reference s = parseIn y' reference s) :
    @parse (host.inYear y) reference v = @parse (host.inYear y') reference v := by
  cases v with
  | str s => exact h s rfl
  | _ => rfl

theorem tryDate_inYear {reference : DateTime} {v : Json}
    (h : ∀ s, v = .str s → parseIn y reference s = parseIn y' reference s) :
    @tryDate (host.inYear y) reference v = @tryDate (host.inYear y') reference v := by
  unfold tryDate
  rw [parse_inYear h]

/-! ### Values -/

theorem Leaf.check_inYear {l : Leaf} {v : Json}
    (h : l.type = .date → ∀ s, v = .str s → parseIn y .epoch s = parseIn y' .epoch s) :
    @Leaf.check (host.inYear y) v l = @Leaf.check (host.inYear y') v l := by
  cases l with
  | date format showTime => simp only [Leaf.check, tryDate_inYear (h rfl)]
  | select options mode => cases mode <;> rfl
  | _ => rfl

namespace Field

theorem checkInner_inYear {n v : Json} {f : Field} (hn : TypeOf n f)
    (h : ReadAlike y y' .epoch (datesIn 0 n v)) :
    @checkInner (host.inYear y) v f = @checkInner (host.inYear y') v f := by
  cases f with
  | leaf a l d => exact Leaf.check_inYear fun hdate => ReadAlike.date h hn hdate
  | _ => rfl

theorem checkEntries_inYear {properties : List (String × Field)} {es : List (String × Json)}
    (h : ∀ x ∈ es, ∀ f, properties.lookup x.1 = some f →
      ∃ m, TypeOf m f ∧ ReadAlike y y' .epoch (datesIn 0 m x.2)) :
    @checkEntries (host.inYear y) properties es = @checkEntries (host.inYear y') properties es := by
  induction es with
  | nil => rfl
  | cons x rest ih =>
      rw [List.forall_mem_cons] at h
      simp only [checkEntries]
      cases hf : properties.lookup x.1 with
      | none => rfl
      | some f =>
          obtain ⟨m, hm, halike⟩ := h.1 f hf
          simp only [checkInner_inYear hm halike, ih h.2]

theorem checkElements_inYear {n : Json} {items : Field} {index : Nat} {vs : List Json}
    (hn : TypeOf n items) (h : ∀ v ∈ vs, ReadAlike y y' .epoch (datesIn 0 n v)) :
    @checkElements (host.inYear y) items index vs =
      @checkElements (host.inYear y') items index vs := by
  induction vs generalizing index with
  | nil => rfl
  | cons v rest ih =>
      rw [List.forall_mem_cons] at h
      simp only [checkElements, checkInner_inYear hn h.1, ih h.2]

/-- A value is checked alike if the dates in it, up to one step below, are read alike. -/
theorem check_inYear {n v : Json} {f : Field} (hn : Shape n f)
    (h : ReadAlike y y' .epoch (datesIn 1 n v)) :
    @check (host.inYear y) v f = @check (host.inYear y') v f := by
  cases f with
  | leaf a l d => exact Leaf.check_inYear fun hdate => ReadAlike.date h hn.type hdate
  | array a items count d =>
      cases v with
      | arr vs =>
          obtain ⟨m, hm, htype⟩ := hn.part ("items", items) (List.mem_singleton_self _)
          exact checkElements_inYear htype (ReadAlike.elements h hm)
      | _ => rfl
  | object a properties d =>
      cases v with
      | obj es =>
          refine checkEntries_inYear fun x hx f hf => ?_
          obtain ⟨m, hm, htype⟩ := hn.part (x.1, f) (Entries.mem_of_lookup hf)
          exact ⟨m, htype, ReadAlike.entry h hx hm⟩
      | _ => rfl

/-! ### Descriptions -/

variable {level : Nat} {path name : String} {ms : Checked.Members} {a : Attributes}

theorem defaultElements_inYear {n : Json} {items : Field} {index : Nat} {vs : List Json}
    (hn : Shape n items) (h : ∀ v ∈ vs, ReadAlike y y' .epoch (datesIn 1 n v)) :
    @defaultElements (host.inYear y) path name items index vs =
      @defaultElements (host.inYear y') path name items index vs := by
  induction vs generalizing index with
  | nil => rfl
  | cons v rest ih =>
      rw [List.forall_mem_cons] at h
      simp only [defaultElements, check_inYear hn h.1, ih h.2]

theorem arrayDefault_inYear {n : Json} {items : Field} {count : Bounds} {d : Option Json}
    (hn : Shape n items)
    (h : ∀ vs, d = some (.arr vs) → ∀ v ∈ vs, ReadAlike y y' .epoch (datesIn 1 n v)) :
    @arrayDefault (host.inYear y) path name items count d =
      @arrayDefault (host.inYear y') path name items count d := by
  cases d with
  | none => rfl
  | some v =>
      cases v with
      | arr vs => simp only [arrayDefault, defaultElements_inYear hn (h vs rfl)]
      | _ => rfl

theorem defaultEntries_inYear {properties : List (String × Field)} {es : List (String × Json)}
    (h : ∀ x ∈ es, ∀ f, properties.lookup x.1 = some f →
      ∃ m, Shape m f ∧ ReadAlike y y' .epoch (datesIn 1 m x.2)) :
    @defaultEntries (host.inYear y) path name properties es =
      @defaultEntries (host.inYear y') path name properties es := by
  induction es with
  | nil => rfl
  | cons x rest ih =>
      rw [List.forall_mem_cons] at h
      simp only [defaultEntries]
      cases hf : properties.lookup x.1 with
      | none => rfl
      | some f =>
          obtain ⟨m, hm, halike⟩ := h.1 f hf
          simp only [check_inYear hm halike, ih h.2]

theorem dateOf_inYear
    (h : ∀ s, Entries.get? ms "defaultValue" = some (.str s) →
      parseIn y .epoch s = parseIn y' .epoch s) :
    @dateOf (host.inYear y) level path name ms a =
      @dateOf (host.inYear y') level path name ms a := by
  unfold dateOf Checked.authoredDefault
  cases hv : Entries.get? ms "defaultValue" with
  | none => rfl
  | some v =>
      have hdate : ∀ s, v = .str s → parseIn y .epoch s = parseIn y' .epoch s := by
        rintro s rfl
        exact h s hv
      simp only [tryDate_inYear hdate]
      rfl

section Parts

variable {child child' : String → Json → Audit Stop Field} {inner : Json → Field → Prop}
  (hinner : ∀ path n f, (child path n).outcome = .ok f ↔ inner n f)
  (hshape : ∀ n f, inner n f → Shape n f)

include hinner hshape

theorem arrayOf_inYear
    (hchild : ∀ n, Entries.get? ms "items" = some n → ∀ path, child path n = child' path n)
    (hdefault : ∀ n, Entries.get? ms "items" = some n → ∀ vs,
      Entries.get? ms "defaultValue" = some (.arr vs) →
        ∀ v ∈ vs, ReadAlike y y' .epoch (datesIn 1 n v)) :
    @arrayOf (host.inYear y) level child path name ms a =
      @arrayOf (host.inYear y') level child' path name ms a := by
  unfold arrayOf
  split
  · rename_i inside hinside
    rw [← hchild _ hinside]
    split
    · rfl
    · refine Audit.bind_congr_of_ok fun items hitems => ?_
      rw [Audit.outcome_mapError, mapError_eq_ok_iff, hinner] at hitems
      have harray : ∀ count, @arrayDefault (host.inYear y) path name items count
          (Checked.authoredDefault ms) = @arrayDefault (host.inYear y') path name items count
            (Checked.authoredDefault ms) := fun count =>
        arrayDefault_inYear (hshape _ _ hitems) (hdefault _ hinside)
      simp only [harray]
      rfl
  · rfl

omit host hinner hshape in
theorem propertiesOf_congr {nodes : List (String × Json)}
    (hchild : ∀ e ∈ nodes, ∀ path, child path e.2 = child' path e.2) :
    propertiesOf child path name nodes = propertiesOf child' path name nodes := by
  induction nodes with
  | nil => rfl
  | cons e rest ih =>
      rw [List.forall_mem_cons] at hchild
      rw [propertiesOf, propertiesOf, hchild.1, ih hchild.2]

theorem objectOf_inYear
    (hchild : ∀ nodes, Entries.get? ms "properties" = some (.obj nodes) →
      ∀ e ∈ nodes, ∀ path, child path e.2 = child' path e.2)
    (hdefault : ∀ nodes, Entries.get? ms "properties" = some (.obj nodes) → ∀ es,
      Entries.get? ms "defaultValue" = some (.obj es) → ∀ x ∈ es, ∀ n, (x.1, n) ∈ nodes →
        ReadAlike y y' .epoch (datesIn 1 n x.2)) :
    @objectOf (host.inYear y) level child path name ms a =
      @objectOf (host.inYear y') level child' path name ms a := by
  unfold objectOf
  split
  · rename_i nodes hnodes
    rw [← propertiesOf_congr (hchild nodes hnodes)]
    refine Audit.bind_congr_of_ok fun properties hproperties => ?_
    obtain ⟨hkeys, -, hall⟩ := (propertiesOf_eq_ok_iff hinner).mp hproperties
    cases hv : Checked.authoredDefault ms with
    | none => rfl
    | some v =>
        cases v with
        | obj es =>
            have hentries : ∀ x ∈ es, ∀ f, properties.lookup x.1 = some f →
                ∃ n, Shape n f ∧ ReadAlike y y' .epoch (datesIn 1 n x.2) := by
              intro x hx f hf
              obtain ⟨⟨key, n⟩, hn, rfl, hinside⟩ := exists_left_of_mem
                (keys_zip_iff_forall₂.mp ⟨hkeys, hall⟩) (x.1, f) (Entries.mem_of_lookup hf)
              exact ⟨n, hshape n f hinside, hdefault nodes hnodes es hv x hx n hn⟩
            simp only [defaultEntries_inYear hentries]
            rfl
        | _ => rfl
  · rfl

/-- What is verified below a description is verified alike, so the description is, if the dates in
its default are read alike. -/
theorem verifyNode_inYear {n : Json}
    (hchild : ∀ e ∈ parts n, ∀ path, child path e.2 = child' path e.2)
    (hdefault : ∀ v, n.member? "defaultValue" = some v → ReadAlike y y' .epoch (datesIn 2 n v))
    (path : Option String) :
    @verifyNode (host.inYear y) level child path n =
      @verifyNode (host.inYear y') level child' path n := by
  cases n with
  | obj ms =>
      have hpayload : ∀ t, typeOf? ms = some t → ∀ path name a,
          @payload (host.inYear y) level child path name ms a t =
            @payload (host.inYear y') level child' path name ms a t := by
        intro t ht path name a
        cases t with
        | date =>
            refine dateOf_inYear fun s hs => ?_
            have hread := hdefault _ hs
            exact hread s (datesIn_date ht 2 s ▸ List.mem_singleton_self s)
        | array =>
            have hparts {m} (hm : Entries.get? ms "items" = some m) :
                ("items", m) ∈ parts (.obj ms) := by
              simp only [parts, ht, hm, List.mem_singleton]
            exact arrayOf_inYear hinner hshape (fun m hm => hchild _ (hparts hm))
              fun m hm vs hvs => ReadAlike.elements (hdefault _ hvs) (hparts hm)
        | object =>
            have hparts {nodes} (hnodes : Entries.get? ms "properties" = some (.obj nodes)) :
                parts (.obj ms) = nodes := by
              simp only [parts, ht, hnodes]
            refine objectOf_inYear hinner hshape (fun nodes hnodes e he => ?_)
              fun nodes hnodes es hes x hx n hn => ?_
            · exact hchild e (hparts hnodes ▸ he)
            · exact ReadAlike.entry (hdefault _ hes) hx (hparts hnodes ▸ hn)
        | _ => rfl
      simp only [verifyNode]
      cases nameOf? ms with
      | none => rfl
      | some name =>
          cases ht : typeOf? ms with
          | none => rfl
          | some t => simp only [hpayload t ht]
  | _ => rfl

end Parts

/-- A description is verified alike if the dates in its defaults are read alike. -/
theorem verifyBelow_inYear {levels : Nat} (hlevels : level + levels = nestingLimit + 1) {n : Json}
    {path : Option String} (h : ReadAlike y y' .epoch (dateTexts n)) :
    @verifyBelow (host.inYear y) levels path n = @verifyBelow (host.inYear y') levels path n := by
  induction levels generalizing level n path with
  | zero => rfl
  | succ levels ih =>
      rw [dateTexts_eq_append, ReadAlike, List.forall_mem_append] at h
      obtain ⟨hdefault, hparts⟩ := h
      have hbelow : level + 1 + levels = nestingLimit + 1 := by omega
      refine verifyNode_inYear
        (fun path n f => @verifyBelow_eq_ok_iff (host.inYear y) _ _ hbelow (some path) n f)
        (fun n f hf => @Describes.shape n f (host.inYear y) _ hf.1) (fun e he path => ?_)
        (fun v hv => ?_) path
      · exact ih hbelow fun s hs => hparts s (List.mem_flatMap.mpr ⟨e, he, hs⟩)
      · rw [hv] at hdefault
        exact hdefault

end Field

namespace Form

/-- The texts in the defaults of the descriptions of a document that are read as dates. -/
def dateTexts (document : Json) : List String :=
  match document.member? "fields" with
  | some (.arr nodes) => nodes.flatMap Description.dateTexts
  | _ => []

theorem verifyFields_inYear {nodes : List Json} {index : Nat} {seen : List String}
    (h : ∀ n ∈ nodes, ReadAlike y y' .epoch (Description.dateTexts n)) :
    @verifyFields (host.inYear y) index seen nodes =
      @verifyFields (host.inYear y') index seen nodes := by
  induction nodes generalizing index seen with
  | nil => rfl
  | cons n rest ih =>
      rw [List.forall_mem_cons] at h
      simp only [verifyFields, Field.verify, Field.verifyBelow_inYear (Nat.zero_add _) h.1,
        ih h.2]

/-- A document is verified alike if the dates in its defaults are read alike. -/
theorem verifyParts_inYear {document : Json} (h : ReadAlike y y' .epoch (dateTexts document)) :
    @verifyParts (host.inYear y) document = @verifyParts (host.inYear y') document := by
  cases document with
  | obj ms =>
      simp only [verifyParts]
      split
      · rename_i nodes hnodes
        have hnodes' : ∀ n ∈ nodes, ReadAlike y y' .epoch (Description.dateTexts n) := by
          intro n hn s hs
          apply h
          simp only [dateTexts, Json.member?, hnodes]
          exact List.mem_flatMap.mpr ⟨n, hn, hs⟩
        rw [verifyFields_inYear hnodes']
      · rfl
  | _ => rfl

variable {source : Source}

theorem verify_inYear
    (h : ∀ document, source.load = .ok document → ReadAlike y y' .epoch (dateTexts document)) :
    @verify (host.inYear y) source = @verify (host.inYear y') source := by
  have hsame : documentOf source >>= @verifyDocument (host.inYear y) =
      documentOf source >>= @verifyDocument (host.inYear y') := by
    refine Audit.bind_congr_of_ok fun document hdocument => ?_
    rw [outcome_documentOf, mapError_eq_ok_iff] at hdocument
    simp only [verifyDocument, verifyParts_inYear (h document hdocument)]
  simp only [verify, hsame]

end Form

end Years

end Formwork
