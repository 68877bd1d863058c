import Formwork.Form
import Formwork.Proofs.Description.Authored

/-!
# Documents

A document describes a form by a list of descriptions of its fields and by a member for
the layout. Its verification gives exactly the forms that it describes, and a verified
form is what the verification of its authored form gives.
-/

namespace Formwork

namespace Description

open Checked (Members)

/-- The value is a pair of whole numbers. -/
def Gutter (v : Json) (g : Nat × Nat) : Prop :=
  ∃ a b, v = .arr [a, b] ∧ Whole a g.1 ∧ Whole b g.2

/-- The members describe a layout. -/
structure LayoutOf (ms : Members) (l : Layout) : Prop where
  columns : Says WholeIn ms "columns" l.columns
  mobileColumns : Says WholeIn ms "mobileColumns" l.mobileColumns
  gutter : Says Gutter ms "gutter" l.gutter

/-- The value for the layout: null without one. -/
def LayoutValue (v : Json) : Option Layout → Prop
  | none => v = .null
  | some l => ∃ ms, v = .obj ms ∧ LayoutOf ms l

variable [Host]

/-- The document describes a form with values that can be copied. -/
def DocumentOf (document : Json) (form : Form) : Prop :=
  ∃ ms nodes, document = .obj ms ∧ Entries.get? ms "fields" = some (.arr nodes) ∧
    List.Forall₂ (fun n f => Describes 0 n f ∧ f.Copyable 0) nodes form.fields ∧
    (form.fields.map Field.name).Nodup ∧
    LayoutValue ((Entries.get? ms "layout").getD .null) form.layout

/-- Whatever lies in the fields of a form is described by something in the document, which has what
passes from lists and objects to the values in them. -/
theorem DocumentOf.nested_of {P : Json → Prop} (hlist : ∀ vs, P (.arr vs) → ∀ v ∈ vs, P v)
    (hP : ∀ ms, P (.obj ms) → ∀ e ∈ ms, P e.2) {document : Json} {form : Form}
    (h : DocumentOf document form) (hdocument : P document) :
    ∀ f ∈ form.fields, ∀ g ∈ f.nested, ∃ level n, Describes level n g ∧ P n := by
  obtain ⟨ms, nodes, rfl, hnodes, hall, -, -⟩ := h
  intro f hf
  obtain ⟨n, hn, hdescribes, -⟩ := exists_left_of_mem hall f hf
  have hfields := hP ms hdocument _ (Entries.mem_of_get? hnodes)
  exact hdescribes.nested_of hP (hlist nodes hfields n hn)

theorem DocumentOf.describes {document : Json} {form : Form} (h : DocumentOf document form)
    {f g : Field} (hf : f ∈ form.fields) (hg : g ∈ f.nested) : ∃ level n, Describes level n g := by
  obtain ⟨level, n, hn, -⟩ := h.nested_of (P := fun _ => True) (fun _ _ _ _ => trivial)
    (fun _ _ _ _ => trivial) trivial f hf g hg
  exact ⟨level, n, hn⟩

end Description

open Description

namespace Layout

open Checked (Members)

theorem gutter?_eq_some_iff (v : Json) (g : Nat × Nat) : gutter? v = some g ↔ Gutter v g := by
  unfold gutter? Gutter
  split
  · rename_i a b
    simp only [Option.bind_eq_bind, Option.bind_eq_some_iff, Checked.natural?_eq_some_iff,
      Option.pure_def, Option.some.injEq, Json.arr.injEq, List.cons.injEq, and_true]
    constructor
    · intro h
      obtain ⟨m, hm, n, hn, rfl⟩ := h
      exact ⟨a, b, ⟨rfl, rfl⟩, hm, hn⟩
    · intro h
      obtain ⟨_, _, ⟨rfl, rfl⟩, hm, hn⟩ := h
      exact ⟨g.1, hm, g.2, hn, rfl⟩
  · rename_i hne
    apply iff_of_false (by simp)
    intro h
    obtain ⟨a, b, h, -⟩ := h
    exact hne a b h

theorem part_eq_ok_iff {α : Type} {form : Json → Option α} {relation : Json → α → Prop}
    (hform : ∀ v a, form v = some a ↔ relation v a) (hnull : ∀ a, ¬ relation .null a)
    {ms : Members} {key : String} {flaw : ShapeFlaw} {a : Option α} :
    part ms key form flaw = .ok a ↔ Says relation ms key a :=
  Checked.match_given_eq_ok_iff hform hnull

/-- The layout is read from the value for it. -/
theorem verify_eq_ok_iff {v : Json} {l : Option Layout} : verify v = .ok l ↔ LayoutValue v l := by
  have hpositive : ∀ n : Positive, ¬ WholeIn .null n := fun n => Checked.not_whole_null n.val
  have hgutter : ∀ g, ¬ Gutter .null g := by
    rintro g ⟨a, b, h, -⟩
    cases h
  cases v with
  | null =>
      cases l with
      | none => simp [verify, LayoutValue]
      | some l => simp [verify, LayoutValue]
  | obj ms =>
      simp only [verify, bind_eq_ok_iff, except_pure_eq_ok_iff,
        part_eq_ok_iff Checked.positive?_eq_some_iff hpositive,
        part_eq_ok_iff gutter?_eq_some_iff hgutter]
      constructor
      · intro h
        obtain ⟨columns, hc, mobileColumns, hm, gutter, hg, rfl⟩ := h
        exact ⟨ms, rfl, hc, hm, hg⟩
      · intro h
        cases l with
        | none => cases h
        | some l =>
            obtain ⟨_, hms, hl⟩ := h
            cases hms
            exact ⟨_, hl.columns, _, hl.mobileColumns, _, hl.gutter, rfl⟩
  | _ => cases l <;> simp [verify, LayoutValue]

/-- The authored form of a layout that was described describes it. -/
theorem layoutOf_authored {ms : Members} {l : Layout} (h : LayoutOf ms l) :
    ∃ authored, l.toJson = .obj authored ∧ LayoutOf authored l := by
  refine ⟨_, rfl, ?_⟩
  constructor
  · exact h.columns.authored (fun _ n _ => whole_natJson n.val) (by simp)
  · exact h.mobileColumns.authored (fun _ n _ => whole_natJson n.val) (by simp)
  · have hform : ∀ v g, Gutter v g → Gutter (.arr [natJson g.1, natJson g.2]) g :=
      fun _ g _ => ⟨_, _, rfl, whole_natJson g.1, whole_natJson g.2⟩
    exact h.gutter.authored hform (by simp)

end Layout

namespace Form

/-- Fields have different names, none of them seen before, exactly if the name of the first one is
new and the others are so with this name among those that were seen. -/
theorem nodup_names_cons_iff {f : Field} {fields : List Field} {seen : List String} :
    (((f :: fields).map Field.name).Nodup ∧ ∀ g ∈ f :: fields, g.name ∉ seen) ↔
      f.name ∉ seen ∧ (fields.map Field.name).Nodup ∧ ∀ g ∈ fields, g.name ∉ f.name :: seen := by
  rw [List.map_cons, List.nodup_cons, List.forall_mem_cons]
  constructor
  · intro h
    obtain ⟨⟨hname, hnodup⟩, hf, hnew⟩ := h
    refine ⟨hf, hnodup, fun g hg hmem => ?_⟩
    rcases List.mem_cons.mp hmem with heq | hmem
    · exact hname (heq ▸ List.mem_map_of_mem hg)
    · exact hnew g hg hmem
  · intro h
    obtain ⟨hf, hnodup, hnew⟩ := h
    refine ⟨⟨?_, hnodup⟩, hf, fun g hg hmem => hnew g hg (List.mem_cons_of_mem _ hmem)⟩
    intro hmem
    obtain ⟨g, hg, hname⟩ := List.mem_map.mp hmem
    exact hnew g hg (hname ▸ List.mem_cons_self)

section

variable [Host]

/-- Fields are verified one by one, and none has the name of one before it. -/
theorem verifyFields_eq_ok_iff {index : Nat} {seen : List String} {nodes : List Json}
    {fields : List Field} :
    (verifyFields index seen nodes).outcome = .ok fields ↔
      List.Forall₂ (fun n f => Describes 0 n f ∧ f.Copyable 0) nodes fields ∧
        (fields.map Field.name).Nodup ∧ ∀ f ∈ fields, f.name ∉ seen := by
  induction nodes generalizing index seen fields with
  | nil => cases fields <;> simp [verifyFields]
  | cons n rest ih =>
      simp only [verifyFields, Audit.outcome_bind_eq_ok_iff, Audit.outcome_mapError,
        mapError_eq_ok_iff, Field.verify_eq_ok_iff]
      constructor
      · intro h
        obtain ⟨f, hf, h⟩ := h
        by_cases hseen : seen.contains f.name = true
        · rw [if_pos hseen] at h
          cases h
        · rw [if_neg hseen] at h
          simp only [Audit.outcome_bind_eq_ok_iff, ih, Audit.outcome_pure, Except.ok.injEq] at h
          obtain ⟨fs, ⟨hall, hdistinct⟩, rfl⟩ := h
          have hnew : f.name ∉ seen := by simpa using hseen
          exact ⟨.cons hf hall, nodup_names_cons_iff.mpr ⟨hnew, hdistinct⟩⟩
      · intro h
        obtain ⟨hall, hdistinct⟩ := h
        cases hall with
        | @cons _ f _ fs hf hall =>
            obtain ⟨hnew, hdistinct⟩ := nodup_names_cons_iff.mp hdistinct
            refine ⟨f, hf, ?_⟩
            rw [if_neg (by simpa using hnew)]
            simp only [Audit.outcome_bind_eq_ok_iff, ih, Audit.outcome_pure, Except.ok.injEq]
            exact ⟨fs, ⟨hall, hdistinct⟩, rfl⟩

theorem verifyParts_eq_ok_iff {document : Json} {form : Form} :
    (verifyParts document).outcome = .ok form ↔ DocumentOf document form := by
  cases document with
  | obj ms =>
      simp only [verifyParts, DocumentOf, Json.obj.injEq, exists_and_left, exists_eq_left']
      split
      · rename_i nodes hnodes
        simp only [hnodes, Option.some.injEq, Json.arr.injEq, exists_eq_left',
          Audit.outcome_bind_eq_ok_iff, verifyFields_eq_ok_iff, Audit.outcome_ofExcept,
          mapError_eq_ok_iff, Layout.verify_eq_ok_iff, Audit.outcome_pure, Except.ok.injEq]
        constructor
        · intro h
          obtain ⟨fields, ⟨hall, hnodup, -⟩, layout, hl, _, -, rfl⟩ := h
          exact ⟨hall, hnodup, hl⟩
        · intro h
          obtain ⟨hall, hnodup, hl⟩ := h
          exact ⟨_, ⟨hall, hnodup, by simp⟩, _, hl, (), rfl, rfl⟩
      · rename_i hne
        apply iff_of_false (by simp)
        intro h
        obtain ⟨nodes, hnodes, -⟩ := h
        exact hne nodes hnodes
  | _ => simp [verifyParts, DocumentOf]

/-- A verified form is described by its authored form. -/
theorem documentOf_authored {document : Json} {form : Form} (h : DocumentOf document form) :
    DocumentOf form.toJson form := by
  obtain ⟨ms, nodes, -, -, hall, hnodup, hl⟩ := h
  refine ⟨_, form.fields.map Field.toJson, rfl, by simp [Entries.get?_cons], ?_, hnodup, ?_⟩
  · rw [List.forall₂_map_left_iff, List.forall₂_same]
    intro f hf
    obtain ⟨n, -, hn, hcopyable⟩ := exists_left_of_mem hall f hf
    exact ⟨hn.authored, hcopyable⟩
  · cases hlayout : form.layout with
    | none => simp [Entries.get?_cons, LayoutValue]
    | some l =>
        rw [hlayout] at hl
        obtain ⟨_, -, hl⟩ := hl
        obtain ⟨authored, hj, ha⟩ := Layout.layoutOf_authored hl
        exact ⟨authored, by simp [Entries.get?_cons, hj], ha⟩

/-- A form is what the verification of its authored form gives, and so is a field at any path. A
field that was verified, from a description or from a field, gives itself when it is verified, and
so does its authored form. -/
theorem verify_authored_eq_self :
    (∀ document form, (verifyParts document).outcome = .ok form →
      (verifyParts form.toJson).outcome = .ok form) ∧
    (∀ path other n f, (Field.verify path n).outcome = .ok f →
      (Field.verify other f.toJson).outcome = .ok f) ∧
    ∀ path other c f, (Field.verifyCandidate path c).outcome = .ok f →
      (Field.verifyCandidate other (.field f)).outcome = .ok f ∧
        (Field.verifyCandidate other (.description f.toJson)).outcome = .ok f := by
  have hfield : ∀ path other n f, (Field.verify path n).outcome = .ok f →
      (Field.verify other f.toJson).outcome = .ok f := by
    intro path other n f h
    rw [Field.verify_eq_ok_iff] at h ⊢
    exact ⟨h.1.authored, h.2⟩
  refine ⟨fun document form h => ?_, hfield, fun path other c f h => ?_⟩
  · rw [verifyParts_eq_ok_iff] at h ⊢
    exact documentOf_authored h
  · have hself := hfield path other c.node f h
    exact ⟨hself, hself⟩

end

attribute [local instance] Host.standard in
/-- A document with a null attribute, which is left out when the form is written again. -/
theorem verify_authored_stepped :
    let n := Json.obj [("name", .str "n"), ("type", .str "number"), ("label", .null),
      ("span", .int 12), ("step", .num (.float (.finite false 1022 0)))]
    let f := Field.leaf ⟨"n", none, none, none, none, some ⟨12, by decide⟩, none, none⟩
      (.number none none (some (.float (.finite false 1022 0)))) none
    ((verifyParts (.obj [("fields", .arr [n])])).outcome = .ok ⟨[f], none⟩ ∧
      (Field.verifyCandidate none (.description n)).outcome = .ok f) ∧
    (verifyParts (Form.toJson ⟨[f], none⟩)).outcome = .ok ⟨[f], none⟩ ∧
      (Field.verify none f.toJson).outcome = .ok f ∧
      (Field.verifyCandidate (some "inner") (.field f)).outcome = .ok f := by
  intro n f
  have hparts : (verifyParts (.obj [("fields", .arr [n])])).outcome = .ok ⟨[f], none⟩ := rfl
  have hfield : (Field.verifyCandidate none (.description n)).outcome = .ok f := rfl
  obtain ⟨hforms, hdescriptions, hcandidates⟩ := verify_authored_eq_self
  exact ⟨⟨hparts, hfield⟩, hforms _ _ hparts, hdescriptions none none n f hfield,
    (hcandidates none (some "inner") _ f hfield).1⟩

end Form

end Formwork
