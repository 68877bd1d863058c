import Formwork.Proofs.Description.Reports
import Formwork.Proofs.Resolution.Authored
import Formwork.Proofs.Resolution.Mirror
import Formwork.Proofs.Resolution.Verdict

/-!
# Reports and inputs

Verification reports a field after those that lie in it, and resolution describes it before them.
Both join the same keys to the same paths, so the fields that the verification of a document reports
are the inputs of its form, from the bottom up.

## Main results

* `reported_verifyParts`: what the verification of an accepted document reports are the paths and
  types of the inputs of its form, each once and after those below it.
-/

namespace Formwork

namespace Descriptor

mutual

/-- The inputs from the bottom up, each after those that it encloses. -/
def postorder : Descriptor → List Descriptor
  | .node w cs => postorderAll cs ++ [.node w cs]

/-- The inputs of several trees from the bottom up, one tree after another. -/
def postorderAll : List Descriptor → List Descriptor
  | [] => []
  | d :: rest => d.postorder ++ postorderAll rest

end

theorem postorderAll_eq_flatMap (ds : List Descriptor) :
    postorderAll ds = ds.flatMap postorder := by
  induction ds with
  | nil => rfl
  | cons d rest ih => rw [postorderAll, ih, List.flatMap_cons]

theorem postorder_eq_append (d : Descriptor) :
    d.postorder = d.children.flatMap postorder ++ [d] := by
  cases d with
  | node w cs => rw [postorder, postorderAll_eq_flatMap, children]

mutual

/-- From the bottom up there are the same inputs as in a walk. -/
theorem postorder_perm_walk : ∀ d : Descriptor, d.postorder.Perm d.walk
  | .node w cs => by
      rw [postorder, walk]
      exact (List.perm_append_singleton _ _).trans ((postorderAll_perm_walkAll cs).cons _)

theorem postorderAll_perm_walkAll : ∀ ds : List Descriptor, (postorderAll ds).Perm (walkAll ds)
  | [] => .nil
  | d :: rest => (postorder_perm_walk d).append (postorderAll_perm_walkAll rest)

end

/-- The path of an input and the type of its field. -/
def label (d : Descriptor) : String × FieldType :=
  (d.widget.path, d.widget.field.type)

end Descriptor

namespace Description

variable [Host]

theorem Describes.name_ne {level : Nat} {n : Json} {f : Field} (h : Describes level n f) :
    f.name ≠ "" := by
  cases h with
  | leaf _ attributes => exact attributes.name_ne
  | array _ attributes => exact attributes.name_ne
  | object _ attributes => exact attributes.name_ne

end Description

namespace Field

open Descriptor Description

/-- The labels of the inputs of a field are those of the inputs below it, and then its own. -/
theorem labels_describe (s : Surroundings) (p : Place) (f : Field) :
    (f.describe s p).postorder.map label =
      (f.children.flatMap fun e => (e.2.describe s (p.below f e)).postorder.map label) ++
        [(p.path, f.type)] := by
  rw [postorder_eq_append, children_describe, List.map_append, List.flatMap_map, List.map_flatMap,
    List.map_singleton, label, widget_describe]
  rfl

/-- If the verification accepts a field, it reports what the inputs of the field at the place are
labelled with. -/
def ReportedAt (s : Surroundings) (p : Place) (x : Audit Stop Field) : Prop :=
  ∀ f, x.outcome = .ok f → x.reported = (f.describe s p).postorder.map label

section Inner

variable {child : String → Json → Audit Stop Field} {s : Surroundings} {p : Place} {name : String}
  {ms : Checked.Members} {a : Attributes}
  (hchild : ∀ (q : Place) n, q.path ≠ "" → ReportedAt s q (child q.path n)) (hp : p.path ≠ "")

include hchild hp

/-- The properties report the labels of their inputs, one property after another. -/
theorem reported_propertiesOf {place : String × Field → Place}
    (hplace : ∀ e, (place e).path = p.path ++ "." ++ e.1)
    {nodes : List (String × Json)} {properties : List (String × Field)}
    (h : (propertiesOf child p.path name nodes).outcome = .ok properties) :
    (propertiesOf child p.path name nodes).reported =
      properties.flatMap fun e => (e.2.describe s (place e)).postorder.map label := by
  induction nodes generalizing properties with
  | nil =>
      cases h
      rfl
  | cons e rest ih =>
      obtain ⟨key, n⟩ := e
      rw [propertiesOf] at h ⊢
      by_cases hkey : key = ""
      · rw [if_pos hkey] at h
        cases h
      · rw [if_neg hkey] at h ⊢
        simp only [Audit.outcome_bind_eq_ok_iff, Audit.outcome_mapError, mapError_eq_ok_iff,
          Audit.outcome_pure, Except.ok.injEq] at h
        obtain ⟨f, hf, fs, hfs, rfl⟩ := h
        have hpath : joinPath p.path key = (place (key, f)).path := by
          rw [joinPath_of_ne hp, hplace]
        have hne : (place (key, f)).path ≠ "" := hpath ▸ joinPath_ne hp key
        rw [Audit.reported_bind_of_ok (mapError_eq_ok_iff.mpr hf), Audit.reported_bind_of_ok hfs,
          Audit.reported_mapError, ih hfs, List.flatMap_cons]
        rw [hpath] at hf ⊢
        rw [hchild _ n hne f hf]
        exact congrArg (_ ++ ·) (List.append_nil _)

variable [Host] {level : Nat}

/-- An array reports the labels of the inputs for its items. -/
theorem reported_arrayOf {f : Field}
    (h : (arrayOf level child p.path name ms a).outcome = .ok f) :
    (arrayOf level child p.path name ms a).reported =
      f.children.flatMap fun e => (e.2.describe s (p.below f e)).postorder.map label := by
  unfold arrayOf at h ⊢
  split at h
  · rename_i inside hinside
    by_cases hflat : Entries.get? inside "type" = some (.str FieldType.array.name)
    · rw [if_pos hflat] at h
      cases h
    · rw [if_neg hflat] at h ⊢
      simp only [Audit.outcome_bind_eq_ok_iff, Audit.outcome_mapError, mapError_eq_ok_iff] at h
      obtain ⟨items, hitems, count, hcount, u, hdefault, hstore⟩ := h
      obtain ⟨rfl, -⟩ := store_eq_ok_iff.mp hstore
      have hpath : joinPath p.path "items" = (p.items items).path := by
        rw [joinPath_of_ne hp, String.append_assoc]
        rfl
      have hne : (p.items items).path ≠ "" := hpath ▸ joinPath_ne hp "items"
      rw [hpath] at hitems ⊢
      have hquiet := compositional_quiet ms p.path name
      rw [Audit.reported_bind_of_ok (mapError_eq_ok_iff.mpr hitems),
        (hquiet.checked (Checked.blames_bounds _ _ _)).reported_bind hcount,
        (hquiet.arrayDefault items count).reported_bind hdefault, quiet_store, List.append_nil,
        Audit.reported_mapError, hchild _ _ hne items hitems]
      exact (List.append_nil _).symm
  · cases h

/-- An object reports the labels of the inputs for its properties. -/
theorem reported_objectOf {f : Field}
    (h : (objectOf level child p.path name ms a).outcome = .ok f) :
    (objectOf level child p.path name ms a).reported =
      f.children.flatMap fun e => (e.2.describe s (p.below f e)).postorder.map label := by
  unfold objectOf at h ⊢
  split at h
  · rename_i nodes hnodes
    obtain ⟨properties, hproperties, h⟩ := Audit.outcome_bind_eq_ok_iff.mp h
    have hplace : ∀ e : String × Field, (p.property e.1).path = p.path ++ "." ++ e.1 := fun _ => rfl
    rw [Audit.reported_bind_of_ok hproperties, reported_propertiesOf hchild hp hplace hproperties]
    have hstore := quiet_store level (.object a properties (Checked.authoredDefault ms))
    cases hdefault : Checked.authoredDefault ms with
    | none =>
        rw [hdefault] at h hstore
        obtain ⟨rfl, -⟩ := store_eq_ok_iff.mp h
        exact (congrArg (_ ++ ·) hstore).trans (List.append_nil _)
    | some v =>
        rw [hdefault] at h hstore
        cases v with
        | obj es =>
            obtain ⟨u, hentries, h⟩ := Audit.outcome_bind_eq_ok_iff.mp h
            obtain ⟨rfl, -⟩ := store_eq_ok_iff.mp h
            have hsome : (Entries.get? ms "defaultValue").isSome = true :=
              Option.isSome_iff_exists.mpr ⟨_, hdefault⟩
            have hquiet := ((compositional_quiet ms p.path name).defaultEntries hsome properties
              es).bind fun _ => hstore
            exact (congrArg (_ ++ ·) hquiet).trans (List.append_nil _)
        | _ => cases h
  · cases h

end Inner

section Level

variable {child : String → Json → Audit Stop Field} {level : Nat} {s : Surroundings} {p : Place}
  {name : String} {ms : Checked.Members} {a : Attributes} {t : FieldType} {f : Field}

variable [Host]

/-- What a type adds is a field of the type with the attributes. -/
theorem type_of_payload
    (hchild : ∀ path n f, (child path n).outcome = .ok f ↔
      Describes (level + 1) n f ∧ f.Copyable (level + 1))
    {path : String} (h : (payload level child path name ms a t).outcome = .ok f) :
    f.type = t ∧ f.attributes = a := by
  rw [payload_eq_ok_iff hchild fun n f h => h.1.type] at h
  cases t with
  | array =>
      obtain ⟨_, _, _, -, -, -, -, -, rfl, -⟩ := h
      exact ⟨rfl, rfl⟩
  | object =>
      obtain ⟨_, _, -, -, -, -, -, rfl, -⟩ := h
      exact ⟨rfl, rfl⟩
  | _ =>
      obtain ⟨l, hl, -, -, rfl, -⟩ := h
      exact ⟨hl, rfl⟩

/-- What a type adds reports what lies below the field that it gives. -/
theorem reported_payload
    (hchild : ∀ path n f, (child path n).outcome = .ok f ↔
      Describes (level + 1) n f ∧ f.Copyable (level + 1))
    (hreported : ∀ (q : Place) n, q.path ≠ "" → ReportedAt s q (child q.path n))
    (hp : p.path ≠ "") (h : (payload level child p.path name ms a t).outcome = .ok f) :
    (payload level child p.path name ms a t).reported =
      f.children.flatMap fun e => (e.2.describe s (p.below f e)).postorder.map label := by
  have hleaf : LeafFrom level ms a t f → f.children = [] := by
    intro hf
    obtain ⟨l, -, -, -, rfl, -⟩ := hf
    rfl
  have hfield := (payload_eq_ok_iff hchild fun n f h => h.1.type).mp h
  cases t with
  | array => exact reported_arrayOf hreported hp h
  | object => exact reported_objectOf hreported hp h
  | _ =>
      rw [hleaf hfield]
      exact (compositional_quiet ms p.path name).payload_leaf (by decide) (by decide)

/-- A field is reported after what its type adds. -/
theorem reported_verifyNode {path : Option String} (ha : AttributesOf ms t a)
    (h : (payload level child (path.getD a.name) a.name ms a t).outcome = .ok f) :
    (verifyNode level child path (.obj ms)).reported =
      (payload level child (path.getD a.name) a.name ms a t).reported ++
        [(path.getD a.name, t)] := by
  have hname := nameOf?_eq_some_iff.mpr ⟨ha.name, ha.name_ne⟩
  have htype := typeOf?_eq_some_iff.mpr ha.type
  have hshared : Checked.attributes ms a.name = .ok a :=
    Checked.attributes_eq_ok_iff.mpr ⟨rfl, ha.shared⟩
  simp only [verifyNode, hname, htype, checked, hshared]
  exact (Audit.quiet_pure a).reported_bind rfl _ |>.trans (Audit.reported_bind_of_ok h _)

end Level

variable [Host]

/-- The verification of a description reports what the inputs of its field are labelled with, from
the bottom up. -/
theorem reported_verifyBelow {levels level : Nat} (hlevels : level + levels = nestingLimit + 1)
    {s : Surroundings} {path : Option String} {n : Json} {f : Field} {p : Place}
    (h : (verifyBelow levels path n).outcome = .ok f) (hpath : p.path = path.getD f.name)
    (hp : p.path ≠ "") :
    (verifyBelow levels path n).reported = (f.describe s p).postorder.map label := by
  -- the surroundings stay the same at all levels, since no label depends on them
  induction levels generalizing level path n f p with
  | zero => cases h
  | succ levels ih =>
      have hlevels' : level + 1 + levels = nestingLimit + 1 := by omega
      have hchild : ∀ path n f, (verifyBelow levels (some path) n).outcome = .ok f ↔
          Describes (level + 1) n f ∧ f.Copyable (level + 1) :=
        fun path n f => verifyBelow_eq_ok_iff hlevels'
      have hreported : ∀ (q : Place) n, q.path ≠ "" →
          ReportedAt s q (verifyBelow levels (some q.path) n) :=
        fun q n hq f hf => ih hlevels' hf rfl hq
      rw [verifyBelow_succ hlevels] at h ⊢
      obtain ⟨ms, a, t, rfl, ha, hpayload⟩ := (verifyNode_eq_iff (by simp)).mp h
      obtain ⟨rfl, rfl⟩ := type_of_payload hchild hpayload
      have hname : path.getD f.attributes.name = p.path := hpath.symm
      rw [reported_verifyNode ha hpayload, labels_describe]
      rw [hname] at hpayload ⊢
      rw [reported_payload hchild hreported hp hpayload]

end Field

namespace Form

open Descriptor Description

variable {document : Json} {form : Form}

section

variable [Host]

theorem reported_verifyFields (s : Surroundings) {index : Nat} {seen : List String}
    {nodes : List Json} {fields : List Field}
    (h : (verifyFields index seen nodes).outcome = .ok fields) :
    (verifyFields index seen nodes).reported =
      fields.flatMap fun f => (f.describe s (Place.top f.name)).postorder.map label := by
  induction nodes generalizing index seen fields with
  | nil =>
      cases h
      rfl
  | cons n rest ih =>
      rw [verifyFields] at h ⊢
      obtain ⟨f, hf, h⟩ := Audit.outcome_bind_eq_ok_iff.mp h
      rw [Audit.reported_bind_of_ok hf, Audit.reported_mapError]
      rw [Audit.outcome_mapError, mapError_eq_ok_iff] at hf
      by_cases hseen : seen.contains f.name = true
      · rw [if_pos hseen] at h
        cases h
      · rw [if_neg hseen] at h ⊢
        obtain ⟨fs, hfs, h⟩ := Audit.outcome_bind_eq_ok_iff.mp h
        cases h
        have hname : f.name ≠ "" := (Field.verify_eq_ok_iff.mp hf).1.name_ne
        have hreported : (Field.verify none n).reported =
            (f.describe s (Place.top f.name)).postorder.map label :=
          Field.reported_verifyBelow (Nat.zero_add _) hf rfl hname
        rw [Audit.reported_bind_of_ok hfs, ih hfs, hreported, List.flatMap_cons]
        exact congrArg (_ ++ ·) (List.append_nil _)

/-- What the verification of an accepted document reports are the labels of the inputs of its form,
from the bottom up. -/
theorem reported_verifyParts (h : (verifyParts document).outcome = .ok form) (options : Options)
    (values : InitialValues) :
    (verifyParts document).reported = (postorderAll (form.describe options values)).map label := by
  cases document with
  | obj ms =>
      simp only [verifyParts] at h ⊢
      split at h
      · rename_i nodes hnodes
        simp only [Audit.outcome_bind_eq_ok_iff, Audit.outcome_ofExcept, Audit.outcome_note,
          Audit.outcome_pure, Except.ok.injEq] at h
        obtain ⟨fields, hfields, layout, hlayout, -, -, rfl⟩ := h
        have hquiet : (Audit.ofExcept ((Layout.verify
          ((Entries.get? ms "layout").getD .null)).mapError
            fun flaw => Stop.failure (.shape flaw none))).Quiet := rfl
        rw [Audit.reported_bind_of_ok hfields, reported_verifyFields _ hfields,
          hquiet.reported_bind hlayout, describe, postorderAll_eq_flatMap, List.flatMap_map,
          List.map_flatMap]
        exact List.append_nil _
      · cases h
  | _ => cases h

/-- With any options and values of a caller that can be copied, an accepted document is resolved,
the fields that its verification reports are the inputs from the bottom up, and each path that is
reported finds an input, itself reported. -/
theorem reported_eq_postorder (h : (verifyParts document).outcome = .ok form) (options : Options)
    {initial : Overrides} (hcopyable : copyable (initial.map .obj) = true) :
    ∃ r, (form.resolveWith options (initial.map .obj)).outcome = .ok r ∧
      (verifyParts document).reported =
        (postorderAll r.tree).map (fun d => (d.widget.path, d.widget.field.type)) ∧
      (postorderAll r.tree).Perm r.walk ∧
      ∀ e ∈ (verifyParts document).reported, ∃ d, r.find? e.1 = some d ∧ d.widget.path = e.1 ∧
        (e.1, d.widget.field.type) ∈ (verifyParts document).reported := by
  obtain ⟨r, hr⟩ := resolveWith_of_documentOf (verifyParts_eq_ok_iff.mp h) options hcopyable
  obtain ⟨-, -, -, htree⟩ := eq_of_resolveWith hr
  have hreported : (verifyParts document).reported = (postorderAll r.tree).map label := by
    rw [htree]
    exact reported_verifyParts h options r.values
  have hperm : (postorderAll r.tree).Perm r.walk := postorderAll_perm_walkAll r.tree
  refine ⟨r, hr, hreported, hperm, fun e he => ?_⟩
  rw [hreported] at he ⊢
  obtain ⟨d, hd, rfl⟩ := List.mem_map.mp he
  have hsome : (r.walk.find? fun e => e.widget.path == d.widget.path).isSome = true :=
    List.find?_isSome.mpr ⟨d, hperm.mem_iff.mp hd, beq_self_eq_true _⟩
  obtain ⟨found, hfound⟩ := Option.isSome_iff_exists.mp hsome
  have hpath : found.widget.path = d.widget.path := by simpa using List.find?_some hfound
  have hmem : found ∈ postorderAll r.tree := hperm.mem_iff.mpr (List.mem_of_find?_eq_some hfound)
  exact ⟨found, hfound, hpath, List.mem_map.mpr ⟨found, hmem, Prod.ext hpath rfl⟩⟩

end

/-- A form with an array of objects in an object, and a date after it. -/
def guestForm : Form :=
  ⟨[.object (.named "party") [("guests", .array (.named "list") (.object (.named "guest")
      [("name", .leaf (.named "text") (.string ⟨none, none⟩) none),
        ("vegan", .leaf (.named "vegan") (.checkbox none) none)] none) ⟨none, none⟩ none)] none,
    .leaf (.named "day") (.date none none) (some (.str "2024-05-06"))], none⟩

attribute [local instance] Host.standard in
/-- The six fields of the form are reported from the bottom up. -/
theorem reported_guests :
    (verifyParts guestForm.toJson).reported = [("party.guests.items.name", .string),
      ("party.guests.items.vegan", .checkbox), ("party.guests.items", .object),
      ("party.guests", .array), ("party", .object), ("day", .date)] ∧
    ∃ r, (guestForm.resolveWith .standard ((none : Overrides).map .obj)).outcome = .ok r ∧
      (verifyParts guestForm.toJson).reported =
        (postorderAll r.tree).map (fun d => (d.widget.path, d.widget.field.type)) := by
  have hverify : (verifyParts guestForm.toJson).outcome = .ok guestForm := rfl
  have hcopyable : copyable ((none : Overrides).map .obj) = true := rfl
  obtain ⟨r, hr, hreported, -⟩ := reported_eq_postorder hverify .standard hcopyable
  exact ⟨rfl, r, hr, hreported⟩

end Form

end Formwork
