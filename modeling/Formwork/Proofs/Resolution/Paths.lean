import Formwork.Proofs.Description.Numbers
import Formwork.Proofs.Json.Reader
import Formwork.Proofs.Resolution.Authored
import Formwork.Proofs.Resolution.Mirror
import Mathlib.Data.List.Nodup

/-!
# Paths of inputs

An input is looked up by its path, which joins the keys on its way from the top with dots. The ways
differ, but the paths do only if no two ways are joined to the same text. That can happen as soon
as a key holds a dot itself.

## Main results

* `resolveSource_identifies_iff`: each input is found by its path exactly if no two ways are joined
  to the same path, which is so if no key holds a dot.
* `dottedKey_not_identifies`: a name with a dot takes the path of a property.
-/

namespace Formwork

namespace Field

mutual

/-- The keys on the way from a field to each that lies in it, in the order of `nested`. -/
def routes : Field → List (List String)
  | .leaf _ _ _ => [[]]
  | .array _ items _ _ => [] :: items.routes.map ("items" :: ·)
  | .object _ properties _ => [] :: routesIn properties

/-- The keys on the way to all that lie in properties, those of the properties included. -/
def routesIn : List (String × Field) → List (List String)
  | [] => []
  | (key, f) :: rest => f.routes.map (key :: ·) ++ routesIn rest

end

theorem routesIn_eq_flatMap (properties : List (String × Field)) :
    routesIn properties = properties.flatMap fun e => e.2.routes.map (e.1 :: ·) := by
  induction properties with
  | nil => rfl
  | cons e rest ih => rw [routesIn, ih, List.flatMap_cons]

theorem routes_eq_cons (f : Field) :
    f.routes = [] :: f.children.flatMap fun e => e.2.routes.map (e.1 :: ·) := by
  cases f with
  | leaf a l d => rfl
  | array a items count d => simp [routes, children]
  | object a properties d => rw [routes, routesIn_eq_flatMap, children]

/-- Ways that begin with different keys are different, and those behind one key if they go on
differently. -/
theorem nodup_flatMap_cons {α : Type} {entries : List α} {key : α → String}
    {ways : α → List (List String)} (hkeys : (entries.map key).Nodup)
    (hways : ∀ e ∈ entries, (ways e).Nodup) :
    (entries.flatMap fun e => (ways e).map (key e :: ·)).Nodup := by
  rw [List.nodup_flatMap]
  constructor
  · intro e he
    exact (hways e he).map (List.cons_injective)
  · apply (List.pairwise_map.mp hkeys).imp
    intro e e' hne way hway hway'
    obtain ⟨_, _, rfl⟩ := List.mem_map.mp hway
    obtain ⟨_, _, heq⟩ := List.mem_map.mp hway'
    exact hne (List.cons.inj heq).1.symm

/-- No two ways are the same if the keys below each field are different. -/
theorem nodup_routes {f : Field} (h : ∀ g ∈ f.nested, (Entries.keys g.children).Nodup) :
    f.routes.Nodup := by
  induction f using induct_children with
  | step f ih =>
      rw [nested_eq_cons, List.forall_mem_cons] at h
      rw [routes_eq_cons, List.nodup_cons]
      constructor
      · simp
      · apply nodup_flatMap_cons h.1
        intro e he
        exact ih e he fun g hg => h.2 g (List.mem_flatMap.mpr ⟨e, he, hg⟩)

/-- The path of a way: its keys, joined with dots. -/
def pathOf (way : List String) : String :=
  ".".intercalate way

theorem pathOf_append_singleton {way : List String} (h : way ≠ []) (key : String) :
    pathOf (way ++ [key]) = pathOf way ++ "." ++ key := by
  rw [pathOf, String.intercalate_append_of_ne_nil h (List.cons_ne_nil _ _),
    String.intercalate_singleton]
  rfl

/-- The path of a way of keys without dots tells the way. -/
theorem pathOf_injective {way way' : List String} (hne : way ≠ []) (hne' : way' ≠ [])
    (h : ∀ key ∈ way, '.' ∉ key.toList) (h' : ∀ key ∈ way', '.' ∉ key.toList)
    (heq : pathOf way = pathOf way') : way = way' := by
  have hsplit : ∀ {way : List String}, way ≠ [] → (∀ key ∈ way, '.' ∉ key.toList) →
      (pathOf way).toList.splitOn '.' = way.map String.toList := by
    intro way hne h
    rw [pathOf, String.toList_intercalate]
    apply List.splitOn_intercalate
    · simpa using h
    · simpa using hne
  have hkeys : way.map String.toList = way'.map String.toList := by
    rw [← hsplit hne h, ← hsplit hne' h', heq]
  exact List.map_injective_iff.mpr (fun _ _ => String.toList_injective) hkeys

/-- The paths of the inputs of a field are those of the ways to what lies in it. -/
theorem paths_describe (s : Surroundings) {p : Place} (f : Field) {way : List String}
    (hne : way ≠ []) (hpath : p.path = pathOf way) :
    (f.describe s p).walk.map (fun d => d.widget.path) =
      f.routes.map fun rest => pathOf (way ++ rest) := by
  induction f using induct_children generalizing p way with
  | step f ih =>
      have hbelow : ∀ e ∈ f.children, (e.2.describe s (p.below f e)).walk.map
          (fun d => d.widget.path) = (e.2.routes.map (e.1 :: ·)).map
            fun rest => pathOf (way ++ rest) := by
        intro e he
        have hplace : (p.below f e).path = pathOf (way ++ [e.1]) := by
          rw [p.path_below he, hpath, pathOf_append_singleton hne]
        rw [ih e he (List.append_ne_nil_of_left_ne_nil hne _) hplace, List.map_map]
        refine List.map_congr_left fun rest _ => ?_
        rw [Function.comp_apply, List.append_assoc, List.singleton_append]
      rw [Descriptor.walk_eq_cons, routes_eq_cons, children_describe, List.map_cons,
        widget_describe, List.flatMap_map, List.map_flatMap, List.map_cons, List.map_flatMap,
        List.flatMap_congr hbelow, List.append_nil, ← hpath]
      rfl

end Field

namespace Resolution

/-- Where the first input at a path is met. -/
def position? (r : Resolution) (path : String) : Option Nat :=
  r.walk.findIdx? fun d => d.widget.path == path

theorem find?_of_position? {r : Resolution} {path : String} {i : Nat}
    (h : r.position? path = some i) : r.find? path = r.walk[i]? := by
  rw [find?, List.find?_eq_bind_findIdx?_getElem?]
  exact congrArg (Option.bind · _) h

/-- Every input is the one that is found by its path. -/
def Identifies (r : Resolution) : Prop :=
  ∀ i d, r.walk[i]? = some d → r.find? d.widget.path = some d ∧ r.position? d.widget.path = some i

/-- Every input is found by its path exactly if no two inputs have one path. -/
theorem identifies_iff_nodup {r : Resolution} :
    r.Identifies ↔ (r.walk.map fun d => d.widget.path).Nodup := by
  rw [List.Nodup, List.pairwise_map, List.pairwise_iff_getElem]
  constructor
  · intro h i j hi hj hij heq
    have hposition := (h j _ (List.getElem?_eq_getElem hj)).2
    obtain ⟨_, _, hfirst⟩ := List.findIdx?_eq_some_iff_getElem.mp hposition
    exact hfirst i hij (beq_iff_eq.mpr heq)
  · intro h i d hd
    obtain ⟨hi, rfl⟩ := List.getElem?_eq_some_iff.mp hd
    have hposition : r.position? r.walk[i].widget.path = some i := by
      apply List.findIdx?_eq_some_iff_getElem.mpr
      refine ⟨hi, beq_self_eq_true _, fun j hj heq => ?_⟩
      exact h j i (Nat.lt_trans hj hi) hi hj (beq_iff_eq.mp heq)
    exact ⟨(find?_of_position? hposition).trans hd, hposition⟩

end Resolution

open Description (DocumentOf)

namespace Form

/-- The keys on the way from the top to each field of a form. -/
def routes (form : Form) : List (List String) :=
  form.fields.flatMap fun f => f.routes.map (f.name :: ·)

theorem ne_nil_of_mem_routes {form : Form} {way : List String} (h : way ∈ form.routes) :
    way ≠ [] := by
  obtain ⟨f, -, hway⟩ := List.mem_flatMap.mp h
  obtain ⟨rest, -, rfl⟩ := List.mem_map.mp hway
  exact List.cons_ne_nil _ _

section

variable [Host]

/-- The ways to the fields of a regular document are different. -/
theorem nodup_routes_of_documentOf {p : Number → Prop} {document : Json} {form : Form}
    (h : DocumentOf document form) (hdocument : document.Regular p) : form.routes.Nodup := by
  have hnested := h.nested_regular hdocument
  obtain ⟨ms, nodes, -, -, -, hnames, -⟩ := h
  apply Field.nodup_flatMap_cons hnames
  intro f hf
  apply Field.nodup_routes
  intro g hg
  obtain ⟨level, n, hn, hregular⟩ := hnested f hf g hg
  exact hn.nodup_children hregular

omit [Host] in
/-- The paths of the inputs of a form are those of the ways to its fields. -/
theorem paths_describe (options : Options) (values : InitialValues) (form : Form) :
    (Descriptor.walkAll (form.describe options values)).map (fun d => d.widget.path) =
      form.routes.map Field.pathOf := by
  rw [describe, Descriptor.walkAll_eq_flatMap, List.flatMap_map, List.map_flatMap, routes,
    List.map_flatMap]
  apply List.flatMap_congr
  intro f _
  have htop : (Place.top f.name).path = Field.pathOf [f.name] :=
    String.intercalate_singleton.symm
  rw [Field.paths_describe _ f (List.cons_ne_nil _ _) htop, List.map_map]
  rfl

/-- Each input of a valid resolution is found by its path exactly if different ways have different
paths, and they have if no name or key holds a dot. -/
theorem resolveSource_identifies_iff {options : Options} {initial : Overrides} {source : Source}
    {r : Resolution}
    (h : (resolveSource options (initial.map .obj) source).outcome = .ok (.ok r)) :
    (r.Identifies ↔ ∀ way ∈ r.form.routes, ∀ way' ∈ r.form.routes,
      Field.pathOf way = Field.pathOf way' → way = way') ∧
    ((∀ way ∈ r.form.routes, ∀ key ∈ way, '.' ∉ key.toList) → r.Identifies) := by
  have hr : Resolves options initial source r := resolves_of_resolveSource h
  obtain ⟨document, hload, hdocument⟩ := hr.document
  have hways : r.form.routes.Nodup :=
    nodup_routes_of_documentOf hdocument (Source.regular_load hload)
  have hiff : r.Identifies ↔ ∀ way ∈ r.form.routes, ∀ way' ∈ r.form.routes,
      Field.pathOf way = Field.pathOf way' → way = way' := by
    rw [Resolution.identifies_iff_nodup, Resolution.walk, hr.tree, paths_describe]
    exact List.nodup_map_iff_inj_on hways
  refine ⟨hiff, fun hdots => hiff.mpr fun way hway way' hway' heq => ?_⟩
  exact Field.pathOf_injective (ne_nil_of_mem_routes hway) (ne_nil_of_mem_routes hway')
    (hdots way hway) (hdots way' hway') heq

end

/-- A form with an array of objects. -/
def rowsForm : Form :=
  ⟨[.array (.named "rows") (.object (.named "row")
    [("unit", .leaf (.named "unit") (.string ⟨none, none⟩) none)] none) ⟨none, none⟩ none], none⟩

attribute [local instance] Host.standard in
/-- Each of the three inputs for the rows is found by its path. -/
theorem resolveSource_identifies_rows :
    ∃ r, (resolveSource .standard ((none : Overrides).map .obj) rowsForm.source).outcome =
        .ok (.ok r) ∧
      r.form.routes = [["rows"], ["rows", "items"], ["rows", "items", "unit"]] ∧
      r.Identifies := by
  have hlegible : rowsForm.toJson.Regular Number.Legible := by
    simp [rowsForm, Attributes.named, toJson, Field.toJson, Field.propertiesToJson,
      Attributes.members, Bounds.members, Leaf.members, memberOf, FieldType.name, Entries.keys]
  have hverify := verify_source (by decide) hlegible rfl
  obtain ⟨values, hresolved⟩ := @exists_resolveSource _ _ _ hverify .standard none rfl
  refine ⟨_, hresolved, rfl, (resolveSource_identifies_iff hresolved).2 ?_⟩
  show ∀ way ∈ rowsForm.routes, ∀ key ∈ way, '.' ∉ key.toList
  decide

/-- A form with a property and a field whose name is the path of the property. -/
def dottedKeyForm : Form :=
  ⟨[.object (.named "a") [("b", .leaf (.named "b") (.string ⟨none, none⟩) none)] none,
    .leaf (.named "a.b") (.number none none none) none], none⟩

attribute [local instance] Host.standard in
/-- What is found by the path of the number is the text. -/
theorem dottedKey_not_identifies :
    ∃ r d e, (resolveSource .standard none dottedKeyForm.source).outcome = .ok (.ok r) ∧
      d ∈ r.walk ∧ d.widget.path = "a.b" ∧ d.widget.field.type = .number ∧
      r.find? d.widget.path = some e ∧ e.widget.field.type = .string ∧ ¬ r.Identifies := by
  have hlegible : dottedKeyForm.toJson.Regular Number.Legible := by
    simp [dottedKeyForm, Attributes.named, toJson, Field.toJson, Field.propertiesToJson,
      Attributes.members, Bounds.members, Leaf.members, memberOf, FieldType.name, Entries.keys]
  have hverify := verify_source (by decide) hlegible rfl
  obtain ⟨values, hresolved⟩ := @exists_resolveSource _ _ _ hverify .standard none rfl
  refine ⟨_, _, _, hresolved, List.mem_of_getElem? (i := 2) rfl, rfl, rfl, rfl, rfl, fun h => ?_⟩
  have htype := congrArg (Option.map fun e => e.widget.field.type) (h 2 _ rfl).1
  cases htype

end Form

end Formwork
