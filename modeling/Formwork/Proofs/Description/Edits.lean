import Formwork.Proofs.Description.Acceptance
import Formwork.Proofs.Json.Regular
import Mathlib.Data.List.Nodup
import Mathlib.Logic.Relation

/-!
# Edits of a document

Three edits change what a document looks like and not what it says: the members of an object are put
in another order, the fields of the document are put in another order, and a member that nothing
reads is added. They are made at any depth, and which members are read depends on what the object
around them stands for.
-/

namespace Formwork

/-- No object in the value has a key twice. -/
abbrev Json.Distinct (v : Json) : Prop :=
  v.Regular fun _ => True

namespace Description

open Checked (Members)

/-- What a value in a document stands for. -/
inductive Part where
  | document
  | layout
  | fields
  | field
  | card
  | options
  | option
  | properties
  | value
  deriving DecidableEq, Repr

/-- The members that are read of every field. -/
def attributeKeys : List (String × Part) :=
  [("name", .value), ("type", .value), ("label", .value), ("required", .value),
    ("placeholder", .value), ("newline", .value), ("span", .value), ("rules", .value),
    ("card", .card), ("defaultValue", .value)]

/-- The members that are read of the fields of a type besides. -/
def payloadKeys : FieldType → List (String × Part)
  | .string => [("minLength", .value), ("maxLength", .value)]
  | .longtext => [("minLength", .value), ("maxLength", .value), ("rows", .value)]
  | .number => [("min", .value), ("max", .value), ("step", .value)]
  | .checkbox => [("defaultChecked", .value)]
  | .radio => [("options", .options)]
  | .select => [("options", .options), ("mode", .value)]
  | .upload => [("multiple", .value), ("maxCount", .value), ("maxSize", .value),
      ("accept", .value), ("listType", .value)]
  | .date => [("format", .value), ("showTime", .value)]
  | .json => []
  | .array => [("items", .field), ("minItems", .value), ("maxItems", .value)]
  | .object => [("properties", .properties)]

namespace Part

/-- What the member of an object stands for, none if it is not read. What is read of a field depends
on its type. -/
def member? (ms : Members) (key : String) : Part → Option Part
  | .document => [("fields", .fields), ("layout", .layout)].lookup key
  | .layout => [("columns", .value), ("mobileColumns", .value), ("gutter", .value)].lookup key
  | .field => (attributeKeys ++ ((Field.typeOf? ms).map payloadKeys).getD []).lookup key
  | .card => [("title", .value), ("description", .value), ("bordered", .value), ("size", .value),
      ("extra", .value)].lookup key
  | .option => [("label", .value), ("value", .value)].lookup key
  | .properties => some .field
  | .fields | .options | .value => some .value

/-- What the elements of a list stand for. -/
def element : Part → Part
  | .fields => .field
  | .options => .option
  | _ => .value

end Part

/-- A value that stands for a part of a document is edited in one place. -/
inductive Edit : Part → Json → Json → Prop
  /-- The members of an object are put in another order. -/
  | order {part ms ms'} (perm : ms.Perm ms') : Edit part (.obj ms) (.obj ms')
  /-- The fields of a document are put in another order. -/
  | fields {nodes nodes'} (perm : nodes.Perm nodes') : Edit .fields (.arr nodes) (.arr nodes')
  /-- A member is added that nothing reads. -/
  | unread {part ms key v} (unread : part.member? ms key = none) (new : key ∉ Entries.keys ms)
      (distinct : v.Distinct) : Edit part (.obj ms) (.obj (ms ++ [(key, v)]))
  /-- A member is edited as what it stands for; one that is not read, as any value. -/
  | member {part before after key v v'}
      (edit : Edit ((part.member? (before ++ (key, v) :: after) key).getD .value) v v') :
      Edit part (.obj (before ++ (key, v) :: after)) (.obj (before ++ (key, v') :: after))
  /-- An element of a list is edited. -/
  | element {part before after v v'} (edit : Edit part.element v v') :
      Edit part (.arr (before ++ v :: after)) (.arr (before ++ v' :: after))

/-- The documents differ by edits, in any number and in either direction. -/
def Rewritten : Json → Json → Prop :=
  Relation.EqvGen (Edit .document)

/-- Edits keep the keys of each object different. -/
theorem Edit.distinct_iff {part : Part} {v v' : Json} (h : Edit part v v') :
    v.Distinct ↔ v'.Distinct := by
  induction h with
  | order perm =>
      have hkeys : (Entries.keys _).Perm (Entries.keys _) := perm.map Prod.fst
      simp only [Json.Distinct, Json.regular_obj, hkeys.nodup_iff, perm.mem_iff]
  | fields perm => simp only [Json.Distinct, Json.regular_arr, perm.mem_iff]
  | @unread part ms key v unread new distinct =>
      have hkeys : Entries.keys (ms ++ [(key, v)]) = Entries.keys ms ++ [key] := by
        simp [Entries.keys]
      have hall : (∀ e ∈ ms ++ [(key, v)], e.2.Distinct) ↔ ∀ e ∈ ms, e.2.Distinct := by
        simp only [List.forall_mem_append, List.forall_mem_singleton, distinct, and_true]
      have hnew : (Entries.keys ms ++ [key]).Nodup ↔ (Entries.keys ms).Nodup := by
        rw [← List.concat_eq_append, List.nodup_concat]
        exact and_iff_right new
      rw [Json.Distinct, Json.Distinct, Json.regular_obj, Json.regular_obj, hkeys, hall, hnew]
  | member edit ih =>
      simp only [Json.Distinct, Json.regular_obj, Entries.keys_append_cons, List.forall_mem_append,
        List.forall_mem_cons] at ih ⊢
      rw [ih]
  | element edit ih =>
      simp only [Json.Distinct, Json.regular_arr, List.forall_mem_append,
        List.forall_mem_cons] at ih ⊢
      rw [ih]

theorem Rewritten.distinct_iff {d d' : Json} (h : Rewritten d d') : d.Distinct ↔ d'.Distinct := by
  induction h with
  | rel d d' edit => exact edit.distinct_iff
  | refl d => exact Iff.rfl
  | symm d d' _ ih => exact ih.symm
  | trans d d' d'' _ _ ih ih' => exact ih.trans ih'

end Description

end Formwork
