import Formwork.Field.Authored
import Formwork.Verification.Field

/-!
# Forms

A form is a sequence of fields with different names, in the order in which they are
shown, and may have a layout. A document is turned into a form, or refused at its first
failure: the fields come first, in order, and then the layout.
-/

namespace Formwork

/-- The layout of a form: columns on wide and on narrow screens, and the space between fields. -/
structure Layout where
  columns : Option Positive
  mobileColumns : Option Positive
  gutter : Option (Nat × Nat)
  deriving DecidableEq, Repr

/-- A verified form. -/
structure Form where
  fields : List Field
  layout : Option Layout
  deriving Repr

namespace Layout

/-- A member that is absent or null, or has a value of the right form. -/
def part {α : Type} (ms : Checked.Members) (key : String) (form : Json → Option α)
    (flaw : ShapeFlaw) : Except ShapeFlaw (Option α) :=
  match Checked.given ms key with
  | none => .ok none
  | some v =>
    match form v with
    | some a => .ok (some a)
    | none => .error flaw

/-- The value is a pair of whole numbers from zero on. -/
def gutter? : Json → Option (Nat × Nat)
  | .arr [a, b] => return (← Checked.natural? a, ← Checked.natural? b)
  | _ => none

/-- Verifies the layout; null stands for none. -/
def verify : Json → Except ShapeFlaw (Option Layout)
  | .null => .ok none
  | .obj ms => do
    let columns ← part ms "columns" Checked.positive? .layoutColumns
    let mobileColumns ← part ms "mobileColumns" Checked.positive? .layoutMobileColumns
    let gutter ← part ms "gutter" gutter? .layoutGutter
    return some { columns, mobileColumns, gutter }
  | _ => .error .layoutNotObject

/-- The authored form of a layout. -/
def toJson (l : Layout) : Json :=
  .obj (memberOf "columns" (fun n : Positive => natJson n.val) l.columns
    ++ memberOf "mobileColumns" (fun n : Positive => natJson n.val) l.mobileColumns
    ++ memberOf "gutter" (fun g : Nat × Nat => .arr [natJson g.1, natJson g.2]) l.gutter)

end Layout

namespace Form

variable [Host]

/-- The first field of a name. -/
def field? (form : Form) (name : String) : Option Field :=
  form.fields.find? fun f => f.name == name

/-- The authored form of a form. -/
def toJson (form : Form) : Json :=
  .obj (("fields", .arr (form.fields.map Field.toJson))
    :: memberOf "layout" Layout.toJson form.layout)

/-- A failure of the field at an index; a failure without a path is placed by the index. -/
def placed (index : Nat) : Stop → Stop
  | .failure (.field f) =>
    .failure (.field
      { f with path := some (f.path.getD ("fields[" ++ Number.shown index ++ "]")) })
  | s => s

/-- Verifies the fields from an index on; `seen` are the names of those before. -/
def verifyFields (index : Nat) (seen : List String) : List Json → Audit Stop (List Field)
  | [] => pure []
  | node :: rest => do
    let f ← (Field.verify none node).mapError (placed index)
    if seen.contains f.name then Field.refuse f.name f.name .duplicateName
    else
      let fs ← verifyFields (index + 1) (f.name :: seen) rest
      return f :: fs

/-- Verifies the fields and the layout of a document. -/
def verifyParts (document : Json) : Audit Stop Form := do
  match document with
  | .obj ms =>
    match Entries.get? ms "fields" with
    | some (.arr nodes) =>
      let fields ← verifyFields 0 [] nodes
      let layout ← .ofExcept
        ((Layout.verify ((Entries.get? ms "layout").getD .null)).mapError
          fun flaw => .failure (.shape flaw none))
      .note (.formVerified fields.length)
      return { fields, layout }
    | _ => .fail (.failure (.shape .noFields none))
  | _ => .fail (.failure (.shape .notObject none))

/-- What cannot be copied fails the document as a whole. -/
def documentStop : Stop → Stop
  | .fault .storage => .failure (.shape .storage none)
  | s => s

/-- Verifies a document. -/
def verifyDocument (document : Json) : Audit Stop Form :=
  (verifyParts document).mapError documentStop

/-- The document of a source; a source that holds none leaves a record. -/
def documentOf (source : Source) : Audit Stop Json :=
  match source.load with
  | .ok j => pure j
  | .error e => do
    .note (.sourceRefused e)
    .fail (.failure .malformed)

/-- Verifies a source. A failure is an outcome like any other, and only faults escape. -/
def verify (source : Source) : Audit Fault (Except Failure Form) :=
  let x : Audit Stop Form := do verifyDocument (← documentOf source)
  match x.outcome with
  | .ok form => ⟨x.records, .ok (.ok form)⟩
  | .error (.failure f) => ⟨x.records ++ [.formRejected f], .ok (.error f)⟩
  | .error (.fault fault) => ⟨x.records, .error fault⟩

end Form

end Formwork
