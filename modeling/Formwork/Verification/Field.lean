import Formwork.Field.Authored
import Formwork.Json.Frozen
import Formwork.Verification.Attributes
import Formwork.Verification.Value

/-!
# Verification of a field

A description is turned into a field, or refused at its first flaw. What a field
encloses is verified before the field's own default, and a field leaves its record
after those that it encloses. Fields may nest up to a limit. A field keeps copies of
its rules and its default, for which the host must have room.
-/

namespace Formwork

/-- The path of an entry below a path. -/
def joinPath (base key : String) : String :=
  if base = "" then key else base ++ "." ++ key

/-- The most levels that a field may lie below the top. -/
def nestingLimit : Nat := 32

/-- A failure as an enclosing field passes it on. Only flaws of fields are put into its words. -/
def Stop.within (e : Enclosure) : Stop → Stop
  | .failure (.field f) => .failure (.field (f.within e))
  | s => s

namespace Field

/-- A flaw of the field at a path. -/
def refuse {α : Type} (path name : String) (flaw : Flaw) : Audit Stop α :=
  .fail (.failure (.field ⟨some (path ++ flaw.suffix), [], name, flaw⟩))

/-- The result of checks of the field at a path. -/
def checked {α : Type} (path name : String) : Checked α → Audit Stop α
  | .ok a => pure a
  | .error flaw => refuse path name flaw

/-- Faults in checks of values end the verification. -/
def faulty {α : Type} (x : Audit Fault α) : Audit Stop α :=
  x.mapError .fault

variable [Host]

/-- The field with what copies of its rules and its default hand out, none if the host has no room
for the copies at the level of the field. -/
def copied? (level : Nat) (f : Field) : Option Field := do
  let rules ← f.attributes.rules.mapM (·.mapM (Json.copyObject? (Host.ruleRoom level)))
  let default ← f.default.mapM (Json.copy? (Host.defaultRoom level))
  let a := { f.attributes with rules }
  return match f with
    | .leaf _ l _ => .leaf a l default
    | .array _ items count _ => .array a items count default
    | .object _ properties _ => .object a properties default

/-- Keeps a field of a level. -/
def store (level : Nat) (f : Field) : Audit Stop Field :=
  match f.copied? level with
  | some g => pure g
  | none => .fail (.fault .storage)

/-- The field that checks of a leaf give. -/
def leafOf (level : Nat) (path name : String) (a : Attributes) (default : Option Json)
    (x : Checked Leaf) : Audit Stop Field := do
  let l ← checked path name x
  store level (.leaf a l default)

/-- A choice; its default is checked last. -/
def choiceOf (level : Nat) (path name : String) (ms : Checked.Members) (a : Attributes)
    (x : Checked Leaf) : Audit Stop Field := do
  let l ← checked path name x
  let f ← store level (.leaf a l (Checked.authoredDefault ms))
  checked path name (Checked.choiceDefault ms l)
  return f

/-- A date; its default must be a date. -/
def dateOf (level : Nat) (path name : String) (ms : Checked.Members) (a : Attributes) :
    Audit Stop Field := do
  let default := Checked.authoredDefault ms
  match default with
  | none => pure ()
  | some v =>
    let d ← faulty (tryDate .epoch v)
    if d.isNone then refuse path name .date
  let format ← checked path name (Checked.optional ms "format" Checked.text? .dateFormat)
  let showTime ← checked path name (Checked.optional ms "showTime" Checked.bool? .showTime)
  store level (.leaf a (.date format showTime) default)

/-- The elements of the default of an array, from an index on. -/
def defaultElements (path name : String) (items : Field) (index : Nat) :
    List Json → Audit Stop Unit
  | [] => pure ()
  | v :: rest => do
    match ← faulty (items.check v) with
    | some m => refuse path name (.item index m)
    | none => defaultElements path name items (index + 1) rest

/-- The default of an array. -/
def arrayDefault (path name : String) (items : Field) (count : Bounds) :
    Option Json → Audit Stop Unit
  | none => pure ()
  | some (.arr elements) => do
    match count.lower with
    | some least => if elements.length < least then refuse path name (.fewItems least)
    | none => pure ()
    match count.upper with
    | some most => if most < elements.length then refuse path name (.manyItems most)
    | none => pure ()
    defaultElements path name items 0 elements
  | some _ => refuse path name .defaultNotList

/-- An array; its items are verified by `child`. -/
def arrayOf (level : Nat) (child : String → Json → Audit Stop Field) (path name : String)
    (ms : Checked.Members) (a : Attributes) : Audit Stop Field := do
  match Entries.get? ms "items" with
  | some (.obj itemMembers) =>
    if Entries.get? itemMembers "type" = some (.str FieldType.array.name) then
      refuse path name .nestedArray
    else
      let items ←
        (child (joinPath path "items") (.obj itemMembers)).mapError (.within (.items name))
      let count ← checked path name (Checked.bounds ms "minItems" "maxItems")
      let default := Checked.authoredDefault ms
      arrayDefault path name items count default
      store level (.array a items count default)
  | _ => refuse path name .noItems

/-- The properties of an object, each verified by `child`. -/
def propertiesOf (child : String → Json → Audit Stop Field) (path name : String) :
    List (String × Json) → Audit Stop (List (String × Field))
  | [] => pure []
  | (key, node) :: rest =>
    if key = "" then refuse path name .emptyKey
    else do
      let f ← (child (joinPath path key) node).mapError (.within (.property key name))
      let fs ← propertiesOf child path name rest
      return (key, f) :: fs

/-- The entries of the default of an object. -/
def defaultEntries (path name : String) (properties : List (String × Field)) :
    List (String × Json) → Audit Stop Unit
  | [] => pure ()
  | (key, v) :: rest =>
    match properties.lookup key with
    | none => refuse path name (.unknownProperty key)
    | some f => do
      match ← faulty (f.check v) with
      | some m => refuse path name (.property key m)
      | none => defaultEntries path name properties rest

/-- An object; its properties are verified by `child`. -/
def objectOf (level : Nat) (child : String → Json → Audit Stop Field) (path name : String)
    (ms : Checked.Members) (a : Attributes) : Audit Stop Field := do
  match Entries.get? ms "properties" with
  | some (.obj nodes) =>
    let properties ← propertiesOf child path name nodes
    let default := Checked.authoredDefault ms
    match default with
    | none => pure ()
    | some (.obj entries) => defaultEntries path name properties entries
    | some _ => refuse path name .defaultNotObject
    store level (.object a properties default)
  | _ => refuse path name .noProperties

/-- What the type adds to a field of a level. -/
def payload (level : Nat) (child : String → Json → Audit Stop Field) (path name : String)
    (ms : Checked.Members) (a : Attributes) : FieldType → Audit Stop Field
  | .string => leafOf level path name a (Checked.authoredDefault ms) (Checked.string ms)
  | .longtext => leafOf level path name a (Checked.authoredDefault ms) (Checked.longtext ms)
  | .number => leafOf level path name a (Checked.authoredDefault ms) (Checked.number ms)
  | .checkbox => leafOf level path name a (Checked.authoredDefault ms) (Checked.checkbox ms)
  | .radio => choiceOf level path name ms a (.radio <$> Checked.choices ms .radio)
  | .select => choiceOf level path name ms a (Checked.select ms)
  | .upload => leafOf level path name a (Checked.authoredDefault ms) (Checked.upload ms)
  | .array => arrayOf level child path name ms a
  | .object => objectOf level child path name ms a
  | .date => dateOf level path name ms a
  | .json =>
    leafOf level path name a (Checked.authoredDefault ms)
      (do
        let _ ← Checked.defaultOf ms Checked.text? .defaultNotText
        return .json)

/-- The name of a description. -/
def nameOf? (ms : Checked.Members) : Option String :=
  match Entries.get? ms "name" with
  | some (.str s) => if s = "" then none else some s
  | _ => none

/-- The type of a description. -/
def typeOf? (ms : Checked.Members) : Option FieldType :=
  match Entries.get? ms "type" with
  | some (.str s) => FieldType.ofName? s
  | _ => none

/-- Verifies one description of a level; what it encloses is verified by `child`. Without a path
the name of the field is its path. -/
def verifyNode (level : Nat) (child : String → Json → Audit Stop Field) (path : Option String) :
    Json → Audit Stop Field
  | .obj ms =>
    match nameOf? ms with
    | none => .fail (.failure (.field ⟨path, [], "", .noName⟩))
    | some name =>
      let path := path.getD name
      match typeOf? ms with
      | none => refuse path name .unknownType
      | some type => do
        let a ← checked path name (Checked.attributes ms name)
        let f ← payload level child path name ms a type
        .note (.fieldVerified path type)
        return f
  | _ => .fail (.failure (.field ⟨path, [], "", .notObject⟩))

/-- Verifies a description that may have less than the given number of levels. -/
def verifyBelow : Nat → Option String → Json → Audit Stop Field
  | 0, path, _ => .fail (.failure (.shape .nesting path))
  | levels + 1, path, node =>
    verifyNode (nestingLimit - levels) (fun path node => verifyBelow levels (some path) node)
      path node

/-- Verifies a description. -/
def verify (path : Option String) (node : Json) : Audit Stop Field :=
  verifyBelow (nestingLimit + 1) path node

/-- What can be verified: a description, or a field that was verified before. -/
inductive Candidate where
  | description (node : Json)
  | field (f : Field)

/-- The description of a candidate, for a field its authored form. -/
def Candidate.node : Candidate → Json
  | .description node => node
  | .field f => f.toJson

/-- Verifies a candidate. -/
def verifyCandidate (path : Option String) (c : Candidate) : Audit Stop Field :=
  verify path c.node

end Field

end Formwork
