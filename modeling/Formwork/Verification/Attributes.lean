import Formwork.Field.Basic
import Formwork.Verification.Flaw

/-!
# Attributes of a description

The members of a description are checked one after another; the first flaw counts. A
member that is absent or null imposes nothing, unless its rule says otherwise.
-/

namespace Formwork

/-- A result of checks, or the first flaw. -/
abbrev Checked := Except Flaw

namespace Checked

/-- The members of a description. -/
abbrev Members := List (String × Json)

/-- The value of a member, none if it is absent or null. -/
def given (ms : Members) (key : String) : Option Json :=
  match Entries.get? ms key with
  | some .null => none
  | v => v

/-- A member that may be absent or null, else must have a value of the right form. -/
def optional {α : Type} (ms : Members) (key : String) (form : Json → Option α) (flaw : Flaw) :
    Checked (Option α) :=
  match given ms key with
  | none => .ok none
  | some v =>
    match form v with
    | some a => .ok (some a)
    | none => .error flaw

/-- The value is a text. -/
def text? : Json → Option String
  | .str s => some s
  | _ => none

/-- The value is a truth value. -/
def bool? : Json → Option Bool
  | .bool b => some b
  | _ => none

/-- The value is a number. -/
def number? : Json → Option Number
  | .num n => some n
  | _ => none

/-- The value is a whole number. -/
def integer? : Json → Option Int
  | .num n => n.toInt?
  | _ => none

/-- The value is a whole number from zero on. -/
def natural? (v : Json) : Option Nat := do
  match ← integer? v with
  | .ofNat n => return n
  | .negSucc _ => none

/-- The value is a whole number from one on. -/
def positive? (v : Json) : Option Positive := do
  let n ← natural? v
  if h : 0 < n then return ⟨n, h⟩ else none

/-- The value is a number of columns. -/
def span? (v : Json) : Option Span := do
  let n ← natural? v
  if h : 1 ≤ n ∧ n ≤ 24 then return ⟨n, h⟩ else none

/-- The value is a list of objects. -/
def objects? : Json → Option (List Members)
  | .arr elements => elements.mapM fun
    | .obj ms => some ms
    | _ => none
  | _ => none

/-- The value is the name of a size of cards. -/
def cardSize? : Json → Option CardSize
  | .str s =>
    if s = "default" then some .default else if s = "small" then some .small else none
  | _ => none

/-- The value is the name of a mode. -/
def mode? : Json → Option SelectMode
  | .str s =>
    if s = "multiple" then some .multiple else if s = "tags" then some .tags else none
  | _ => none

/-- The value is the name of a style of lists of files. -/
def listStyle? : Json → Option FileListStyle
  | .str s =>
    if s = "text" then some .text
    else if s = "picture" then some .picture
    else if s = "picture-card" then some .pictureCard
    else none
  | _ => none

/-- The value is a number greater than zero. -/
def positiveNumber? (v : Json) : Option Number := do
  let n ← number? v
  if (Number.int 0).lt n then return n else none

/-- The frame of a field. -/
def card : Json → Checked Card
  | .obj ms => do
    let title ← optional ms "title" text? (.cardText "title")
    let description ← optional ms "description" text? (.cardText "description")
    let extra ← optional ms "extra" text? (.cardText "extra")
    let bordered ← optional ms "bordered" bool? .cardBordered
    let size ← optional ms "size" cardSize? .cardSize
    return { title, description, bordered, size, extra }
  | _ => .error .card

/-- The attributes that fields of all types share. A frame that is present may not be null. -/
def attributes (ms : Members) (name : String) : Checked Attributes := do
  let required ← optional ms "required" bool? .required
  let label ← optional ms "label" text? .label
  let placeholder ← optional ms "placeholder" text? .placeholder
  let newline ← optional ms "newline" bool? .newline
  let span ← optional ms "span" span? .span
  let rules ← optional ms "rules" objects? .rules
  let card ←
    match Entries.get? ms "card" with
    | none => Except.ok none
    | some v => some <$> card v
  return { name, label, required, placeholder, newline, span, rules, card }

/-- A lower and an upper bound; the lower one may not be greater. -/
def bounds (ms : Members) (lowerKey upperKey : String) : Checked Bounds := do
  let lower ← optional ms lowerKey natural? (.bound lowerKey)
  let upper ← optional ms upperKey natural? (.bound upperKey)
  match lower, upper with
  | some l, some u => if u < l then .error (.boundOrder lowerKey upperKey) else pure ()
  | _, _ => pure ()
  return { lower, upper }

/-- The default, if the key is there. -/
def authoredDefault (ms : Members) : Option Json :=
  Entries.get? ms "defaultValue"

/-- A default of the right form, if there is one. -/
def defaultOf {α : Type} (ms : Members) (form : Json → Option α) (flaw : Flaw) :
    Checked (Option α) :=
  match authoredDefault ms with
  | none => .ok none
  | some v =>
    match form v with
    | some a => .ok (some a)
    | none => .error flaw

/-- One option. -/
def choice? : Json → Option Choice
  | .obj ms => do
    let label ← (Entries.get? ms "label").bind text?
    let value ← (Entries.get? ms "value").bind OptionValue.ofJson?
    return { label, value }
  | _ => none

/-- The options of a choice, at least one. Two options may have the same value. -/
def choices (ms : Members) (type : FieldType) : Checked (List Choice) :=
  match Entries.get? ms "options" with
  | some (.arr []) => .error (.emptyOptions type)
  | some (.arr options) =>
    match options.mapM choice? with
    | some cs => .ok cs
    | none => .error .optionFormat
  | _ => .error (.noOptions type)

/-- What the type of text fields adds. -/
def string (ms : Members) : Checked Leaf := do
  let _ ← defaultOf ms text? .defaultNotText
  return .string (← bounds ms "minLength" "maxLength")

/-- What the type of long texts adds. -/
def longtext (ms : Members) : Checked Leaf := do
  let _ ← defaultOf ms text? .defaultNotText
  let length ← bounds ms "minLength" "maxLength"
  return .longtext length (← optional ms "rows" positive? .rows)

/-- What the type of numbers adds. A default lies within the bounds. -/
def number (ms : Members) : Checked Leaf := do
  let default ← defaultOf ms number? .defaultNotNumber
  let min ← optional ms "min" number? (.notNumber "min")
  let max ← optional ms "max" number? (.notNumber "max")
  let step ← optional ms "step" number? (.notNumber "step")
  let exceeds (a b : Option Number) : Bool :=
    match a, b with
    | some a, some b => b.lt a
    | _, _ => false
  if exceeds min max then .error .rangeOrder
  else if exceeds min default then .error .defaultBelowMin
  else if exceeds default max then .error .defaultAboveMax
  else return .number min max step

/-- What the type of checkboxes adds. -/
def checkbox (ms : Members) : Checked Leaf := do
  let _ ← defaultOf ms bool? .defaultNotBoolean
  return .checkbox (← optional ms "defaultChecked" bool? .defaultChecked)

/-- What the type of selections adds. -/
def select (ms : Members) : Checked Leaf := do
  let options ← choices ms .select
  return .select options (← optional ms "mode" mode? .mode)

/-- What the type of uploads adds. -/
def upload (ms : Members) : Checked Leaf := do
  let multiple ← optional ms "multiple" bool? .multiple
  let maxCount ← optional ms "maxCount" positive? .maxCount
  let maxSize ← optional ms "maxSize" positiveNumber? .maxSize
  let accept ← optional ms "accept" text? .accept
  let listStyle ← optional ms "listType" listStyle? .listType
  let _ ← defaultOf ms (fun | .arr vs => some vs | _ => none) .defaultNotFileList
  return .upload multiple maxCount maxSize accept listStyle

/-- The default of a choice is one of its options, or a list of them. -/
def choiceDefault (ms : Members) (leaf : Leaf) : Checked Unit :=
  match authoredDefault ms with
  | none => .ok ()
  | some v =>
    if leaf.isMultiple then
      match v with
      | .arr vs =>
        if vs.all (Choice.offered leaf.options) then .ok () else .error .defaultNotOptions
      | _ => .error .defaultNotOptionList
    else if Choice.offered leaf.options v then .ok () else .error .defaultNotOption

end Checked

end Formwork
