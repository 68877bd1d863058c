import Formwork.Json.Basic

/-!
# Fields of a form

A field is a leaf, which holds one value, an array of elements of one shape, or an
object of named properties. What every field may say of itself is kept apart from
what its type adds. Attributes that were not authored are none.
-/

namespace Formwork

/-- The types that a field may have. -/
inductive FieldType where
  | string
  | longtext
  | number
  | checkbox
  | radio
  | select
  | upload
  | array
  | object
  | date
  | json
  deriving DecidableEq, Repr

namespace FieldType

/-- The name of a type. -/
def name : FieldType → String
  | .string => "string"
  | .longtext => "longtext"
  | .number => "number"
  | .checkbox => "checkbox"
  | .radio => "radio"
  | .select => "select"
  | .upload => "upload"
  | .array => "array"
  | .object => "object"
  | .date => "date"
  | .json => "json"

/-- All types, in the order in which they are listed. -/
def all : List FieldType :=
  [.string, .longtext, .number, .checkbox, .radio, .select, .upload, .array, .object, .date, .json]

/-- The type of a name. -/
def ofName? (s : String) : Option FieldType :=
  all.find? fun t => t.name == s

/-- The names of all types, as they are listed in messages. -/
def listing : String :=
  ", ".intercalate (all.map name)

@[simp] theorem ofName?_name (t : FieldType) : ofName? t.name = some t := by
  cases t <;> decide

theorem mem_all (t : FieldType) : t ∈ all := by
  cases t <;> decide

end FieldType

/-- The size of a card. -/
inductive CardSize where
  | default
  | small
  deriving DecidableEq, Repr

/-- The name of a size. -/
def CardSize.name : CardSize → String
  | .default => "default"
  | .small => "small"

/-- A frame that a field is shown in. -/
structure Card where
  title : Option String
  description : Option String
  bordered : Option Bool
  size : Option CardSize
  extra : Option String
  deriving DecidableEq, Repr

/-- The value of an option: a text or a number. -/
inductive OptionValue where
  | text (s : String)
  | number (n : Number)
  deriving DecidableEq, Repr

/-- A value that a choice offers, with its label. -/
structure Choice where
  label : String
  value : OptionValue
  deriving DecidableEq, Repr

/-- A lower and an upper bound of a length or a count. -/
structure Bounds where
  lower : Option Nat
  upper : Option Nat
  deriving DecidableEq, Repr

/-- How a selection takes several values. -/
inductive SelectMode where
  | multiple
  | tags
  deriving DecidableEq, Repr

/-- The name of a mode. -/
def SelectMode.name : SelectMode → String
  | .multiple => "multiple"
  | .tags => "tags"

/-- How a list of files is shown. -/
inductive FileListStyle where
  | text
  | picture
  | pictureCard
  deriving DecidableEq, Repr

/-- The name of a style. -/
def FileListStyle.name : FileListStyle → String
  | .text => "text"
  | .picture => "picture"
  | .pictureCard => "picture-card"

/-- The columns that an author may ask for. -/
abbrev Span := { n : Nat // 1 ≤ n ∧ n ≤ 24 }

/-- A whole number from one on. -/
abbrev Positive := { n : Nat // 0 < n }

/-- What a field of any type may say of itself. -/
structure Attributes where
  name : String
  label : Option String
  required : Option Bool
  placeholder : Option String
  newline : Option Bool
  span : Option Span
  rules : Option (List (List (String × Json)))
  card : Option Card
  deriving Repr

/-- The label that is shown: the name unless a label was authored. -/
def Attributes.displayLabel (a : Attributes) : String :=
  a.label.getD a.name

/-- What the type of a leaf adds. -/
inductive Leaf where
  | string (length : Bounds)
  | longtext (length : Bounds) (rows : Option Positive)
  | number (min max step : Option Number)
  | checkbox (checked : Option Bool)
  | radio (options : List Choice)
  | select (options : List Choice) (mode : Option SelectMode)
  | upload (multiple : Option Bool) (maxCount : Option Positive) (maxSize : Option Number)
      (accept : Option String) (listStyle : Option FileListStyle)
  | date (format : Option String) (showTime : Option Bool)
  | json
  deriving Repr

/-- A field of a form. -/
inductive Field where
  | leaf (attributes : Attributes) (leaf : Leaf) (default : Option Json)
  | array (attributes : Attributes) (items : Field) (count : Bounds) (default : Option Json)
  | object (attributes : Attributes) (properties : List (String × Field)) (default : Option Json)
  deriving Repr

/-- The type of a leaf. -/
def Leaf.type : Leaf → FieldType
  | .string _ => .string
  | .longtext _ _ => .longtext
  | .number _ _ _ => .number
  | .checkbox _ => .checkbox
  | .radio _ => .radio
  | .select _ _ => .select
  | .upload _ _ _ _ _ => .upload
  | .date _ _ => .date
  | .json => .json

/-- The options of a choice, none for what offers no choice. -/
def Leaf.options : Leaf → List Choice
  | .radio options | .select options _ => options
  | _ => []

/-- The leaf holds a list of options. -/
def Leaf.isMultiple : Leaf → Bool
  | .select _ mode => mode.isSome
  | _ => false

namespace Field

/-- What the field says of itself. -/
def attributes : Field → Attributes
  | .leaf a _ _ | .array a _ _ _ | .object a _ _ => a

/-- The name of the field. -/
def name (f : Field) : String :=
  f.attributes.name

/-- The type of the field. -/
def type : Field → FieldType
  | .leaf _ l _ => l.type
  | .array _ _ _ _ => .array
  | .object _ _ _ => .object

/-- The authored default. -/
def default : Field → Option Json
  | .leaf _ _ d | .array _ _ _ d | .object _ _ d => d

/-- The label that is shown. -/
def displayLabel (f : Field) : String :=
  f.attributes.displayLabel

/-- The default that counts: the authored one, or for a checkbox its older spelling. -/
def effectiveDefault : Field → Option Json
  | .leaf _ (.checkbox checked) d => d.or (checked.map .bool)
  | f => f.default

/-- The options that the field offers. -/
def options : Field → List Choice
  | .leaf _ l _ => l.options
  | _ => []

/-- The fields one level below, each with its key. -/
def children : Field → List (String × Field)
  | .leaf _ _ _ => []
  | .array _ items _ _ => [("items", items)]
  | .object _ properties _ => properties

end Field

/-- The value of an option as a document value. -/
def OptionValue.toJson : OptionValue → Json
  | .text s => .str s
  | .number n => .num n

/-- The value of an option, of a document value that is text or a number. -/
def OptionValue.ofJson? : Json → Option OptionValue
  | .str s => some (.text s)
  | .num n => some (.number n)
  | _ => none

/-- The two values are the same choice: equal texts, or numbers with the same value. -/
def OptionValue.same : OptionValue → OptionValue → Bool
  | .text a, .text b => a == b
  | .number a, .number b => a.same b
  | _, _ => false

/-- The value is that of one of the options. -/
def Choice.offered (options : List Choice) (value : Json) : Bool :=
  match OptionValue.ofJson? value with
  | none => false
  | some v => options.any fun c => c.value.same v

end Formwork
