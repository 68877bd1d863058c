import Formwork.Field.Basic

/-!
# The authored form of a field

A verified field is written back as a description that can be verified again. Its
members come in a fixed order, and attributes that were not authored are left out.
-/

namespace Formwork

/-- One member, left out if there is no value. -/
def memberOf {α : Type} (key : String) (toJson : α → Json) : Option α → List (String × Json)
  | none => []
  | some a => [(key, toJson a)]

/-- A natural number as a document value. -/
def natJson (n : Nat) : Json :=
  .int n

/-- The authored form of a card. -/
def Card.toJson (c : Card) : Json :=
  .obj (memberOf "title" .str c.title ++ memberOf "description" .str c.description
    ++ memberOf "bordered" .bool c.bordered ++ memberOf "size" (.str ·.name) c.size
    ++ memberOf "extra" .str c.extra)

/-- The authored form of an option. -/
def Choice.toJson (c : Choice) : Json :=
  .obj [("label", .str c.label), ("value", c.value.toJson)]

/-- The authored form of the bounds under two keys. -/
def Bounds.members (lowerKey upperKey : String) (b : Bounds) : List (String × Json) :=
  memberOf lowerKey natJson b.lower ++ memberOf upperKey natJson b.upper

/-- The members of a field of any type. -/
def Attributes.members (a : Attributes) (type : FieldType) : List (String × Json) :=
  [("name", .str a.name), ("type", .str type.name)]
    ++ memberOf "label" .str a.label ++ memberOf "required" .bool a.required
    ++ memberOf "placeholder" .str a.placeholder ++ memberOf "newline" .bool a.newline
    ++ memberOf "span" (fun s : Span => natJson s.val) a.span
    ++ memberOf "rules" (fun rules => .arr (rules.map .obj)) a.rules
    ++ memberOf "card" Card.toJson a.card

/-- The members that the type of a leaf adds. -/
def Leaf.members : Leaf → List (String × Json)
  | .string length => length.members "minLength" "maxLength"
  | .longtext length rows =>
    length.members "minLength" "maxLength"
      ++ memberOf "rows" (fun n : Positive => natJson n.val) rows
  | .number min max step =>
    memberOf "min" .num min ++ memberOf "max" .num max ++ memberOf "step" .num step
  | .checkbox checked => memberOf "defaultChecked" .bool checked
  | .radio options => [("options", .arr (options.map Choice.toJson))]
  | .select options mode =>
    ("options", .arr (options.map Choice.toJson)) :: memberOf "mode" (.str ·.name) mode
  | .upload multiple maxCount maxSize accept listStyle =>
    memberOf "multiple" .bool multiple
      ++ memberOf "maxCount" (fun n : Positive => natJson n.val) maxCount
      ++ memberOf "maxSize" .num maxSize ++ memberOf "accept" .str accept
      ++ memberOf "listType" (.str ·.name) listStyle
  | .date format showTime => memberOf "format" .str format ++ memberOf "showTime" .bool showTime
  | .json => []

namespace Field

mutual

/-- The authored form of a field. -/
def toJson : Field → Json
  | .leaf a l d => .obj (a.members l.type ++ l.members ++ memberOf "defaultValue" id d)
  | .array a items count d =>
    .obj (a.members .array ++ ("items", items.toJson) :: count.members "minItems" "maxItems"
      ++ memberOf "defaultValue" id d)
  | .object a properties d =>
    .obj (a.members .object ++ [("properties", .obj (propertiesToJson properties))]
      ++ memberOf "defaultValue" id d)

/-- The authored forms of properties under their keys. -/
def propertiesToJson : List (String × Field) → List (String × Json)
  | [] => []
  | (key, f) :: rest => (key, f.toJson) :: propertiesToJson rest

end

end Field

end Formwork
