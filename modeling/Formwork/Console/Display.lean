import Formwork.Console.Markup
import Formwork.Resolution.Basic

/-!
# What is shown of forms

A resolved form is shown as a tree of its inputs and as a table of its initial values,
and the types of fields as a table. A date without a written form cannot be shown.
-/

namespace Formwork.Console

/-- A title with a line under it. -/
def header (title : String) : List String :=
  ["", title, String.ofList (List.replicate title.length '='), ""]

/-- A message of success. -/
def success (message : String) : List String :=
  printed (styled "green" "✓" ++ " " ++ message)

/-- A message of failure. -/
def failure (message : String) : List String :=
  printed (styled "red" "✗" ++ " " ++ message)

/-- A message of doubt. -/
def warning (message : String) : List String :=
  printed (styled "yellow" "⚠" ++ " " ++ message)

/-- A message of progress. -/
def notice (message : String) : List String :=
  printed (styled "blue" "ℹ" ++ " " ++ message)

/-- A report in a frame. -/
def rejection (r : Report) : List String :=
  "" :: "Schema Rejected" :: r.contextLines.flatMap printed ++ [""]

/-- The cells of a row of a table, each shown on its own, side by side. -/
def row (cells : List String) : List String :=
  let columns := cells.map printed
  let height := (columns.map List.length).foldl max 0
  (List.range height).map fun i => "  ".intercalate (columns.map fun c => c.getD i "")

/-- The title and the rows of a table, the headings first. -/
def table (title : String) (rows : List (List String)) : List String :=
  title :: rows.flatMap row ++ [""]

namespace Widget

/-- The parts of the line of an input. -/
def parts? (w : Widget) : Option (List String) := do
  let value ← match w.initial with
    | none => some []
    | some v => v.toJson?.map fun j => ["= " ++ j.render Json.displayed]
  return [styled "cyan" w.path, styled "magenta" w.field.type.name, "span " ++ Number.shown w.span]
    ++ (if w.binding = w.path then [] else [styled "dim" ("binds " ++ w.binding)])
    ++ (if w.rules.isEmpty then []
      else [styled "yellow" ("rules: " ++ ", ".intercalate (w.rules.map Rule.kind))])
    ++ value

end Widget

/-- The lines of an input at a depth. -/
def inputLines? (depth : Nat) (w : Widget) : Option (List String) := do
  let indent := String.ofList (List.replicate (2 * depth) ' ')
  return (printed ("  ".intercalate (← Widget.parts? w))).map (indent ++ ·)

mutual

/-- The lines of a descriptor and of those that it encloses. -/
def descriptorLines? (depth : Nat) : Descriptor → Option (List String)
  | .node w children => do
    return (← inputLines? depth w) ++ (← forestLines? (depth + 1) children)

/-- The lines of descriptors side by side. -/
def forestLines? (depth : Nat) : List Descriptor → Option (List String)
  | [] => some []
  | d :: rest => return (← descriptorLines? depth d) ++ (← forestLines? depth rest)

end

/-- The tree of a resolved form. -/
def treeLines? (r : Resolution) : Option (List String) := do
  return "" :: "Resolved Fields" :: (← forestLines? 1 r.tree) ++ [""]

/-- The table of initial values. -/
def valueLines? (values : InitialValues) : Option (List String) := do
  let members ← InitialValues.toMembers? values
  return table "Initial Values"
    (["Binding", "Value"] :: members.map fun m => [m.1, m.2.render Json.oneLine])

/-- What the default of a field of a type has to be. -/
def defaultNote : FieldType → String
  | .string | .longtext | .json => "string"
  | .number => "number within [min, max]"
  | .checkbox => "boolean"
  | .radio => "one option value"
  | .select => "option value(s)"
  | .upload => "array"
  | .array => "array of item values"
  | .object => "object of property values"
  | .date => "date string"

/-- The attributes of a field of a type. -/
def attributeNote : FieldType → String
  | .string => "minLength, maxLength"
  | .longtext => "minLength, maxLength, rows"
  | .number => "min, max, step"
  | .checkbox => "defaultChecked"
  | .radio => "options"
  | .select => "options, mode (multiple|tags)"
  | .upload => "multiple, maxCount, maxSize, accept, listType"
  | .array => "items, minItems, maxItems"
  | .object => "properties"
  | .date => "format, showTime"
  | .json => ""

/-- The table of the types of fields. -/
def typeLines : List String :=
  "" :: table "Field Types" (["Type", "Default Value", "Attributes"]
    :: FieldType.all.map fun t => [t.name, defaultNote t, attributeNote t])

end Formwork.Console
