import Formwork.Verification.Failure

/-!
# Reports of failures

A report states the kind, the message and the place of a failure. It is shown on one
line, or on several with a hint how to repair the document. The hint is chosen by the
kind and by words of the message.
-/

namespace Formwork

/-- The statement of a failure. -/
structure Report where
  kind : String
  message : String
  path : Option String
  deriving DecidableEq, Repr

namespace Report

/-- The report of a failure. -/
def ofFailure (f : Failure) : Report :=
  ⟨f.kind, f.message, f.path⟩

/-- The report as a document value. -/
def toJson (r : Report) : Json :=
  .obj ([("kind", .str r.kind), ("message", .str r.message)] ++
    match r.path with
    | none => []
    | some path => [("path", .str path)])

/-- The words that open the line of a kind. -/
def opening (kind : String) : String :=
  if kind = "malformed" then "Malformed input"
  else if kind = "shape" then "Shape error"
  else if kind = "field" then "Field error"
  else "Error"

/-- The place that is shown; an empty path is not. -/
def place? (r : Report) : Option String :=
  r.path.filter (· ≠ "")

/-- The report on one line. -/
def line (r : Report) : String :=
  match r.place? with
  | some path => opening r.kind ++ " at " ++ path ++ ": " ++ r.message
  | none => opening r.kind ++ ": " ++ r.message

/-- The words occur in the text. -/
def mentions (text words : List Char) : Bool :=
  match text with
  | [] => words.isEmpty
  | _ :: rest => words.isPrefixOf text || mentions rest words

/-- The path as hints quote it. -/
def quotedPath (r : Report) : String :=
  r.path.getD "None"

/-- What may repair the document, empty if nothing specific can be said. -/
def hint (r : Report) : String :=
  let holds (words : String) : Bool := mentions r.message.toList words.toList
  let murmurs (words : String) : Bool :=
    mentions (r.message.toList.map Char.toLower) words.toList
  if r.kind = "malformed" then "Check for trailing commas, unquoted keys or single quotes"
  else if r.kind = "shape" then
    if holds "nesting" then "Flatten nested objects and arrays; deep trees cannot be rendered"
    else if "Layout".toList.isPrefixOf r.message.toList then
      "Use positive integers for columns and a [horizontal, vertical] gutter"
    else "Wrap the fields in an object: \x7b\"fields\": [...]\x7d"
  else if holds "Invalid field type" then "Use one of: " ++ FieldType.listing
  else if holds "Field name is required" then "Give every field a non-empty string name"
  else if murmurs "min value" || murmurs "max value" then
    "Ensure min <= defaultValue <= max at " ++ r.quotedPath
  else if murmurs "default value" then
    "Make the default at " ++ r.quotedPath ++ " match the declared field type"
  else if holds "options" then
    "Provide options as [\x7b\"label\": \"...\", \"value\": ...\x7d]"
  else ""

/-- The lines of a report with its problem, its place and a hint. -/
def contextLines (r : Report) : List String :=
  ["❌ Schema Error (" ++ r.kind ++ ")", "   Problem: " ++ r.message]
    ++ (match r.place? with
      | some path => ["   Location: " ++ path]
      | none => [])
    ++ (if r.hint = "" then [] else ["   Hint: " ++ r.hint])

/-- The report on several lines. -/
def context (r : Report) : String :=
  "\n".intercalate r.contextLines

end Report

/-- The line for no failure. -/
def noFailureLine : String := "No errors"

end Formwork
