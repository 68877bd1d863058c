import Formwork.Console.Command
import Formwork.Console.Display

/-!
# Transcripts of commands

A command is carried out on a tree of files. Its transcript tells the status that it
ends with, the lines that it prints and the files afterwards. Only a resolution that
succeeded in all other steps touches a file.
-/

namespace Formwork.Console

variable [Host]

/-- How a command ended. -/
structure Transcript where
  status : Nat
  lines : List String
  files : Files.Tree

/-- The version of the program. -/
def versionLine : String := "FormGuard version 0.1.0"

/-- The help of the program. -/
def helpLines : List String :=
  ["Usage: form-guard [OPTIONS] COMMAND [ARGS]...", "",
    "FormGuard - Verify and resolve JSON form schemas.", "",
    "  validate  Verify a form schema and report the first error.",
    "  resolve   Resolve a form schema into field descriptors and initial values.",
    "  types     List the field types a schema may use."]

/-- Why a file that a command reads cannot be used. -/
inductive LoadError where
  | access (error : Files.AccessError)
  | encoding (error : Encoding.DecodeError)
  | format (text : List Char) (error : Json.ReadError)
  | notObject

/-- The message of a failed loading. Limits of the reader are reported in its own words alone. -/
def LoadError.message : LoadError → String
  | .access e => e.message
  | .encoding e => e.message
  | .format text e =>
    match e with
    | .fault _ _ => "Invalid JSON in initial values file: " ++ e.message text
    | _ => e.message text
  | .notObject => "Initial values file must contain a JSON object"

/-- The characters of a file, with unified line ends. -/
def loadText (files : Files.Tree) (path : Files.Path) : Except LoadError (List Char) := do
  let bytes ← (files.read path).mapError .access
  let chars ← (Encoding.decode8 .refused 0 [] bytes).mapError .encoding
  return Text.unifyLineEnds chars

/-- The object of initial values in a file. -/
def loadValues (files : Files.Tree) (path : Files.Path) : Except LoadError Json := do
  let text ← loadText files path
  match ← (Json.read .allowed text).mapError (.format text) with
  | .obj members => return .obj members
  | _ => .error .notObject

/-- The message of a fault. Values that nest too deeply have the wording of folders that do. -/
def faultMessage : Fault → String
  | .imprecise => "[<class 'decimal.DivisionImpossible'>]"
  | .storage => Files.Obstacle.wording .tooDeep

/-- The message of an error of a resolution. -/
def resolveErrorMessage : ResolveError → String
  | .fault f => faultMessage f
  | e => e.message?.getD ""

/-- The message for a date without a written form. -/
def unwritableDate : String :=
  "offset must be a timedelta strictly between -timedelta(hours=24) and timedelta(hours=24)."

/-- The lines for a form that was refused. -/
def refusalLines (f : Failure) : List String :=
  failure "Schema is invalid" ++ rejection (Report.ofFailure f)

/-- Something went wrong with a command that was under way. -/
def commandFailed (message : String) : List String :=
  failure ("Command failed: " ++ message)

/-- The lines of the text of a form, in a frame. -/
def schemaLines (text : List Char) : List String :=
  "Schema" :: Text.lines (verbatim (String.ofList
    (if text.head? = some Json.byteOrderMark then text.tail else text)))

/-- Checks a form. -/
def validate (files : Files.Tree) (schema : String) (showSchema : Bool) : Transcript :=
  let path := Files.Path.tidy schema
  let opening := header "FormGuard - Validate Schema"
  match loadText files path with
  | .error e => ⟨1, opening ++ failure ("Failed to load schema: " ++ e.message), files⟩
  | .ok text =>
    let opening := opening ++ success ("Loaded schema from: " ++ path.text)
      ++ (if showSchema then schemaLines text else []) ++ notice "Verifying..." ++ [""]
    match (Form.verify (.text (String.ofList text))).outcome with
    | .error fault => ⟨1, opening ++ commandFailed (faultMessage fault), files⟩
    | .ok (.error f) => ⟨1, opening ++ refusalLines f, files⟩
    | .ok (.ok form) =>
      ⟨0, opening ++ success ("Schema is valid (" ++ Number.shown form.fields.length
        ++ " top-level field(s))"), files⟩

/-- The text of a form and the initial values that a call names. -/
def loadInput (files : Files.Tree) (call : ResolveCall) :
    Except LoadError (String × Option Json) := do
  let text ← loadText files (.tidy call.schema)
  let initial ← match call.initial with
    | none => .ok none
    | some path => (loadValues files (.tidy path)).map some
  return (String.ofList text, initial)

/-- The options that a call asks for. -/
def ResolveCall.options (call : ResolveCall) : Options :=
  match call.columns with
  | none => .standard
  | some columns => { Options.standard with columns }

/-- The keys of initial values. -/
def keysOf : Option Json → List String
  | some (.obj members) => Entries.keys members
  | _ => []

/-- The warning for initial values without an input. -/
def unboundLines (r : Resolution) (initial : Option Json) : List String :=
  match r.unbound (keysOf initial) with
  | [] => []
  | keys => warning ("Initial values with no matching field: " ++ ", ".intercalate keys)

/-- The lines on a resolution; those before a date that cannot be shown, and whether there is
one. -/
def resolutionLines (showTree : Bool) (r : Resolution) : List String × Bool :=
  match if showTree then treeLines? r else some [] with
  | none => ([], false)
  | some tree =>
    match valueLines? r.values with
    | none => (tree, false)
    | some values => (tree ++ values, true)

/-- The bytes of a text in a file. -/
def fileBytes (text : String) : List UInt8 :=
  text.toUTF8.toList

/-- Saves a resolution. The file is emptied before the text is composed. -/
def save (files : Files.Tree) (path : Files.Path) (r : Resolution) :
    Files.Tree × Except String Unit :=
  match files.makeFolders path.parent with
  | (made, .error e) => (made, .error e.message)
  | (made, .ok ()) =>
    match made.write path [] with
    | .error e => (made, .error e.message)
    | .ok emptied =>
      match r.toJson? with
      | none => (emptied, .error unwritableDate)
      | some j =>
        match made.write path (fileBytes (j.render Json.indented)) with
        | .error e => (emptied, .error e.message)
        | .ok written => (written, .ok ())

/-- Ends a resolution that succeeded. -/
def finish (files : Files.Tree) (call : ResolveCall) (initial : Option Json) (opening : List String)
    (r : Resolution) : Transcript :=
  let opening := opening
    ++ success ("Resolved " ++ Number.shown r.tree.length ++ " top-level field(s)")
    ++ unboundLines r initial
  match resolutionLines call.showTree r with
  | (lines, false) => ⟨1, opening ++ lines ++ commandFailed unwritableDate, files⟩
  | (lines, true) =>
    match call.output with
    | none => ⟨0, opening ++ lines, files⟩
    | some output =>
      let path := Files.Path.tidy output
      match save files path r with
      | (files, .error message) => ⟨1, opening ++ lines ++ commandFailed message, files⟩
      | (files, .ok ()) =>
        ⟨0, opening ++ lines ++ success ("Resolution saved to: " ++ path.text), files⟩

/-- Resolves a form. -/
def resolve (files : Files.Tree) (call : ResolveCall) : Transcript :=
  let opening := header "FormGuard - Resolve Schema"
  match loadInput files call with
  | .error e => ⟨1, opening ++ failure ("Failed to load input: " ++ e.message), files⟩
  | .ok (text, initial) =>
    match (Form.resolveSource call.options initial (.text text)).outcome with
    | .error e => ⟨1, opening ++ commandFailed (resolveErrorMessage e), files⟩
    | .ok (.error f) => ⟨1, opening ++ refusalLines f, files⟩
    | .ok (.ok r) => finish files call initial opening r

/-- Carries out a command whose files are there. -/
def Command.run (files : Files.Tree) : Command → Transcript
  | .help => ⟨0, helpLines, files⟩
  | .version => ⟨0, [versionLine], files⟩
  | .types => ⟨0, typeLines, files⟩
  | .validate schema showSchema => Console.validate files schema showSchema
  | .resolve call => Console.resolve files call

/-- Carries out what arguments ask for; wrong use is told apart. -/
def call (files : Files.Tree) (arguments : List String) : Except UsageError Transcript := do
  let command ← Command.ofArguments arguments
  match command.missingFile? files with
  | some e => .error e
  | none => return command.run files

/-- Where no host is given a program is on the standard one. -/
instance (priority := low) : Host := .standard

end Formwork.Console
