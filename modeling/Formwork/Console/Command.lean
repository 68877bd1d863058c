import Formwork.Console.Argument
import Formwork.Files.Tree
import Formwork.Options

/-!
# Commands

The program checks a form, resolves a form or lists the types of fields. Options that
stand before the command hold for the program as a whole. A file that is named has to
be there before a command starts.
-/

namespace Formwork.Console

/-- What is resolved, with which values and options, and what is made of it. -/
structure ResolveCall where
  schema : String
  initial : Option String
  output : Option String
  columns : Option Positive
  showTree : Bool
  deriving DecidableEq, Repr

/-- What the program is asked to do. -/
inductive Command where
  | help
  | version
  | validate (schema : String) (showSchema : Bool)
  | resolve (call : ResolveCall)
  | types
  deriving DecidableEq, Repr

/-- The options of the program. -/
inductive GlobalKey where
  | version
  | verbose
  | help
  deriving DecidableEq, Repr

/-- The options of commands. -/
inductive CommandKey where
  | schema
  | showSchema
  | initial
  | output
  | columns
  | tree
  | noTree
  | help
  deriving DecidableEq, Repr

namespace Command

/-- The names of the options of the program. -/
def globalNames : List (OptionName GlobalKey) :=
  [⟨"--version", some 'v', false, .version⟩, ⟨"--verbose", none, false, .verbose⟩,
    ⟨"--help", none, false, .help⟩]

/-- The option that shows help. -/
def helpName : OptionName CommandKey :=
  ⟨"--help", none, false, .help⟩

/-- The option for the file of the form. -/
def schemaName : OptionName CommandKey :=
  ⟨"--schema", some 's', true, .schema⟩

/-- The names of the options of a check. -/
def validateNames : List (OptionName CommandKey) :=
  [schemaName, ⟨"--show-schema", none, false, .showSchema⟩, helpName]

/-- The names of the options of a resolution. -/
def resolveNames : List (OptionName CommandKey) :=
  [schemaName, ⟨"--initial", some 'i', true, .initial⟩, ⟨"--output", some 'o', true, .output⟩,
    ⟨"--columns", some 'c', true, .columns⟩, ⟨"--tree", none, false, .tree⟩,
    ⟨"--no-tree", none, false, .noTree⟩, helpName]

/-- The options of a command that takes no operands. -/
def optionsOf (names : List (OptionName CommandKey)) (arguments : List String) :
    Except UsageError (Given CommandKey) := do
  match ← readArguments names false arguments with
  | (given, []) => .ok given
  | (given, operand :: _) =>
    if given.has .help then .ok given else .error (.extraOperand operand)

/-- The number of columns that a text asks for. -/
def columns? (text : String) : Except UsageError Positive :=
  match Text.integer? text.toList with
  | none => .error (.notInteger "--columns" text)
  | some (.ofNat (n + 1)) => .ok ⟨n + 1, Nat.succ_pos n⟩
  | some _ => .error (.tooSmall "--columns" text)

/-- The file of the form. -/
def schemaOf (given : Given CommandKey) : Except UsageError String :=
  match given.value? .schema with
  | some schema => .ok schema
  | none => .error (.missingOption "--schema")

/-- The tree is shown unless the last word on it is that it is not. -/
def showsTree (given : Given CommandKey) : Bool :=
  match given.reverse.find? fun g => g.1 == .tree || g.1 == .noTree with
  | some (key, _) => key == .tree
  | none => true

/-- The call of a resolution. -/
def resolveCall (given : Given CommandKey) : Except UsageError ResolveCall := do
  let schema ← schemaOf given
  let columns ← match given.value? .columns with
    | none => .ok none
    | some text => (columns? text).map some
  return { schema, columns, initial := given.value? .initial, output := given.value? .output,
           showTree := showsTree given }

/-- The command of a name with its arguments. -/
def ofName (name : String) (arguments : List String) : Except UsageError Command :=
  match name with
  | "validate" => do
    let given ← optionsOf validateNames arguments
    if given.has .help then return .help
    return .validate (← schemaOf given) (given.has .showSchema)
  | "resolve" => do
    let given ← optionsOf resolveNames arguments
    if given.has .help then return .help
    return .resolve (← resolveCall given)
  | "types" => do
    let given ← optionsOf [helpName] arguments
    return if given.has .help then .help else .types
  | _ => .error (.unknownCommand name)

/-- The names of the commands. -/
def names : List String :=
  ["validate", "resolve", "types"]

/-- What arguments ask for. Help comes before all else, and the version before what a command
asks for. -/
def ofArguments (arguments : List String) : Except UsageError Command := do
  let (given, operands) ← readArguments globalNames true arguments
  if given.has .help then return .help
  match operands with
  | [] => return if given.has .version then .version else .help
  | name :: rest =>
    if names.contains name then
      if given.has .version then return .version else ofName name rest
    else .error (.unknownCommand name)

/-- The files that a command reads, under the options that name them. -/
def files : Command → List (String × String)
  | .validate schema _ => [("--schema", schema)]
  | .resolve call =>
    ("--schema", call.schema) :: match call.initial with
      | some initial => [("--initial", initial)]
      | none => []
  | _ => []

/-- The first file that is missing. -/
def missingFile? (tree : Files.Tree) (c : Command) : Option UsageError :=
  (c.files.find? fun f => !tree.hasFile f.2).map fun f => .noSuchFile f.1 f.2

end Command

end Formwork.Console
