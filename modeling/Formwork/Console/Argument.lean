import Formwork.Text.Pieces

/-!
# Arguments of a command

A command is called with arguments. An argument with a dash in front gives options:
one by its long name, to which a value may be joined by an equals sign, or several by
their letters, of which the last one may be followed by its value. Other arguments are
operands, and two dashes alone end the options.
-/

namespace Formwork.Console

/-- A name under which an option is given. -/
structure OptionName (κ : Type) where
  long : String
  letter : Option Char
  takesValue : Bool
  key : κ

/-- Why arguments cannot be used. -/
inductive UsageError where
  | unknownOption (name : String)
  | missingValue (name : String)
  | unexpectedValue (name : String)
  | unknownCommand (name : String)
  | extraOperand (operand : String)
  | missingOption (name : String)
  | notInteger (name value : String)
  | tooSmall (name value : String)
  | noSuchFile (name value : String)
  deriving DecidableEq, Repr

/-- The message of a wrong use. -/
def UsageError.message : UsageError → String
  | .unknownOption name => "No such option: " ++ name
  | .missingValue name => "Option '" ++ name ++ "' requires an argument."
  | .unexpectedValue name => "Option '" ++ name ++ "' does not take a value."
  | .unknownCommand name => "No such command '" ++ name ++ "'."
  | .extraOperand operand => "Got unexpected extra argument (" ++ operand ++ ")"
  | .missingOption name => "Missing option '" ++ name ++ "'."
  | .notInteger name value =>
    "Invalid value for '" ++ name ++ "': '" ++ value ++ "' is not a valid integer."
  | .tooSmall name value =>
    "Invalid value for '" ++ name ++ "': " ++ value ++ " is not in the range x>=1."
  | .noSuchFile name value =>
    "Invalid value for '" ++ name ++ "': File '" ++ value ++ "' does not exist."

/-- Options in the order in which they were given, each with its value, if it takes one. -/
abbrev Given (κ : Type) := List (κ × String)

/-- What one argument gives: options, and maybe one that takes the next argument as its value. -/
structure Reading (κ : Type) where
  given : Given κ
  pending : Option (OptionName κ)

variable {κ : Type}

/-- The option of a letter. -/
def ofLetter? (names : List (OptionName κ)) (c : Char) : Option (OptionName κ) :=
  names.find? fun n => n.letter == some c

/-- The options that letters give. -/
def readLetters (names : List (OptionName κ)) : List Char → Except UsageError (Reading κ)
  | [] => .ok ⟨[], none⟩
  | c :: cs =>
    match ofLetter? names c with
    | none => .error (.unknownOption (String.ofList ['-', c]))
    | some n =>
      if n.takesValue then
        .ok (if cs.isEmpty then ⟨[], some n⟩ else ⟨[(n.key, String.ofList cs)], none⟩)
      else do
        let r ← readLetters names cs
        return { r with given := (n.key, "") :: r.given }

/-- The value that is joined to a long name. -/
def joined? (arg : List Char) : Option String :=
  match arg.dropWhile (· != '=') with
  | [] => none
  | _ :: value => some (String.ofList value)

/-- The options that an argument with a dash in front gives. -/
def readOption (names : List (OptionName κ)) (arg : String) : Except UsageError (Reading κ) :=
  let cs := arg.toList
  let long := String.ofList (cs.takeWhile (· != '='))
  match names.find? (·.long == long), cs with
  | some n, _ =>
    match n.takesValue, joined? cs with
    | true, some value => .ok ⟨[(n.key, value)], none⟩
    | true, none => .ok ⟨[], some n⟩
    | false, none => .ok ⟨[(n.key, "")], none⟩
    | false, some _ => .error (.unexpectedValue long)
  | none, '-' :: '-' :: _ => .error (.unknownOption long)
  | none, _ => readLetters names cs.tail

/-- The argument has a dash in front of something. -/
def isOption (arg : String) : Bool :=
  match arg.toList with
  | '-' :: _ :: _ => true
  | _ => false

/-- The options and the operands among arguments. A call that goes on with a command of its own
ends its options at the first operand. -/
def readArguments (names : List (OptionName κ)) (endsAtOperand : Bool) :
    List String → Except UsageError (Given κ × List String)
  | [] => .ok ([], [])
  | arg :: rest =>
    if arg = "--" then .ok ([], rest)
    else if isOption arg then do
      let r ← readOption names arg
      match r.pending with
      | none =>
        let (given, operands) ← readArguments names endsAtOperand rest
        return (r.given ++ given, operands)
      | some n =>
        match rest with
        | [] => .error (.missingValue n.long)
        | value :: rest =>
          let (given, operands) ← readArguments names endsAtOperand rest
          return (r.given ++ (n.key, value) :: given, operands)
    else if endsAtOperand then .ok ([], arg :: rest)
    else do
      let (given, operands) ← readArguments names endsAtOperand rest
      return (given, arg :: operands)

namespace Given

variable [DecidableEq κ]

/-- The option was given. -/
def has (given : Given κ) (key : κ) : Bool :=
  given.any (·.1 == key)

/-- The value of an option; the last one counts. -/
def value? (given : Given κ) (key : κ) : Option String :=
  (given.reverse.find? (·.1 == key)).map (·.2)

end Given

end Formwork.Console
