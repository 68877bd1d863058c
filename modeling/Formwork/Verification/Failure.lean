import Formwork.Verification.Flaw

/-!
# Failures of verification

A document fails at its first flaw. A flaw of a field is reported with the path of the
field and with the fields that enclose it. Beside failures there are faults, which no
check reports: they arise from limits of exact arithmetic and of storage.
-/

namespace Formwork

/-- A field that encloses the failing one, and how. -/
inductive Enclosure where
  | items (owner : String)
  | property (key owner : String)
  deriving DecidableEq, Repr

/-- The words that an enclosing field puts before a message. -/
def Enclosure.phrase : Enclosure → String
  | .items owner => "Invalid array items for field " ++ owner ++ ": "
  | .property key owner => "Invalid property " ++ key ++ " in object field " ++ owner ++ ": "

/-- A flaw of a field: where it is, the enclosing fields from the outermost one on, the name of
the field and the flaw. -/
structure FieldFailure where
  path : Option String
  chain : List Enclosure
  name : String
  flaw : Flaw
  deriving DecidableEq, Repr

namespace FieldFailure

/-- The message: the words of the enclosing fields, then those of the flaw. -/
def message (f : FieldFailure) : String :=
  f.chain.foldr (fun e rest => e.phrase ++ rest) (f.flaw.message f.name)

/-- The failure as the enclosing field reports it. -/
def within (e : Enclosure) (f : FieldFailure) : FieldFailure :=
  { f with chain := e :: f.chain }

/-- The failure concerns the contents of a default and was not passed on by an enclosing field. -/
def concernsContents (f : FieldFailure) : Bool :=
  f.chain.isEmpty && f.flaw.concernsContents

end FieldFailure

/-- What is wrong with the shape of a document. -/
inductive ShapeFlaw where
  | notObject
  | noFields
  | nesting
  | storage
  | layoutNotObject
  | layoutColumns
  | layoutMobileColumns
  | layoutGutter
  deriving DecidableEq, Repr

/-- The wording of a flaw of the shape. -/
def ShapeFlaw.message : ShapeFlaw → String
  | .notObject => "Schema must be a valid JSON object"
  | .noFields => "Schema must have a fields array"
  | .nesting => "Schema nesting is too deep (more than 32 levels)"
  | .storage => "Schema nesting is too deep"
  | .layoutNotObject => "Layout must be an object"
  | .layoutColumns => "Layout columns must be a positive integer"
  | .layoutMobileColumns => "Layout mobileColumns must be a positive integer"
  | .layoutGutter => "Layout gutter must be an array of two non-negative integers"

/-- The first failure of a document. -/
inductive Failure where
  | malformed
  | shape (flaw : ShapeFlaw) (path : Option String)
  | field (failure : FieldFailure)
  deriving DecidableEq, Repr

namespace Failure

/-- The kind of a failure. -/
def kind : Failure → String
  | .malformed => "malformed"
  | .shape _ _ => "shape"
  | .field _ => "field"

/-- The message of a failure. -/
def message : Failure → String
  | .malformed => "Invalid JSON format"
  | .shape flaw _ => flaw.message
  | .field f => f.message

/-- Where the failure is, none for the document as a whole. -/
def path : Failure → Option String
  | .malformed => none
  | .shape _ path => path
  | .field f => f.path

end Failure

/-- What ends a verification without a failure. -/
inductive Fault where
  /-- A fraction in a date text was asked of a number with too many digits. -/
  | imprecise
  /-- A value nests too deeply to be copied. -/
  | storage
  deriving DecidableEq, Repr

/-- What ends the verification of a field. -/
inductive Stop where
  | failure (failure : Failure)
  | fault (fault : Fault)
  deriving DecidableEq, Repr

end Formwork
