import Formwork.Resolution.Basic

/-!
# Sessions

A session holds the options in force, the outcome of the last resolution and the form
that was verified last. The initial values of the outcome can be edited; the descriptors
that were built from them stay as they are.
-/

namespace Formwork

/-- The outcome of a resolution with initial values that can be edited. A refused source has
none to begin with. -/
structure Outcome where
  verdict : Except Failure Resolution
  values : InitialValues

namespace Outcome

/-- The outcome of a resolution, not edited yet. -/
def of (verdict : Except Failure Resolution) : Outcome :=
  ⟨verdict, match verdict with
    | .ok r => r.values
    | .error _ => []⟩

/-- The form of the outcome. -/
def form? (o : Outcome) : Option Form :=
  match o.verdict with
  | .ok r => some r.form
  | .error _ => none

/-- The descriptors of the outcome, none for a refused source. -/
def tree (o : Outcome) : List Descriptor :=
  match o.verdict with
  | .ok r => r.tree
  | .error _ => []

/-- All inputs, each before those that it encloses. -/
def walk (o : Outcome) : List Descriptor :=
  Descriptor.walkAll o.tree

/-- The first input at a path. -/
def find? (o : Outcome) (path : String) : Option Descriptor :=
  o.walk.find? fun d => d.widget.path == path

/-- The outcome as a document value, with the initial values as they were edited. -/
def toJson? (o : Outcome) : Option Json :=
  match o.verdict with
  | .ok r => { r with values := o.values }.toJson?
  | .error f => some f.outcomeJson

/-- The outcome with other initial values. -/
def withValues (o : Outcome) (values : InitialValues) : Outcome :=
  { o with values }

end Outcome

/-- Why a step of a session cannot be done. -/
inductive StepError where
  | options (refusal : Options.Refusal)
  | resolve (error : ResolveError)
  | noForm
  | noInput
  | noKey
  | notList
  deriving DecidableEq, Repr

/-- The state of a session. -/
structure Session where
  options : Options
  outcome : Outcome
  verified : Option Form

namespace Session

variable [Host]

/-- A session with the standard options and the form without fields. -/
def start : Session :=
  ⟨.standard, .of (.ok ⟨⟨[], none⟩, [], []⟩), none⟩

/-- The session with the outcome of a computation. -/
def keep (s : Session) (verdict : Except Failure Resolution) : Session :=
  { s with outcome := .of verdict }

/-- Puts other options in force. -/
def setOptions (s : Session) (draft : Options.Draft) : Except StepError Session :=
  match Options.ofDraft draft with
  | .ok options => .ok { s with options }
  | .error refusal => .error (.options refusal)

/-- Resolves a source. -/
def resolve (s : Session) (initial : Option Json) (source : Source) : Except StepError Session :=
  match (Form.resolveSource s.options initial source).outcome with
  | .ok verdict => .ok (s.keep verdict)
  | .error e => .error (.resolve e)

/-- Verifies a source, and keeps its form or forgets the one before. -/
def verify (s : Session) (source : Source) : Except StepError (Session × Except Failure Form) :=
  match (Form.verify source).outcome with
  | .ok verdict => .ok ({ s with verified := verdict.toOption }, verdict)
  | .error fault => .error (.resolve (.fault fault))

/-- Resolves a form that is at hand. Unusable initial values count before a missing form. -/
def resolveForm (s : Session) (initial : Option Json) (form : Option Form) :
    Except StepError Session :=
  match Form.overridesOf initial, form with
  | .error e, _ => .error (.resolve e)
  | .ok _, none => .error .noForm
  | .ok _, some form =>
    match (form.resolveWith s.options initial).outcome with
    | .ok r => .ok (s.keep (.ok r))
    | .error e => .error (.resolve e)

/-- Sets an initial value. -/
def setValue (s : Session) (key : String) (value : Json) : Session :=
  { s with outcome := s.outcome.withValues (Entries.set s.outcome.values key (.json value)) }

/-- The elements of an initial value that is a list. -/
def listAt (s : Session) (key : String) : Except StepError (List Json) :=
  match Entries.get? s.outcome.values key with
  | none => .error .noKey
  | some (.json (.arr elements)) => .ok elements
  | some _ => .error .notList

/-- Puts a value at the end of an initial value that is a list. -/
def appendValue (s : Session) (key : String) (value : Json) : Except StepError Session :=
  (s.listAt key).map fun elements => s.setValue key (.arr (elements ++ [value]))

/-- Removes an initial value. -/
def deleteValue (s : Session) (key : String) : Except StepError Session :=
  match Entries.get? s.outcome.values key with
  | none => .error .noKey
  | some _ =>
    .ok { s with outcome := s.outcome.withValues (Entries.erase s.outcome.values key) }

/-- A field at the top of the form of the outcome, none if there is no field of the name. -/
def field? (s : Session) (name : String) : Except StepError (Option Field) :=
  match s.outcome.form? with
  | none => .error .noForm
  | some form => .ok (form.field? name)

/-- What the date rules of an input make of a value. -/
def readings (s : Session) (path : String) (value : Json) :
    Except StepError (List InitialValue) :=
  match s.outcome.find? path with
  | none => .error .noInput
  | some d =>
    d.widget.rules.filterMapM fun
      | .date _ reference =>
        match (Rule.readDate reference value).outcome with
        | .ok v => .ok (some v)
        | .error fault => .error (.resolve (.fault fault))
      | _ => .ok none

end Session

end Formwork
