import Formwork.DateText.Basic
import Formwork.Json.Printer
import Formwork.Report
import Formwork.Source

/-!
# Records of what was done

Each step of verification and resolution leaves a record. A record has a severity and
the name of the part that made it; readers keep the records from some severity on.
-/

namespace Formwork

/-- How severe a record is. -/
inductive Severity where
  | debug
  | info
  | warning
  | error
  | critical
  deriving DecidableEq, Repr

/-- The rank of a severity. -/
def Severity.rank : Severity → Nat
  | .debug => 10
  | .info => 20
  | .warning => 30
  | .error => 40
  | .critical => 50

/-- The name of a severity. -/
def Severity.name : Severity → String
  | .debug => "DEBUG"
  | .info => "INFO"
  | .warning => "WARNING"
  | .error => "ERROR"
  | .critical => "CRITICAL"

/-- The names that a threshold can be given by, with their ranks. -/
def thresholdNames : List (String × Nat) :=
  [("CRITICAL", 50), ("FATAL", 50), ("ERROR", 40), ("WARN", 30), ("WARNING", 30), ("INFO", 20),
    ("DEBUG", 10), ("NOTSET", 0)]

/-- The rank from which on records are kept; zero leaves the choice open, and then warnings are
the least that is kept. -/
def effectiveThreshold (rank : Int) : Int :=
  if rank = 0 then Severity.warning.rank else rank

/-- What was done. -/
inductive Record where
  | sourceRefused (error : SourceError)
  | dateRejected (reason : DateText.Rejection)
  | fieldVerified (path : String) (type : FieldType)
  | formVerified (fields : Nat)
  | formRejected (failure : Failure)
  | dateDropped (key : String) (value : Json)
  | defaultsExtracted (count : Nat)
  | descriptorsResolved (count : Nat)
  | formResolved (fields values : Nat)

namespace Record

/-- The severity of a record. -/
def severity : Record → Severity
  | .dateDropped _ _ => .warning
  | .formRejected _ | .formResolved _ _ => .info
  | _ => .debug

/-- The part that made the record. -/
def logger : Record → String
  | .sourceRefused _ | .formRejected _ => "form_guard.validation.validator"
  | .dateRejected _ => "form_guard.schema.dates"
  | .fieldVerified _ _ | .formVerified _ => "form_guard.schema.parser"
  | .dateDropped _ _ | .defaultsExtracted _ => "form_guard.resolution.defaults"
  | .descriptorsResolved _ => "form_guard.resolution.resolver"
  | .formResolved _ _ => "form_guard.engine"

/-- The message of a record. -/
def message : Record → String
  | .sourceRefused e => "Schema text is not valid JSON: " ++ e.message
  | .dateRejected reason => "Date conversion failed: " ++ reason.message
  | .fieldVerified path type => "Verified field " ++ path ++ " (" ++ type.name ++ ")"
  | .formVerified fields => "Verified schema with " ++ Number.shown fields ++ " top-level field(s)"
  | .formRejected f => "Schema rejected (" ++ f.kind ++ "): " ++ f.message
  | .dateDropped key value =>
    "Dropping unparsable date default for " ++ key ++ ": " ++ value.render Json.displayed
  | .defaultsExtracted count => "Extracted " ++ Number.shown count ++ " default value(s)"
  | .descriptorsResolved count => "Resolved " ++ Number.shown count ++ " field descriptor(s)"
  | .formResolved fields values =>
    "Resolved schema: " ++ Number.shown fields ++ " field(s), " ++ Number.shown values
      ++ " initial value(s)"

/-- The line of a record. -/
def line (r : Record) : String :=
  r.severity.name ++ " " ++ r.logger ++ ": " ++ r.message

/-- The records that a threshold keeps. -/
def kept (threshold : Int) (records : List Record) : List Record :=
  records.filter fun r => effectiveThreshold threshold ≤ r.severity.rank

end Record

end Formwork
