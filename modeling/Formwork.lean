import Formwork.Calendar
import Formwork.Console.Argument
import Formwork.Console.Command
import Formwork.Console.Display
import Formwork.Console.Markup
import Formwork.Console.Transcript
import Formwork.DateText.Basic
import Formwork.DateText.Members
import Formwork.DateText.Numeral
import Formwork.DateText.Reading
import Formwork.DateText.Token
import Formwork.DateText.Word
import Formwork.Encoding.Basic
import Formwork.Encoding.Detect
import Formwork.Entries
import Formwork.Field.Authored
import Formwork.Field.Basic
import Formwork.Files.Path
import Formwork.Files.Tree
import Formwork.Form
import Formwork.Host
import Formwork.Json.Basic
import Formwork.Json.Frozen
import Formwork.Json.Printer
import Formwork.Json.ReadError
import Formwork.Json.Reader
import Formwork.Json.Token
import Formwork.Log.Audit
import Formwork.Log.Record
import Formwork.Main
import Formwork.Number.Basic
import Formwork.Number.Binary64
import Formwork.Number.Digits
import Formwork.Number.Shortest
import Formwork.Number.Text
import Formwork.Options
import Formwork.Proofs.Console.Output
import Formwork.Proofs.DateText.Completion
import Formwork.Proofs.DateText.Offset
import Formwork.Proofs.DateText.Precision
import Formwork.Proofs.DateText.ReadBack
import Formwork.Proofs.DateText.Steps
import Formwork.Proofs.DateText.Tokens
import Formwork.Proofs.DateText.Year
import Formwork.Proofs.Description.Acceptance
import Formwork.Proofs.Description.AddedDefault
import Formwork.Proofs.Description.Agreement
import Formwork.Proofs.Description.Alike
import Formwork.Proofs.Description.Authored
import Formwork.Proofs.Description.Basic
import Formwork.Proofs.Description.Blame
import Formwork.Proofs.Description.Document
import Formwork.Proofs.Description.Edits
import Formwork.Proofs.Description.FirstFailure
import Formwork.Proofs.Description.Hints
import Formwork.Proofs.Description.Interruption
import Formwork.Proofs.Description.Leaves
import Formwork.Proofs.Description.Localization
import Formwork.Proofs.Description.Members
import Formwork.Proofs.Description.Nesting
import Formwork.Proofs.Description.Numbers
import Formwork.Proofs.Description.Order
import Formwork.Proofs.Description.Reordering
import Formwork.Proofs.Description.Reports
import Formwork.Proofs.Description.Years
import Formwork.Proofs.Encoding.Documents
import Formwork.Proofs.Encoding.Encoded
import Formwork.Proofs.Entries
import Formwork.Proofs.Field.Nested
import Formwork.Proofs.Files.Folders
import Formwork.Proofs.Json.NumberText
import Formwork.Proofs.Json.Numeral
import Formwork.Proofs.Json.ReadBack
import Formwork.Proofs.Json.Reader
import Formwork.Proofs.Json.Regular
import Formwork.Proofs.Json.TextLiteral
import Formwork.Proofs.Json.Tokens
import Formwork.Proofs.Number.Decimal
import Formwork.Proofs.Number.Digits
import Formwork.Proofs.Number.Rounding
import Formwork.Proofs.Number.Shortest
import Formwork.Proofs.Outcome
import Formwork.Proofs.Related
import Formwork.Proofs.Resolution.Authored
import Formwork.Proofs.Resolution.Bindings
import Formwork.Proofs.Resolution.Dates
import Formwork.Proofs.Resolution.Defaults
import Formwork.Proofs.Resolution.Flattening
import Formwork.Proofs.Resolution.Frame
import Formwork.Proofs.Resolution.Members
import Formwork.Proofs.Resolution.Mirror
import Formwork.Proofs.Resolution.Paths
import Formwork.Proofs.Resolution.Postorder
import Formwork.Proofs.Resolution.Rules
import Formwork.Proofs.Resolution.Saved
import Formwork.Proofs.Resolution.Soundness
import Formwork.Proofs.Resolution.Spans
import Formwork.Proofs.Resolution.Stepwise
import Formwork.Proofs.Resolution.Unbound
import Formwork.Proofs.Resolution.Values
import Formwork.Proofs.Resolution.Verdict
import Formwork.Proofs.Resolution.Written
import Formwork.Proofs.Resolution.Years
import Formwork.Proofs.Value.Accepts
import Formwork.Proofs.Value.Mismatches
import Formwork.Proofs.Value.Stalls
import Formwork.Report
import Formwork.Resolution.Basic
import Formwork.Resolution.Descriptor
import Formwork.Resolution.InitialValue
import Formwork.Resolution.Rule
import Formwork.Resolution.Slot
import Formwork.Session
import Formwork.Source
import Formwork.Text.Blank
import Formwork.Text.Digit
import Formwork.Text.Letter
import Formwork.Text.Pieces
import Formwork.Text.Printable
import Formwork.Text.Quoted
import Formwork.Text.Ranges
import Formwork.Text.Unit
import Formwork.Verification.Attributes
import Formwork.Verification.Failure
import Formwork.Verification.Field
import Formwork.Verification.Flaw
import Formwork.Verification.Mismatch
import Formwork.Verification.Value
