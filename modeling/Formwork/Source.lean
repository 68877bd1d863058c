import Formwork.Encoding.Detect
import Formwork.Json.Reader

/-!
# Sources of documents

A document comes as a text of Unicode scalar values, or as bytes in an encoding that they
tell themselves. A value that is neither holds no document. Constants that stand for no
finite number are refused.
-/

namespace Formwork

/-- What is handed in as a document. -/
inductive Source where
  | text (value : String)
  | bytes (value : List UInt8)
  | other (value : Json)
  deriving Repr

/-- Why a source holds no document. -/
inductive SourceError where
  | encoding (error : Encoding.DecodeError)
  | format (text : List Char) (error : Json.ReadError)
  | kind (value : Json)

/-- The message of an error in a source. -/
def SourceError.message : SourceError → String
  | .encoding e => e.message
  | .format text e => e.message text
  | .kind value =>
    "the JSON object must be str, bytes or bytearray, not " ++ value.kindName

namespace Source

/-- The document of a source. -/
def load : Source → Except SourceError Json
  | .text s => (Json.read .refused s.toList).mapError (.format s.toList)
  | .bytes content =>
    match Encoding.decodeDetected content with
    | .error e => .error (.encoding e)
    | .ok chars => (Json.readChars .refused chars).mapError (.format chars)
  | .other value => .error (.kind value)

end Source

end Formwork
