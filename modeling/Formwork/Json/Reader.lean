import Formwork.Json.Token

/-!
# Reading a document

The reader goes over the tokens once. It keeps the containers that are open, each
with what it holds so far, and a phase that says what may come next. Of several
faults the first one in the text is reported.
-/

namespace Formwork.Json

/-- An open container: an array with its elements so far, last one first, or an object with its
members so far and the key whose value comes next. -/
inductive Open where
  | array (before : List Json)
  | object (before : List (String × Json)) (key : String)

/-- What may come next. -/
inductive Phase where
  /-- A value. -/
  | value
  /-- The first element of an array, or its end. -/
  | firstElement
  /-- The first key of an object, or its end. -/
  | firstKey
  /-- A further key of an object with the given members. -/
  | key (before : List (String × Json))
  /-- The colon after a key. -/
  | colon (before : List (String × Json)) (key : String)
  /-- What continues or ends the innermost open container after a value. -/
  | after (value : Json)

/-- The constants for numbers that are not finite are values, or are refused. -/
inductive Constants where
  | refused
  | allowed
  deriving DecidableEq

/-- The value of a constant. -/
def Constant.value : Constant → Json
  | .nan => .num (.float .undefined)
  | .infinity => .num (.float (.infinity false))
  | .negativeInfinity => .num (.float (.infinity true))

/-- The most containers that may be open at once. -/
def openLimit : Nat := 990

/-- The open containers and the phase after a token where a value may begin. -/
def beginValue (constants : Constants) (stack : List Open) (t : Placed) :
    Except ReadError (List Open × Phase) :=
  match t.token with
  | .text s => .ok (stack, .after (.str s))
  | .scalar j => .ok (stack, .after j)
  | .constant name =>
    match constants with
    | .refused => .error (.constant name)
    | .allowed => .ok (stack, .after name.value)
  | .beginArray =>
    if stack.length < openLimit then .ok (stack, .firstElement) else .error (.tooDeep .array)
  | .beginObject =>
    if stack.length < openLimit then .ok (stack, .firstKey) else .error (.tooDeep .object)
  | .brokenText e | .broken e => .error e
  | _ => .error (.fault .expectedValue t.position)

/-- The phase after a token where a key may stand. -/
def beginKey (before : List (String × Json)) (t : Placed) : Except ReadError Phase :=
  match t.token with
  | .text s => .ok (.colon before s)
  | .brokenText e => .error e
  | _ => .error (.fault .expectedKey t.position)

/-- One token more. -/
def step (constants : Constants) (stack : List Open) (phase : Phase) (t : Placed) :
    Except ReadError (List Open × Phase) :=
  match phase with
  | .value => beginValue constants stack t
  | .firstElement =>
    match t.token with
    | .endArray => .ok (stack, .after (.arr []))
    | _ => beginValue constants (.array [] :: stack) t
  | .firstKey =>
    match t.token with
    | .endObject => .ok (stack, .after (.obj []))
    | _ => return (stack, ← beginKey [] t)
  | .key before => return (stack, ← beginKey before t)
  | .colon before key =>
    match t.token with
    | .colon => .ok (.object before key :: stack, .value)
    | _ => .error (.fault .expectedColon t.position)
  | .after value =>
    match stack with
    | [] => .error (.fault .extraData t.position)
    | .array before :: stack =>
      match t.token with
      | .comma => .ok (.array (value :: before) :: stack, .value)
      | .endArray => .ok (stack, .after (.arr (value :: before).reverse))
      | _ => .error (.fault .expectedComma t.position)
    | .object before key :: stack =>
      match t.token with
      | .comma => .ok (stack, .key (Entries.set before key value))
      | .endObject => .ok (stack, .after (.obj (Entries.set before key value)))
      | _ => .error (.fault .expectedComma t.position)

/-- The outcome if the text ends here. -/
def finish (length : Nat) (stack : List Open) (phase : Phase) : Except ReadError Json :=
  match phase, stack with
  | .after value, [] => .ok value
  | .after _, _ :: _ => .error (.fault .expectedComma length)
  | .value, _ | .firstElement, _ => .error (.fault .expectedValue length)
  | .firstKey, _ | .key _, _ => .error (.fault .expectedKey length)
  | .colon _ _, _ => .error (.fault .expectedColon length)

/-- Reads the tokens that are left. -/
def run (constants : Constants) (length : Nat) :
    List Open → Phase → List Placed → Except ReadError Json
  | stack, phase, [] => finish length stack phase
  | stack, phase, t :: rest => do
    let (stack, phase) ← step constants stack phase t
    run constants length stack phase rest

/-- The mark that some writers put in front of a text. -/
def byteOrderMark : Char := Char.ofNat 0xFEFF

/-- Reads characters as one document. -/
def readChars (constants : Constants) (text : List Char) : Except ReadError Json :=
  run constants text.length [] .value (tokens text)

/-- Reads a text as one document; a text may not begin with a byte order mark. -/
def read (constants : Constants) (text : List Char) : Except ReadError Json :=
  if text.head? = some byteOrderMark then .error (.fault .byteOrderMark 0)
  else readChars constants text

end Formwork.Json
