import Formwork.Encoding.Basic

/-!
# Finding the encoding of a document

A byte order mark tells the encoding. Without one, the first characters of a document
are ASCII, so the zero bytes among the first four bytes tell the width of a unit and
the order of its bytes.
-/

namespace Formwork.Encoding

/-- The encoding that a byte order mark at the front tells, and the bytes of the mark. -/
def marked? : List UInt8 → Option (Encoding × Nat)
  | 0x00 :: 0x00 :: 0xFE :: 0xFF :: _ => some (.utf32 .big, 4)
  | 0xFF :: 0xFE :: 0x00 :: 0x00 :: _ => some (.utf32 .little, 4)
  | 0xFE :: 0xFF :: _ => some (.utf16 .big, 2)
  | 0xFF :: 0xFE :: _ => some (.utf16 .little, 2)
  | 0xEF :: 0xBB :: 0xBF :: _ => some (.utf8, 3)
  | _ => none

/-- The encoding that the zero bytes at the front tell. -/
def unmarked : List UInt8 → Encoding
  | [a, b] =>
    if a = 0 then .utf16 .big
    else if b = 0 then .utf16 .little
    else .utf8
  | a :: b :: c :: d :: _ =>
    if a = 0 then (if b = 0 then .utf32 .big else .utf16 .big)
    else if b = 0 then (if c = 0 && d = 0 then .utf32 .little else .utf16 .little)
    else .utf8
  | _ => .utf8

/-- The text of bytes in the encoding that they tell. A mark is no part of the text; the mark of
the form with units of one byte does not count in positions either. -/
def decodeDetected (bytes : List UInt8) : Except DecodeError (List Char) :=
  match marked? bytes with
  | some (.utf8, length) => decodeFrom 0 .utf8 (bytes.drop length)
  | some (encoding, length) => decodeFrom length encoding (bytes.drop length)
  | none => decodeFrom 0 (unmarked bytes) bytes

end Formwork.Encoding
