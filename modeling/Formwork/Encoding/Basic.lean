import Formwork.Number.Digits
import Formwork.Text.Quoted
import Formwork.Text.Unit

/-!
# Encodings of text

A text is stored in one of three forms, in units of one, two or four bytes; units of
several bytes come in either order. Each form has one way to write a character. The
numbers that are reserved for the halves of pairs stand for no character; where bytes
hold one all the same, it is replaced or refused.
-/

namespace Formwork

/-- The order of the bytes of a unit: most or least significant byte first. -/
inductive ByteOrder where
  | big
  | little
  deriving DecidableEq, Repr

/-- A form in which text is stored. -/
inductive Encoding where
  | utf8
  | utf16 (order : ByteOrder)
  | utf32 (order : ByteOrder)
  deriving DecidableEq, Repr

namespace Encoding

/-- The name of an encoding. -/
def name : Encoding → String
  | .utf8 => "utf-8"
  | .utf16 .big => "utf-16-be"
  | .utf16 .little => "utf-16-le"
  | .utf32 .big => "utf-32-be"
  | .utf32 .little => "utf-32-le"

/-- Why bytes are no text. -/
inductive Reason where
  | invalidStartByte
  | invalidContinuationByte
  | unexpectedEnd
  | truncated
  | outOfRange
  deriving DecidableEq, Repr

/-- The wording of a reason. -/
def Reason.message : Reason → String
  | .invalidStartByte => "invalid start byte"
  | .invalidContinuationByte => "invalid continuation byte"
  | .unexpectedEnd => "unexpected end of data"
  | .truncated => "truncated data"
  | .outOfRange => "code point not in range(0x110000)"

/-- The first bytes that are no text: where they start, the first one, and how many they are. -/
structure DecodeError where
  encoding : Encoding
  position : Nat
  first : UInt8
  count : Nat
  reason : Reason
  deriving DecidableEq, Repr

/-- The message of a failed decoding. -/
def DecodeError.message (e : DecodeError) : String :=
  "'" ++ e.encoding.name ++ "' codec can't decode "
    ++ (if e.count = 1 then
        "byte 0x" ++ String.ofList (Text.hexDigits 2 e.first.toNat) ++ " in position "
          ++ Number.shown e.position
      else
        "bytes in position " ++ Number.shown e.position ++ "-"
          ++ Number.shown (e.position + e.count - 1))
    ++ ": " ++ e.reason.message

/-- A byte that continues a character of several bytes. -/
def isContinuation (b : UInt8) : Bool :=
  0x80 ≤ b && b < 0xC0

/-- The six bits of a continuation. -/
def low6 (b : UInt8) : Nat :=
  b.toNat % 64

/-- What is done with half of a pair that stands alone. -/
inductive Halves where
  | replaced
  | refused
  deriving DecidableEq, Repr

/-- The bytes would be half of a pair if they stood for a character of three bytes. -/
def isHalf3 (a b c : UInt8) : Bool :=
  a == 0xED && 0xA0 ≤ b && isContinuation b && isContinuation c

/-- The second byte may follow the first one of a character of three bytes. -/
def continues3 (a b : UInt8) : Bool :=
  isContinuation b && (a != 0xE0 || 0xA0 ≤ b) && (a != 0xED || b < 0xA0)

/-- The second byte may follow the first one of a character of four bytes. -/
def continues4 (a b : UInt8) : Bool :=
  isContinuation b && (a != 0xF0 || 0x90 ≤ b) && (a != 0xF4 || b < 0x90)

/-- Decodes bytes of the form with units of one byte. `before` are the characters so far, last
one first. -/
def decode8 (halves : Halves) (position : Nat) (before : List Char) :
    List UInt8 → Except DecodeError (List Char)
  | [] => .ok before.reverse
  | a :: rest =>
    let fail (count : Nat) (reason : Reason) : Except DecodeError (List Char) :=
      .error ⟨.utf8, position, a, count, reason⟩
    if a < 0x80 then decode8 halves (position + 1) (Char.ofNat a.toNat :: before) rest
    else if a < 0xC2 then fail 1 .invalidStartByte
    else if a < 0xE0 then
      match rest with
      | [] => fail 1 .unexpectedEnd
      | b :: rest =>
        if isContinuation b then
          decode8 halves (position + 2) (Char.ofNat (64 * (a.toNat % 32) + low6 b) :: before) rest
        else fail 1 .invalidContinuationByte
    else if a < 0xF0 then
      match rest with
      | [] => fail 1 .unexpectedEnd
      | b :: rest =>
        if continues3 a b then
          match rest with
          | [] => fail 2 .unexpectedEnd
          | c :: rest =>
            if isContinuation c then
              decode8 halves (position + 3)
                (Char.ofNat (4096 * (a.toNat % 16) + 64 * low6 b + low6 c) :: before) rest
            else fail 2 .invalidContinuationByte
        else
          match rest with
          | [] => fail 1 .invalidContinuationByte
          | c :: rest =>
            if halves = .replaced && isHalf3 a b c then
              decode8 halves (position + 3) (Text.replacement :: before) rest
            else fail 1 .invalidContinuationByte
    else if a < 0xF5 then
      match rest with
      | [] => fail 1 .unexpectedEnd
      | b :: rest =>
        if continues4 a b then
          match rest with
          | [] => fail 2 .unexpectedEnd
          | c :: rest =>
            if isContinuation c then
              match rest with
              | [] => fail 3 .unexpectedEnd
              | d :: rest =>
                if isContinuation d then
                  decode8 halves (position + 4)
                    (Char.ofNat (262144 * (a.toNat % 8) + 4096 * low6 b + 64 * low6 c + low6 d)
                      :: before) rest
                else fail 3 .invalidContinuationByte
            else fail 2 .invalidContinuationByte
        else fail 1 .invalidContinuationByte
    else fail 1 .invalidStartByte

/-- The unit that two bytes make up. -/
def unit16 (order : ByteOrder) (a b : UInt8) : Nat :=
  match order with
  | .big => 256 * a.toNat + b.toNat
  | .little => 256 * b.toNat + a.toNat

/-- Decodes bytes of the form with units of two bytes. Half of a pair that stands alone is
replaced. -/
def decode16 (order : ByteOrder) (position : Nat) (before : List Char) :
    List UInt8 → Except DecodeError (List Char)
  | [] => .ok before.reverse
  | a :: rest =>
    let fail (count : Nat) (reason : Reason) : Except DecodeError (List Char) :=
      .error ⟨.utf16 order, position, a, count, reason⟩
    match rest with
    | [] => fail 1 .truncated
    | b :: rest =>
      let u := unit16 order a b
      match rest with
      | c :: d :: rest =>
        let v := unit16 order c d
        if Text.isHighUnit u && Text.isLowUnit v then
          decode16 order (position + 4) (Text.ofPair u v :: before) rest
        else decode16 order (position + 2) (Text.ofUnit u :: before) (c :: d :: rest)
      | rest => decode16 order (position + 2) (Text.ofUnit u :: before) rest

/-- The unit that four bytes make up. -/
def unit32 (order : ByteOrder) (a b c d : UInt8) : Nat :=
  match order with
  | .big => 65536 * unit16 .big a b + unit16 .big c d
  | .little => 65536 * unit16 .little c d + unit16 .little a b

/-- Decodes bytes of the form with units of four bytes. Half of a pair is replaced. -/
def decode32 (order : ByteOrder) (position : Nat) (before : List Char) :
    List UInt8 → Except DecodeError (List Char)
  | [] => .ok before.reverse
  | a :: b :: c :: d :: rest =>
    let u := unit32 order a b c d
    if 0x110000 ≤ u then .error ⟨.utf32 order, position, a, 4, .outOfRange⟩
    else decode32 order (position + 4) (Text.ofUnit u :: before) rest
  | a :: rest => .error ⟨.utf32 order, position, a, 1 + rest.length, .truncated⟩

/-- Decodes bytes, which start at a position, and replaces halves of pairs. -/
def decodeFrom (position : Nat) : Encoding → List UInt8 → Except DecodeError (List Char)
  | .utf8, bytes => decode8 .replaced position [] bytes
  | .utf16 order, bytes => decode16 order position [] bytes
  | .utf32 order, bytes => decode32 order position [] bytes

end Encoding

end Formwork
