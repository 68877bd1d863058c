import Formwork.Form
import Formwork.Proofs.Encoding.Encoded
import Formwork.Proofs.Number.Digits
import Formwork.Proofs.Outcome

/-!
# Documents in any encoding

A document begins with a character of ASCII that is not null, and no null follows it. So the bytes
of a document tell its encoding, with a byte order mark or without one, and hold the same document
as its text.

## Main results

* `Json.exists_begins`: how the text of a document begins.
* `Encoding.decodeDetected_bytesOf`: a text that begins so is decoded from any of its encodings.
* `Form.verify_encoded`: bytes are verified as the text is.
-/

namespace Formwork

namespace Json

/-- The null character, whose bytes are zero in every encoding. -/
def nul : Char := '\x00'

/-- A character of ASCII other than null. -/
def Ascii (c : Char) : Prop :=
  c ≠ nul ∧ c.toNat < 0x80

instance : DecidablePred Ascii := fun c =>
  inferInstanceAs (Decidable (c ≠ nul ∧ c.toNat < 0x80))

/-- The text begins with a character of ASCII, and neither it nor the one after it is null. -/
def Begins (text : List Char) : Prop :=
  ∃ c rest, text = c :: rest ∧ Ascii c ∧ rest.head? ≠ some nul

variable {constants : Constants} {length steps position : Nat} {stack : List Open} {phase : Phase}
  {c : Char} {rest : List Char}

/-- The reader stops at a piece that is no token. -/
theorem step_ne_ok_of_isBroken {t : Placed} (h : t.token.isBroken = true)
    (next : List Open × Phase) : step constants stack phase t ≠ .ok next := by
  obtain ⟨position, token⟩ := t
  cases token with
  | brokenText e | broken e =>
      cases phase with
      | after value =>
          cases stack with
          | nil => nofun
          | cons o stack => cases o <;> nofun
      | _ => nofun
  | _ => cases h

/-- A document has tokens only. -/
theorem isBroken_of_run {ts : List Placed} {j : Json}
    (h : run constants length stack phase ts = .ok j) : ∀ t ∈ ts, t.token.isBroken = false := by
  induction ts generalizing stack phase with
  | nil => simp
  | cons t ts ih =>
      rw [run] at h
      obtain ⟨next, hstep, hrest⟩ := bind_eq_ok_iff.mp h
      rw [List.forall_mem_cons]
      refine ⟨?_, ih hrest⟩
      by_contra hbroken
      exact step_ne_ok_of_isBroken (Bool.not_eq_false _ ▸ hbroken) next hstep

theorem ascii_of_isSpace (h : isSpace c = true) : Ascii c := by
  simp only [isSpace, Bool.or_eq_true, beq_iff_eq] at h
  rcases h with ((rfl | rfl) | rfl) | rfl <;> decide

theorem ascii_of_isDigit (h : isDigit c = true) : Ascii c := by
  obtain ⟨hlower, hupper⟩ := Number.toNat_of_isDigit h
  refine ⟨?_, by omega⟩
  rintro rfl
  exact absurd hlower (by decide)

theorem ascii_of_punctuation? {t : Token} (h : punctuation? c = some t) : Ascii c := by
  unfold punctuation? at h
  split at h <;> first | decide | cases h

theorem ascii_of_word? {w : Token × Nat} (h : word? (c :: rest) = some w) : Ascii c := by
  obtain ⟨x, hx, -⟩ := Option.map_eq_some_iff.mp h
  have hmem := List.mem_of_find?_eq_some hx
  have hprefix := List.find?_some hx
  simp only [words, List.mem_cons, List.not_mem_nil, or_false] at hmem
  rcases hmem with rfl | rfl | rfl | rfl | rfl | rfl <;>
    obtain ⟨rfl, -⟩ := List.cons_prefix_cons.mp (List.isPrefixOf_iff_prefix.mp hprefix) <;>
    decide

theorem ascii_of_wholePart (h : wholePart (c :: rest) ≠ []) : Ascii c := by
  by_cases hzero : c = '0'
  · subst hzero
    decide
  · by_cases hdigit : isDigit c = true
    · exact ascii_of_isDigit hdigit
    · rw [wholePart, if_neg hzero, if_neg hdigit] at h
      exact absurd rfl h

theorem ascii_of_numberToken (h : (numberToken position (c :: rest)).1.isBroken = false) :
    Ascii c := by
  by_cases hsign : c = '-'
  · subst hsign
    decide
  · have hwhole : wholePart (c :: rest) ≠ [] := by
      intro hempty
      simp [numberToken, hsign, hempty, Token.isBroken] at h
    exact ascii_of_wholePart hwhole

/-- A token begins with a character of ASCII. -/
theorem ascii_of_nextToken (h : (nextToken position c rest).1.isBroken = false) : Ascii c := by
  unfold nextToken at h
  split at h
  · rename_i t ht
    exact ascii_of_punctuation? ht
  · split at h
    · rename_i hquote
      subst hquote
      decide
    · cases hword : word? (c :: rest) with
      | some w => exact ascii_of_word? hword
      | none =>
          rw [hword] at h
          exact ascii_of_numberToken h

theorem wholePart_nul (c : Char) (rest : List Char) :
    wholePart (c :: nul :: rest) = [] ∨ wholePart (c :: nul :: rest) = [c] := by
  have hend : (nul :: rest).takeWhile isDigit = [] := rfl
  rw [wholePart, hend]
  by_cases hzero : c = '0'
  · exact .inr (by rw [if_pos hzero, hzero])
  · rw [if_neg hzero]
    by_cases hdigit : isDigit c = true
    · exact .inr (if_pos hdigit)
    · exact .inl (if_neg hdigit)

/-- A number does not go on with a null, so one digit is all there is of it before the null. -/
theorem numberToken_nul (h : (numberToken position (c :: nul :: rest)).1.isBroken = false) :
    (numberToken position (c :: nul :: rest)).2 = 1 := by
  have hnone : wholePart (nul :: rest) = [] := rfl
  have hfraction : fractionPart (nul :: rest) = [] := rfl
  have hexponent : exponentPart? (nul :: rest) = none := rfl
  have hlimit : ¬ Text.digitLimit < 1 := by decide
  by_cases hsign : c = '-'
  · simp [numberToken, hsign, hnone, Token.isBroken] at h
  · rcases wholePart_nul c rest with hwhole | hwhole
    · simp [numberToken, hsign, hwhole, Token.isBroken] at h
    · simp [numberToken, hsign, hwhole, hfraction, hexponent, hlimit]

theorem word?_nul : word? (c :: nul :: rest) = none := by
  simp [word?, words, nul]

/-- No token goes on with a null. -/
theorem nextToken_nul (h : (nextToken position c (nul :: rest)).1.isBroken = false) :
    (nextToken position c (nul :: rest)).2.2 = nul :: rest := by
  unfold nextToken at h ⊢
  cases hc : punctuation? c with
  | some t => rfl
  | none =>
      rw [hc] at h
      by_cases hquote : c = '"'
      · have hbody : textBody position (position + 1) [] (nul :: rest) =
            .error (.fault .controlCharacter (position + 1)) := by
          rw [textBody.eq_def]
          dsimp only
          rw [if_neg (by decide), if_neg (by decide), if_pos (by decide)]
        simp [hquote, hbody, Token.isBroken] at h
      · simp only [if_neg hquote, word?_nul, Option.getD_none] at h ⊢
        rw [numberToken_nul h, List.drop_one, List.tail_cons]

/-- What is left of a text that goes on with a null is no document. -/
theorem exists_isBroken_cut_nul (hsteps : steps ≠ 0) (position : Nat) (rest : List Char) :
    ∃ t ∈ cut steps position (nul :: rest), t.token.isBroken = true := by
  obtain ⟨steps, rfl⟩ := Nat.exists_eq_succ_of_ne_zero hsteps
  refine ⟨⟨position, (nextToken position nul rest).1⟩, ?_, ?_⟩
  · rw [cut, if_neg (by decide)]
    exact List.mem_cons_self
  · by_contra hbroken
    exact (ascii_of_nextToken (eq_false_of_ne_true hbroken)).1 rfl

/-- The text of a document begins with a character of ASCII, and there is no null among the first
two characters. -/
theorem exists_begins {text : List Char} {j : Json} (h : readChars constants text = .ok j) :
    Begins text := by
  have hall := isBroken_of_run h
  cases text with
  | nil => cases h
  | cons c rest =>
      -- A null after the first character would stop the cutting with a broken piece.
      have hnul : ∀ {position}, (∀ t ∈ cut rest.length position rest, t.token.isBroken = false) →
          rest.head? ≠ some nul := by
        intro position hcut hhead
        obtain ⟨more, rfl⟩ := List.head?_eq_some_iff.mp hhead
        obtain ⟨t, ht, hbroken⟩ :=
          exists_isBroken_cut_nul (Nat.succ_ne_zero more.length) position more
        exact absurd (hcut t ht) (by rw [hbroken]; decide)
      rw [tokens, List.length_cons, cut] at hall
      by_cases hspace : isSpace c = true
      · rw [if_pos hspace] at hall
        exact ⟨c, rest, rfl, ascii_of_isSpace hspace, hnul hall⟩
      · rw [if_neg hspace, List.forall_mem_cons] at hall
        obtain ⟨hfirst, hall⟩ := hall
        refine ⟨c, rest, rfl, ascii_of_nextToken hfirst, ?_⟩
        intro hhead
        obtain ⟨more, rfl⟩ := List.head?_eq_some_iff.mp hhead
        dsimp only at hfirst hall
        rw [if_neg (by rw [hfirst]; decide), nextToken_nul hfirst] at hall
        exact hnul hall rfl

end Json

namespace Encoding

open Json (nul Begins)

/-- The bytes of a text in an encoding, with a byte order mark in front or without one. -/
def bytesOf (encoding : Encoding) (marked : Bool) (text : List Char) : List UInt8 :=
  encoding.encode (if marked then Json.byteOrderMark :: text else text)

/-- The bytes of a character of ASCII: its own byte, and zero bytes that make up the unit. -/
def ascii : Encoding → UInt8 → List UInt8
  | .utf8, b => [b]
  | .utf16 .big, b => [0, b]
  | .utf16 .little, b => [b, 0]
  | .utf32 .big, b => [0, 0, 0, b]
  | .utf32 .little, b => [b, 0, 0, 0]

variable {encoding : Encoding} {order : ByteOrder} {c : Char} {a b : UInt8} {text rest : List Char}
  {bytes : List UInt8}

theorem encode_cons (encoding : Encoding) (c : Char) (rest : List Char) :
    encoding.encode (c :: rest) = encoding.encodeChar c ++ encoding.encode rest :=
  List.flatMap_cons

theorem encodeChar_of_ascii (h : c.toNat < 0x80) :
    encoding.encodeChar c = encoding.ascii (.ofNat c.toNat) := by
  have hhigh : c.toNat / 256 = 0 := by omega
  have hlow : c.toNat % 256 = c.toNat := by omega
  have hhigh' : c.toNat / 65536 = 0 := by omega
  have hlow' : c.toNat % 65536 = c.toNat := by omega
  cases encoding with
  | utf8 =>
      have hone : c.val.toNat ≤ 127 := Nat.le_of_lt_succ h
      rw [encodeChar, String.utf8EncodeChar]
      exact if_pos hone
  | utf16 order =>
      have hunit : c.toNat < 0x10000 := by omega
      cases order <;> simp [encodeChar, char16, bytes16, ascii, hunit, hhigh, hlow]
  | utf32 order =>
      cases order <;> simp [encodeChar, char32, bytes16, ascii, hhigh, hlow, hhigh', hlow']

/-- A character other than null has a unit of two bytes first that is not zero. -/
theorem exists_char16 (order : ByteOrder) (hc : c ≠ nul) :
    ∃ a b more, char16 order c = a :: b :: more ∧ (a ≠ 0 ∨ b ≠ 0) := by
  have hnumber : c.toNat ≠ 0 := fun h => hc (Char.toNat_inj.mp h)
  have hunit : ∀ u, u < 65536 → u ≠ 0 → ∃ a b, bytes16 order u = [a, b] ∧ (a ≠ 0 ∨ b ≠ 0) := by
    intro u hu hzero
    obtain ⟨a, b, hbytes, rfl⟩ := unit16_bytes16 order hu
    refine ⟨a, b, hbytes, ?_⟩
    by_contra hboth
    rw [not_or, not_not, not_not] at hboth
    obtain ⟨rfl, rfl⟩ := hboth
    cases order <;> exact hzero rfl
  by_cases hsmall : c.toNat < 0x10000
  · obtain ⟨a, b, hbytes, hzero⟩ := hunit _ hsmall hnumber
    exact ⟨a, b, [], by rw [char16, if_pos hsmall, hbytes], hzero⟩
  · have hvalid := Text.toNat_char c
    obtain ⟨a, b, hbytes, hzero⟩ := hunit (Text.highUnit c) (by unfold Text.highUnit; omega)
      (by unfold Text.highUnit; omega)
    exact ⟨a, b, _, by rw [char16, if_neg hsmall, hbytes]; rfl, hzero⟩

/-- The bytes go on with a unit of two bytes that is not zero, if they go on. -/
def GoesOn (bytes : List UInt8) : Prop :=
  bytes = [] ∨ ∃ a b more, bytes = a :: b :: more ∧ (a ≠ 0 ∨ b ≠ 0)

theorem goesOn_encode (h : rest.head? ≠ some nul) : GoesOn (encode (.utf16 order) rest) := by
  cases rest with
  | nil => exact .inl rfl
  | cons c rest =>
      have hc : c ≠ nul := fun hc => h (by rw [hc]; rfl)
      obtain ⟨a, b, more, hbytes, hzero⟩ := exists_char16 order hc
      refine .inr ⟨a, b, more ++ encode (.utf16 order) rest, ?_, hzero⟩
      rw [encode_cons, encodeChar, hbytes]
      rfl

/-- The first byte of a character other than null is not zero. -/
theorem exists_utf8EncodeChar (hc : c ≠ nul) :
    ∃ b more, String.utf8EncodeChar c = b :: more ∧ b ≠ 0 := by
  have hnumber : c.val.toNat ≠ 0 := fun h => hc (Char.toNat_inj.mp h)
  have hbyte : ∀ n, n < 256 → n ≠ 0 → UInt8.ofNat n ≠ 0 := by
    intro n hn hzero h
    exact hzero ((toNat_byte hn).symm.trans (congrArg UInt8.toNat h))
  unfold String.utf8EncodeChar
  dsimp only
  split
  · exact ⟨_, _, rfl, hbyte _ (by omega) hnumber⟩
  split
  · exact ⟨_, _, rfl, hbyte _ (by omega) (by omega)⟩
  split
  · exact ⟨_, _, rfl, hbyte _ (by omega) (by omega)⟩
  · exact ⟨_, _, rfl, hbyte _ (by omega) (by omega)⟩

theorem head?_encode (h : rest.head? ≠ some nul) : (encode .utf8 rest).head? ≠ some 0 := by
  cases rest with
  | nil => nofun
  | cons c rest =>
      have hc : c ≠ nul := fun hc => h (by rw [hc]; rfl)
      obtain ⟨b, more, hbytes, hzero⟩ := exists_utf8EncodeChar hc
      rw [encode_cons, encodeChar, hbytes]
      simpa using hzero

theorem unmarked_utf8 (hb : b ≠ 0) (h : bytes.head? ≠ some 0) :
    unmarked (b :: bytes) = .utf8 := by
  unfold unmarked
  split <;> simp_all

theorem unmarked_utf16 (hb : b ≠ 0) (h : GoesOn bytes) :
    unmarked (ascii (.utf16 order) b ++ bytes) = .utf16 order := by
  rcases h with rfl | ⟨c, d, more, rfl, hzero⟩
  · cases order <;> simp [ascii, unmarked, hb]
  · cases order with
    | big => simp [ascii, unmarked, hb]
    | little =>
        have hboth : ¬ (c = 0 ∧ d = 0) := by tauto
        simp [ascii, unmarked, hb, hboth]

theorem unmarked_utf32 (hb : b ≠ 0) :
    unmarked (ascii (.utf32 order) b ++ bytes) = .utf32 order := by
  cases order <;> simp [ascii, unmarked, hb]

theorem marked?_ascii (hb : b ≠ 0) (hascii : b < 0x80) :
    marked? (encoding.ascii b ++ bytes) = none := by
  have hother : b ≠ 0xFF ∧ b ≠ 0xFE ∧ b ≠ 0xEF := by
    refine ⟨?_, ?_, ?_⟩ <;> rintro rfl <;> exact absurd hascii (by decide)
  cases encoding with
  | utf8 =>
      unfold marked? ascii
      split <;> simp_all
  | utf16 order => cases order <;> (unfold marked? ascii; split <;> simp_all)
  | utf32 order => cases order <;> (unfold marked? ascii; split <;> simp_all)

theorem encode_begins (h : Begins text) (encoding : Encoding) :
    ∃ b rest, encoding.encode text = encoding.ascii b ++ encoding.encode rest ∧
      b ≠ 0 ∧ b < 0x80 ∧ rest.head? ≠ some nul := by
  obtain ⟨c, rest, rfl, ⟨hc, hascii⟩, hsecond⟩ := h
  have hbyte : (UInt8.ofNat c.toNat).toNat = c.toNat := toNat_byte (by omega)
  refine ⟨.ofNat c.toNat, rest, by rw [encode_cons, encodeChar_of_ascii hascii], ?_, ?_, hsecond⟩
  · intro hzero
    exact hc (Char.toNat_inj.mp (hbyte.symm.trans (congrArg UInt8.toNat hzero)))
  · rwa [UInt8.lt_iff_toNat_lt, hbyte]

/-- Without a mark, the zero bytes at the front tell the encoding. -/
theorem decodeDetected_encode (h : Begins text) (encoding : Encoding) :
    decodeDetected (encoding.encode text) = .ok text := by
  obtain ⟨b, rest, hbytes, hzero, hascii, hsecond⟩ := encode_begins h encoding
  have hmark : marked? (encoding.encode text) = none := by
    rw [hbytes]
    exact marked?_ascii hzero hascii
  have hencoding : unmarked (encoding.encode text) = encoding := by
    rw [hbytes]
    cases encoding with
    | utf8 => exact unmarked_utf8 hzero (head?_encode hsecond)
    | utf16 order => exact unmarked_utf16 hzero (goesOn_encode hsecond)
    | utf32 order => exact unmarked_utf32 hzero
  rw [decodeDetected, hmark]
  dsimp only
  rw [hencoding, decodeFrom_encode]

/-- The mark tells the encoding. That of the form with units of four bytes begins as another one
does, but a text does not go on with the zero bytes that it ends with. -/
theorem marked?_encode (h : Begins text) (encoding : Encoding) :
    marked? (encoding.encode (Json.byteOrderMark :: text)) =
      some (encoding, (encoding.encodeChar Json.byteOrderMark).length) := by
  obtain ⟨b, rest, hbytes, hzero, -, -⟩ := encode_begins h encoding
  rw [encode_cons]
  cases encoding with
  | utf8 => rfl
  | utf16 order =>
      cases order with
      | big => rfl
      | little =>
          have hchar : encodeChar (.utf16 .little) Json.byteOrderMark = [0xFF, 0xFE] := rfl
          rw [hbytes, hchar]
          simp [marked?, ascii, hzero]
  | utf32 order => cases order <;> rfl

/-- Behind a mark, the bytes are decoded in the encoding that it tells. -/
theorem exists_decodeFrom {length : Nat} (h : marked? bytes = some (encoding, length)) :
    ∃ position, decodeDetected bytes = decodeFrom position encoding (bytes.drop length) := by
  cases encoding <;> exact ⟨_, by rw [decodeDetected, h]⟩

/-- A text that begins as a document does is decoded from each of its encodings. -/
theorem decodeDetected_bytesOf (h : Begins text) (encoding : Encoding) (marked : Bool) :
    decodeDetected (encoding.bytesOf marked text) = .ok text := by
  cases marked with
  | false => exact decodeDetected_encode h encoding
  | true =>
      obtain ⟨position, hdecode⟩ := exists_decodeFrom (marked?_encode h encoding)
      rw [bytesOf, if_pos rfl, hdecode, encode_cons, List.drop_left, decodeFrom_encode]

end Encoding

namespace Form

/-- A document in bytes, in any encoding and with a byte order mark or without one, is loaded as
its text is, and verified as its text is: with the same records, and as the same form or with the
same failure. -/
theorem verify_encoded [Host] {text : String} {document : Json}
    (h : (Source.text text).load = .ok document) (encoding : Encoding) (marked : Bool) :
    (Source.bytes (encoding.bytesOf marked text.toList)).load = .ok document ∧
      verify (.bytes (encoding.bytesOf marked text.toList)) = verify (.text text) := by
  have hread : Json.read .refused text.toList = .ok document := mapError_eq_ok_iff.mp h
  have hchars : Json.readChars .refused text.toList = .ok document := by
    unfold Json.read at hread
    split at hread
    · cases hread
    · exact hread
  have hdecoded := Encoding.decodeDetected_bytesOf (Json.exists_begins hchars) encoding marked
  have hload : (Source.bytes (encoding.bytesOf marked text.toList)).load = .ok document := by
    simp only [Source.load, hdecoded, hchars]
    rfl
  refine ⟨hload, ?_⟩
  have hdocument : documentOf (.bytes (encoding.bytesOf marked text.toList)) =
      documentOf (.text text) := by
    simp only [documentOf, hload, h]
  simp only [verify, hdocument]

/-- A form with one field, whose name is a character beyond the first 65536. -/
def smiling : String :=
  "\x7b\"fields\": [\x7b\"name\": \"😀\", \"type\": \"string\"\x7d]\x7d"

attribute [local instance] Host.standard in
/-- The name is a pair of units in the bytes, and its mark begins that of another encoding. -/
theorem verify_encoded_smiling :
    ∃ document, (Source.text smiling).load = .ok document ∧
      (Source.bytes ((Encoding.utf16 .little).bytesOf true smiling.toList)).load = .ok document ∧
      verify (.bytes ((Encoding.utf16 .little).bytesOf true smiling.toList)) =
        verify (.text smiling) := by
  have hload : (Source.text smiling).load.toOption = some (.obj [("fields",
      .arr [.obj [("name", .str "😀"), ("type", .str "string")]])]) := by
    decide +kernel
  have hdocument := toOption_eq_some_iff.mp hload
  exact ⟨_, hdocument, verify_encoded hdocument (.utf16 .little) true⟩

end Form

end Formwork
