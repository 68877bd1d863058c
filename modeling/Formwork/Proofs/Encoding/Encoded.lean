import Formwork.Encoding.Basic

/-!
# Texts in an encoding

Each form in which text is stored writes a character in one way, and a text character by
character. What is written so is decoded to the same text, wherever the bytes start.

## Main results

* `Encoding.decodeFrom_encode`: an encoded text is decoded.
-/

namespace Formwork

namespace Text

variable {c : Char}

/-- The numbers of characters leave out those of halves of pairs, and end. -/
theorem toNat_char (c : Char) :
    c.toNat < 0xD800 ∨ (0xDFFF < c.toNat ∧ c.toNat < 0x110000) :=
  c.valid

theorem isHighUnit_toNat (c : Char) : isHighUnit c.toNat = false := by
  have hc := toNat_char c
  simp only [isHighUnit, Bool.and_eq_false_iff, decide_eq_false_iff_not]
  omega

theorem ofUnit_toNat (c : Char) : ofUnit c.toNat = c := by
  have hc := toNat_char c
  have hlow : isLowUnit c.toNat = false := by
    simp only [isLowUnit, Bool.and_eq_false_iff, decide_eq_false_iff_not]
    omega
  simp [ofUnit, isHighUnit_toNat, hlow]

/-- The unit that opens the pair of a character. -/
def highUnit (c : Char) : Nat :=
  0xD800 + (c.toNat - 0x10000) / 0x400

/-- The unit that closes the pair of a character. -/
def lowUnit (c : Char) : Nat :=
  0xDC00 + (c.toNat - 0x10000) % 0x400

theorem isHighUnit_highUnit (c : Char) : isHighUnit (highUnit c) = true := by
  have hc := toNat_char c
  unfold isHighUnit highUnit
  rw [Bool.and_eq_true, decide_eq_true_eq, decide_eq_true_eq]
  omega

theorem isLowUnit_lowUnit (c : Char) : isLowUnit (lowUnit c) = true := by
  unfold isLowUnit lowUnit
  rw [Bool.and_eq_true, decide_eq_true_eq, decide_eq_true_eq]
  omega

theorem ofPair_units (h : 0x10000 ≤ c.toNat) : ofPair (highUnit c) (lowUnit c) = c := by
  apply Char.toNat_inj.mp
  rw [toNat_ofPair (isHighUnit_highUnit c) (isLowUnit_lowUnit c), highUnit, lowUnit]
  omega

end Text

namespace Encoding

/-- The two bytes of a unit. -/
def bytes16 (order : ByteOrder) (u : Nat) : List UInt8 :=
  match order with
  | .big => [.ofNat (u / 256), .ofNat (u % 256)]
  | .little => [.ofNat (u % 256), .ofNat (u / 256)]

/-- The bytes of a character in the form with units of two bytes: one unit, or a pair. -/
def char16 (order : ByteOrder) (c : Char) : List UInt8 :=
  if c.toNat < 0x10000 then bytes16 order c.toNat
  else bytes16 order (Text.highUnit c) ++ bytes16 order (Text.lowUnit c)

/-- The bytes of a character in the form with units of four bytes. -/
def char32 (order : ByteOrder) (c : Char) : List UInt8 :=
  match order with
  | .big => bytes16 .big (c.toNat / 65536) ++ bytes16 .big (c.toNat % 65536)
  | .little => bytes16 .little (c.toNat % 65536) ++ bytes16 .little (c.toNat / 65536)

/-- The bytes of a character. -/
def encodeChar : Encoding → Char → List UInt8
  | .utf8, c => String.utf8EncodeChar c
  | .utf16 order, c => char16 order c
  | .utf32 order, c => char32 order c

/-- The bytes of a text. -/
def encode (encoding : Encoding) (text : List Char) : List UInt8 :=
  text.flatMap encoding.encodeChar

theorem toNat_byte {n : Nat} (h : n < 256) : (UInt8.ofNat n).toNat = n :=
  UInt8.toNat_ofNat_of_lt' h

theorem unit16_bytes16 (order : ByteOrder) {u : Nat} (hu : u < 65536) :
    ∃ a b, bytes16 order u = [a, b] ∧ unit16 order a b = u := by
  have hhigh : (UInt8.ofNat (u / 256)).toNat = u / 256 := toNat_byte (by omega)
  have hlow : (UInt8.ofNat (u % 256)).toNat = u % 256 := toNat_byte (by omega)
  cases order with
  | big => exact ⟨_, _, rfl, by rw [unit16, hhigh, hlow]; omega⟩
  | little => exact ⟨_, _, rfl, by rw [unit16, hhigh, hlow]; omega⟩

theorem unit32_char32 (order : ByteOrder) (c : Char) :
    ∃ a b d e, char32 order c = [a, b, d, e] ∧ unit32 order a b d e = c.toNat := by
  have hc := Text.toNat_char c
  have hlow : c.toNat % 65536 < 65536 := by omega
  have hhigh : c.toNat / 65536 < 65536 := by omega
  cases order with
  | big =>
      obtain ⟨a, b, hab, hu⟩ := unit16_bytes16 .big hhigh
      obtain ⟨d, e, hde, hv⟩ := unit16_bytes16 .big hlow
      exact ⟨a, b, d, e, by rw [char32, hab, hde]; rfl, by rw [unit32, hu, hv]; omega⟩
  | little =>
      obtain ⟨a, b, hab, hu⟩ := unit16_bytes16 .little hlow
      obtain ⟨d, e, hde, hv⟩ := unit16_bytes16 .little hhigh
      exact ⟨a, b, d, e, by rw [char32, hab, hde]; rfl, by rw [unit32, hu, hv]; omega⟩

variable {order : ByteOrder} {position : Nat} {before rest : List Char} {bytes : List UInt8}

theorem decode32_char (c : Char) :
    decode32 order position before (char32 order c ++ bytes) =
      decode32 order (position + 4) (c :: before) bytes := by
  obtain ⟨a, b, d, e, hbytes, hu⟩ := unit32_char32 order c
  have hc := Text.toNat_char c
  have hrange : ¬ 0x110000 ≤ c.toNat := by omega
  rw [hbytes]
  simp only [List.cons_append, List.nil_append, decode32, hu, if_neg hrange, Text.ofUnit_toNat]

/-- A unit that opens no pair is a character by itself, whatever follows. -/
theorem decode16_unit {a b : UInt8} (h : Text.isHighUnit (unit16 order a b) = false) :
    decode16 order position before (a :: b :: bytes) =
      decode16 order (position + 2) (Text.ofUnit (unit16 order a b) :: before) bytes := by
  cases bytes with
  | nil => simp only [decode16]
  | cons c bytes =>
      cases bytes with
      | nil => simp only [decode16]
      | cons d bytes => simp only [decode16, h, Bool.false_and, Bool.false_eq_true, if_false]

theorem decode16_pair {a b c d : UInt8} (hhigh : Text.isHighUnit (unit16 order a b) = true)
    (hlow : Text.isLowUnit (unit16 order c d) = true) :
    decode16 order position before (a :: b :: c :: d :: bytes) =
      decode16 order (position + 4)
        (Text.ofPair (unit16 order a b) (unit16 order c d) :: before) bytes := by
  simp only [decode16, hhigh, hlow, Bool.true_and, if_true]

theorem decode16_char (c : Char) : ∃ position', decode16 order position before
    (char16 order c ++ bytes) = decode16 order position' (c :: before) bytes := by
  by_cases hc : c.toNat < 0x10000
  · obtain ⟨a, b, hbytes, hu⟩ := unit16_bytes16 order hc
    refine ⟨position + 2, ?_⟩
    rw [char16, if_pos hc, hbytes, List.cons_append, List.cons_append, List.nil_append,
      decode16_unit (by rw [hu]; exact Text.isHighUnit_toNat c), hu, Text.ofUnit_toNat]
  · have hvalid := Text.toNat_char c
    have hhigh : Text.highUnit c < 65536 := by
      unfold Text.highUnit
      omega
    have hlow : Text.lowUnit c < 65536 := by
      unfold Text.lowUnit
      omega
    obtain ⟨a, b, hab, hu⟩ := unit16_bytes16 order hhigh
    obtain ⟨d, e, hde, hv⟩ := unit16_bytes16 order hlow
    refine ⟨position + 4, ?_⟩
    rw [char16, if_neg hc, hab, hde]
    simp only [List.cons_append, List.nil_append]
    rw [decode16_pair (by rw [hu]; exact Text.isHighUnit_highUnit c)
      (by rw [hv]; exact Text.isLowUnit_lowUnit c), hu, hv, Text.ofPair_units (by omega)]

theorem isContinuation_iff {b : UInt8} :
    isContinuation b = true ↔ 0x80 ≤ b.toNat ∧ b.toNat < 0xC0 := by
  simp [isContinuation, UInt8.le_iff_toNat_le, UInt8.lt_iff_toNat_lt]

theorem continues3_iff {a b : UInt8} :
    continues3 a b = true ↔ isContinuation b = true ∧ (a.toNat = 0xE0 → 0xA0 ≤ b.toNat) ∧
      (a.toNat = 0xED → b.toNat < 0xA0) := by
  simp [continues3, UInt8.le_iff_toNat_le, UInt8.lt_iff_toNat_lt, ← UInt8.toNat_inj, and_assoc,
    Decidable.imp_iff_not_or]

theorem continues4_iff {a b : UInt8} :
    continues4 a b = true ↔ isContinuation b = true ∧ (a.toNat = 0xF0 → 0x90 ≤ b.toNat) ∧
      (a.toNat = 0xF4 → b.toNat < 0x90) := by
  simp [continues4, UInt8.le_iff_toNat_le, UInt8.lt_iff_toNat_lt, ← UInt8.toNat_inj, and_assoc,
    Decidable.imp_iff_not_or]

section Decode8

variable {halves : Halves} {n : Nat}

theorem not_lt_of_le {a b : UInt8} (h : b.toNat ≤ a.toNat) : ¬ a < b :=
  fun hlt => Nat.not_lt.mpr h (UInt8.lt_iff_toNat_lt.mp hlt)

/-- A byte that continues a character has six bits of its number. -/
theorem continuation_byte (n : Nat) :
    isContinuation (.ofNat (n % 64 + 128)) = true ∧ low6 (.ofNat (n % 64 + 128)) = n % 64 := by
  have hbyte : (UInt8.ofNat (n % 64 + 128)).toNat = n % 64 + 128 := toNat_byte (by omega)
  rw [isContinuation_iff, low6, hbyte]
  omega

theorem decode8_one (h : n < 0x80) : decode8 halves position before (.ofNat n :: bytes) =
    decode8 halves (position + 1) (Char.ofNat n :: before) bytes := by
  have hfirst : (UInt8.ofNat n).toNat = n := toNat_byte (by omega)
  have hlt : UInt8.ofNat n < 0x80 := by rwa [UInt8.lt_iff_toNat_lt, hfirst]
  refine (decode8.eq_def _ _ _ _).trans ?_
  simp only [if_pos hlt, hfirst]

theorem decode8_two (h : 0x80 ≤ n) (h' : n < 0x800) :
    decode8 halves position before
        (.ofNat (n / 64 % 32 + 192) :: .ofNat (n % 64 + 128) :: bytes) =
      decode8 halves (position + 2) (Char.ofNat n :: before) bytes := by
  have hfirst : (UInt8.ofNat (n / 64 % 32 + 192)).toNat = n / 64 % 32 + 192 :=
    toNat_byte (by omega)
  obtain ⟨hlast, hbits⟩ := continuation_byte n
  have hnumber : 64 * ((n / 64 % 32 + 192) % 32) + n % 64 = n := by omega
  generalize UInt8.ofNat (n / 64 % 32 + 192) = a at hfirst
  have hone : ¬ a < 0x80 := not_lt_of_le (show 0x80 ≤ _ by omega)
  have hstart : ¬ a < 0xC2 := not_lt_of_le (show 0xC2 ≤ _ by omega)
  have htwo : a < 0xE0 := UInt8.lt_iff_toNat_lt.mpr (show _ < 0xE0 by omega)
  refine (decode8.eq_def _ _ _ _).trans ?_
  simp only [if_neg hone, if_neg hstart, if_pos htwo, if_pos hlast, hfirst, hbits, hnumber]

theorem decode8_three (h : 0x800 ≤ n) (h' : n < 0x10000) (hhalf : n < 0xD800 ∨ 0xDFFF < n) :
    decode8 halves position before (.ofNat (n / 4096 % 16 + 224) ::
        .ofNat (n / 64 % 64 + 128) :: .ofNat (n % 64 + 128) :: bytes) =
      decode8 halves (position + 3) (Char.ofNat n :: before) bytes := by
  have hfirst : (UInt8.ofNat (n / 4096 % 16 + 224)).toNat = n / 4096 % 16 + 224 :=
    toNat_byte (by omega)
  have hsecond : (UInt8.ofNat (n / 64 % 64 + 128)).toNat = n / 64 % 64 + 128 :=
    toNat_byte (by omega)
  obtain ⟨hlast, hbits⟩ := continuation_byte n
  obtain ⟨hmiddle, hbits'⟩ := continuation_byte (n / 64)
  have hcontinues : continues3 (.ofNat (n / 4096 % 16 + 224)) (.ofNat (n / 64 % 64 + 128)) := by
    rw [continues3_iff, hfirst, hsecond]
    exact ⟨hmiddle, by omega, by omega⟩
  have hnumber : 4096 * ((n / 4096 % 16 + 224) % 16) + 64 * (n / 64 % 64) + n % 64 = n := by
    omega
  generalize UInt8.ofNat (n / 4096 % 16 + 224) = a at hfirst hcontinues
  have hone : ¬ a < 0x80 := not_lt_of_le (show 0x80 ≤ _ by omega)
  have hstart : ¬ a < 0xC2 := not_lt_of_le (show 0xC2 ≤ _ by omega)
  have htwo : ¬ a < 0xE0 := not_lt_of_le (show 0xE0 ≤ _ by omega)
  have hthree : a < 0xF0 := UInt8.lt_iff_toNat_lt.mpr (show _ < 0xF0 by omega)
  refine (decode8.eq_def _ _ _ _).trans ?_
  simp only [if_neg hone, if_neg hstart, if_neg htwo, if_pos hthree, if_pos hcontinues,
    if_pos hlast, hfirst, hbits, hbits', hnumber]

theorem decode8_four (h : 0x10000 ≤ n) (h' : n < 0x110000) :
    decode8 halves position before (.ofNat (n / 262144 % 8 + 240) ::
        .ofNat (n / 4096 % 64 + 128) :: .ofNat (n / 64 % 64 + 128) :: .ofNat (n % 64 + 128) ::
        bytes) =
      decode8 halves (position + 4) (Char.ofNat n :: before) bytes := by
  have hfirst : (UInt8.ofNat (n / 262144 % 8 + 240)).toNat = n / 262144 % 8 + 240 :=
    toNat_byte (by omega)
  have hsecond : (UInt8.ofNat (n / 4096 % 64 + 128)).toNat = n / 4096 % 64 + 128 :=
    toNat_byte (by omega)
  obtain ⟨hlast, hbits⟩ := continuation_byte n
  obtain ⟨hthird, hbits'⟩ := continuation_byte (n / 64)
  obtain ⟨hmiddle, hbits''⟩ := continuation_byte (n / 4096)
  have hcontinues : continues4 (.ofNat (n / 262144 % 8 + 240)) (.ofNat (n / 4096 % 64 + 128)) := by
    rw [continues4_iff, hfirst, hsecond]
    exact ⟨hmiddle, by omega, by omega⟩
  have hnumber : 262144 * ((n / 262144 % 8 + 240) % 8) + 4096 * (n / 4096 % 64) +
      64 * (n / 64 % 64) + n % 64 = n := by
    omega
  generalize UInt8.ofNat (n / 262144 % 8 + 240) = a at hfirst hcontinues
  have hone : ¬ a < 0x80 := not_lt_of_le (show 0x80 ≤ _ by omega)
  have hstart : ¬ a < 0xC2 := not_lt_of_le (show 0xC2 ≤ _ by omega)
  have htwo : ¬ a < 0xE0 := not_lt_of_le (show 0xE0 ≤ _ by omega)
  have hthree : ¬ a < 0xF0 := not_lt_of_le (show 0xF0 ≤ _ by omega)
  have hfour : a < 0xF5 := UInt8.lt_iff_toNat_lt.mpr (show _ < 0xF5 by omega)
  refine (decode8.eq_def _ _ _ _).trans ?_
  simp only [if_neg hone, if_neg hstart, if_neg htwo, if_neg hthree, if_pos hfour,
    if_pos hcontinues, if_pos hthird, if_pos hlast, hfirst, hbits, hbits', hbits'', hnumber]

/-- The bytes of a character are taken off whole, in each of their four lengths. -/
theorem decode8_char (halves : Halves) (c : Char) : ∃ position', decode8 halves position before
    (String.utf8EncodeChar c ++ bytes) = decode8 halves position' (c :: before) bytes := by
  have hvalid := Text.toNat_char c
  have hc : Char.ofNat c.toNat = c := Char.ofNat_toNat c
  have hval : c.val.toNat = c.toNat := rfl
  unfold String.utf8EncodeChar
  simp only [hval]
  by_cases hone : c.toNat ≤ 127
  · rw [if_pos hone]
    exact ⟨position + 1, (decode8_one (by omega)).trans (by rw [hc]; rfl)⟩
  · rw [if_neg hone]
    by_cases htwo : c.toNat ≤ 2047
    · rw [if_pos htwo]
      exact ⟨position + 2, (decode8_two (by omega) (by omega)).trans (by rw [hc]; rfl)⟩
    · rw [if_neg htwo]
      by_cases hthree : c.toNat ≤ 65535
      · rw [if_pos hthree]
        exact ⟨position + 3,
          (decode8_three (by omega) (by omega) (by omega)).trans (by rw [hc]; rfl)⟩
      · rw [if_neg hthree]
        exact ⟨position + 4, (decode8_four (by omega) (by omega)).trans (by rw [hc]; rfl)⟩

end Decode8

/-- What a decoder makes of one character is what it makes of a whole text. -/
theorem decodes_flatMap {decode : Nat → List Char → List UInt8 → Except DecodeError (List Char)}
    {encodeChar : Char → List UInt8}
    (hend : ∀ position before, decode position before [] = .ok before.reverse)
    (hchar : ∀ position before bytes c, ∃ position',
      decode position before (encodeChar c ++ bytes) = decode position' (c :: before) bytes)
    (text : List Char) (position : Nat) (before : List Char) :
    decode position before (text.flatMap encodeChar) = .ok (before.reverse ++ text) := by
  induction text generalizing position before with
  | nil => rw [List.flatMap_nil, hend, List.append_nil]
  | cons c rest ih =>
      obtain ⟨position', hstep⟩ := hchar position before (rest.flatMap encodeChar) c
      rw [List.flatMap_cons, hstep, ih, List.reverse_cons, List.append_assoc]
      rfl

/-- A text that is encoded is decoded as it was, from any position on. -/
theorem decodeFrom_encode (position : Nat) (encoding : Encoding) (text : List Char) :
    decodeFrom position encoding (encoding.encode text) = .ok text := by
  cases encoding with
  | utf8 =>
      exact decodes_flatMap (fun _ _ => by rw [decode8]) (fun _ _ _ c => decode8_char .replaced c)
        text position []
  | utf16 order =>
      exact decodes_flatMap (fun _ _ => by rw [decode16]) (fun _ _ _ c => decode16_char c)
        text position []
  | utf32 order =>
      exact decodes_flatMap (fun _ _ => by rw [decode32]) (fun _ _ _ c => ⟨_, decode32_char c⟩)
        text position []

example : (utf16 .little).encode ['é', '😀'] = [0xE9, 0x00, 0x3D, 0xD8, 0x00, 0xDE] := by
  decide

end Encoding

end Formwork
