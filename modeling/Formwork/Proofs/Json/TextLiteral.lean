import Formwork.Json.Printer
import Formwork.Json.Token
import Mathlib.Tactic.SplitIfs

/-!
# Texts that are written and read back

A reader takes a text off behind its first quote mark, character by character: what stands for a
character inside the quote marks is read as that character again.
-/

namespace Formwork.Json

variable {tail : List Char}

theorem textBody_escaped (start position : Nat) (before : List Char) {letter c : Char}
    (hc : escaped? letter = some c) :
    textBody start position before ('\\' :: letter :: tail) =
      textBody start (position + 2) (c :: before) tail := by
  have hletter : letter ≠ 'u' := by
    rintro rfl
    cases hc
  rw [textBody.eq_def]
  simp [hc]

theorem textBody_plain (start position : Nat) (before : List Char) {c : Char} (hquote : c ≠ '"')
    (hbackslash : c ≠ '\\') (hcontrol : ¬ c.toNat < 0x20) :
    textBody start position before (c :: tail) =
      textBody start (position + 1) (c :: before) tail := by
  rw [textBody.eq_def]
  simp [hquote, hbackslash, hcontrol]

/-- The numbers of the control characters are units of their own. -/
theorem hexUnit?_of_control : ∀ n < 0x20,
    Text.hexDigits 4 n = ['0', '0', Text.hexDigit (n / 16), Text.hexDigit (n % 16)] ∧
      hexUnit? '0' '0' (Text.hexDigit (n / 16)) (Text.hexDigit (n % 16)) = some n ∧
      Text.ofUnit n = Char.ofNat n ∧ Text.isHighUnit n = false := by
  decide +kernel

theorem follower_of_not_isHighUnit {unit : Nat} (h : Text.isHighUnit unit = false)
    (rest : List Char) : follower unit rest = .single := by
  unfold follower
  split
  · rw [if_neg (by rw [h]; decide)]
  · rfl

theorem textBody_control (start position : Nat) (before : List Char) {c : Char}
    (hcontrol : c.toNat < 0x20) (htail : tail ≠ []) :
    textBody start position before ('\\' :: 'u' :: Text.hexDigits 4 c.toNat ++ tail) =
      textBody start (position + 6) (c :: before) tail := by
  obtain ⟨hdigits, hunit, hchar, hhigh⟩ := hexUnit?_of_control c.toNat hcontrol
  have hempty : tail.isEmpty = false := by simpa using htail
  have hsame : Char.ofNat c.toNat = c := Char.ofNat_toNat c
  have hfollower := follower_of_not_isHighUnit hhigh tail
  rw [hdigits, textBody.eq_def]
  simp [hunit, hempty, hfollower, hchar, hsame]

/-- A character is escaped by a letter or by its number, or stands for itself. -/
theorem escape_cases (c : Char) :
    (∃ letter, escape c = ['\\', letter] ∧ escaped? letter = some c) ∨
      (c.toNat < 0x20 ∧ escape c = '\\' :: 'u' :: Text.hexDigits 4 c.toNat) ∨
      (c ≠ '"' ∧ c ≠ '\\' ∧ ¬ c.toNat < 0x20 ∧ escape c = [c]) := by
  unfold escape
  split_ifs with hquote hbackslash _ _ _ _ _ hcontrol
  any_goals
    subst c
    exact .inl ⟨_, rfl, rfl⟩
  · exact .inr (.inl ⟨hcontrol, rfl⟩)
  · exact .inr (.inr ⟨hquote, hbackslash, hcontrol, rfl⟩)

/-- What stands for a character is read as that character. -/
theorem textBody_escape_append (start position : Nat) (before : List Char) (c : Char)
    (htail : tail ≠ []) :
    ∃ next, textBody start position before (escape c ++ tail) =
      textBody start next (c :: before) tail := by
  rcases escape_cases c with ⟨letter, hescape, hc⟩ | ⟨hcontrol, hescape⟩ |
    ⟨hquote, hbackslash, hcontrol, hescape⟩
  · rw [hescape]
    exact ⟨_, textBody_escaped start position before hc⟩
  · rw [hescape]
    exact ⟨_, textBody_control start position before hcontrol htail⟩
  · rw [hescape]
    exact ⟨_, textBody_plain start position before hquote hbackslash hcontrol⟩

/-- A text is read up to its last quote mark. -/
theorem textBody_flatMap_escape (start position : Nat) (before cs rest : List Char) :
    ∃ after, textBody start position before (cs.flatMap escape ++ '"' :: rest) =
      .ok (String.ofList (before.reverse ++ cs), after, rest) := by
  induction cs generalizing position before with
  | nil =>
      refine ⟨position + 1, ?_⟩
      rw [List.flatMap_nil, List.nil_append, List.append_nil, textBody.eq_def]
      rfl
  | cons c cs ih =>
      have htail : cs.flatMap escape ++ '"' :: rest ≠ [] := by simp
      obtain ⟨next, hstep⟩ := textBody_escape_append start position before c htail
      obtain ⟨after, hrest⟩ := ih next (c :: before)
      refine ⟨after, ?_⟩
      rw [List.flatMap_cons, List.append_assoc, hstep, hrest, List.reverse_cons, List.append_assoc]
      rfl

end Formwork.Json
