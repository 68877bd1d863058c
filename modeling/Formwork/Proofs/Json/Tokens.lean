import Formwork.Proofs.Json.NumberText
import Formwork.Proofs.Json.TextLiteral

/-!
# The tokens of a document that was written

A value that is written with one element on each line is cut into its own tokens again. Each piece
of the text is taken off whole, since what follows it cannot continue it.
-/

namespace Formwork

namespace Json

/-- The token of a number; those that are not finite stand for themselves as constants. -/
def Token.ofNumber : Number → Token
  | .float .undefined => .constant .nan
  | .float (.infinity false) => .constant .infinity
  | .float (.infinity true) => .constant .negativeInfinity
  | n => .scalar (.num n)

mutual

/-- The tokens of a value. -/
def tokensOf : Json → List Token
  | .null => [.scalar .null]
  | .bool b => [.scalar (.bool b)]
  | .num n => [.ofNumber n]
  | .str s => [.text s]
  | .arr [] => [.beginArray, .endArray]
  | .arr (j :: rest) => .beginArray :: (tokensOf j ++ (tokensOfElements rest ++ [.endArray]))
  | .obj [] => [.beginObject, .endObject]
  | .obj ((key, j) :: rest) =>
    .beginObject :: .text key :: .colon :: (tokensOf j ++ (tokensOfMembers rest ++ [.endObject]))

/-- The tokens of the elements after the first one. -/
def tokensOfElements : List Json → List Token
  | [] => []
  | j :: rest => .comma :: (tokensOf j ++ tokensOfElements rest)

/-- The tokens of the members after the first one. -/
def tokensOfMembers : List (String × Json) → List Token
  | [] => []
  | (key, j) :: rest => .comma :: .text key :: .colon :: (tokensOf j ++ tokensOfMembers rest)

end

/-- However many steps are left and wherever the text begins, it is cut into the tokens. -/
def Lexes (text : List Char) (ts : List Token) : Prop :=
  ∀ steps position, text.length ≤ steps → (cut steps position text).map Placed.token = ts

theorem lexes_nil : Lexes [] [] := by
  intro steps position _
  cases steps <;> rfl

section Lexes

variable {rest : List Char} {ts : List Token}

theorem Lexes.space {c : Char} (h : Lexes rest ts) (hc : isSpace c = true) :
    Lexes (c :: rest) ts := by
  intro steps position hsteps
  cases steps with
  | zero => cases hsteps
  | succ steps =>
      rw [cut, if_pos hc]
      exact h steps _ (Nat.le_of_succ_le_succ hsteps)

theorem Lexes.spaces {spaces : List Char} (h : Lexes rest ts)
    (hspaces : ∀ c ∈ spaces, isSpace c = true) : Lexes (spaces ++ rest) ts := by
  induction spaces with
  | nil => exact h
  | cons c spaces ih =>
      rw [List.forall_mem_cons] at hspaces
      exact (ih hspaces.2).space hspaces.1

/-- A token in front is taken off. -/
theorem Lexes.token {c : Char} {more : List Char} {t : Token} (h : Lexes rest ts)
    (hspace : isSpace c = false)
    (hnext : ∀ position, ∃ after, nextToken position c more = (t, after, rest))
    (hbroken : t.isBroken = false) (hlength : rest.length ≤ more.length) :
    Lexes (c :: more) (t :: ts) := by
  intro steps position hsteps
  cases steps with
  | zero => cases hsteps
  | succ steps =>
      obtain ⟨after, hnext⟩ := hnext position
      rw [cut, if_neg (by rw [hspace]; decide), hnext]
      dsimp only
      rw [if_neg (by rw [hbroken]; decide), List.map_cons,
        h steps after (hlength.trans (Nat.le_of_succ_le_succ hsteps))]

theorem Lexes.punctuation {c : Char} {t : Token} (h : Lexes rest ts)
    (hc : punctuation? c = some t) : Lexes (c :: rest) (t :: ts) := by
  have hnext : ∀ position, nextToken position c rest = (t, position + 1, rest) := by
    intro position
    rw [nextToken, hc]
  have hcases : isSpace c = false ∧ t.isBroken = false := by
    unfold punctuation? at hc
    split at hc <;> cases hc <;> exact ⟨rfl, rfl⟩
  exact h.token hcases.1 (fun position => ⟨_, hnext position⟩) hcases.2 (Nat.le_refl _)

theorem Lexes.textLiteral (h : Lexes rest ts) (s : String) :
    Lexes (textLiteral s ++ rest) (.text s :: ts) := by
  have hcons : Json.textLiteral s ++ rest = '"' :: (s.toList.flatMap escape ++ '"' :: rest) := by
    simp [Json.textLiteral]
  rw [hcons]
  apply h.token rfl _ rfl (by simp; omega)
  intro position
  obtain ⟨after, hbody⟩ := textBody_flatMap_escape position (position + 1) [] s.toList rest
  refine ⟨after, ?_⟩
  have hs : String.ofList ([].reverse ++ s.toList) = s := by simp
  rw [hs] at hbody
  have hquote : punctuation? '"' = none := rfl
  simp only [nextToken, hquote, if_true, hbody]

/-- The character begins a word or a number, if anything. -/
structure BeginsPiece (c : Char) : Prop where
  space : isSpace c = false
  punctuation : punctuation? c = none
  quote : c ≠ '"'

/-- A word or a number in front is taken off. -/
theorem Lexes.piece {piece : List Char} {t : Token} (h : Lexes rest ts)
    (hfirst : ∃ c cs, piece = c :: cs ∧ BeginsPiece c) (hbroken : t.isBroken = false)
    (hpiece : ∀ position, (word? (piece ++ rest)).getD (numberToken position (piece ++ rest)) =
      (t, piece.length)) : Lexes (piece ++ rest) (t :: ts) := by
  obtain ⟨c, cs, rfl, hc⟩ := hfirst
  apply h.token hc.space _ hbroken (by simp)
  intro position
  refine ⟨position + (c :: cs).length, ?_⟩
  have hdrop : (c :: cs ++ rest).drop (c :: cs).length = rest := List.drop_left
  have hcut := hpiece position
  rw [List.cons_append] at hcut
  have hnext : nextToken position c (cs ++ rest) =
      (t, position + (c :: cs).length, (c :: cs ++ rest).drop (c :: cs).length) := by
    simp only [nextToken, hc.punctuation, if_neg hc.quote, hcut, List.cons_append]
  rw [hdrop] at hnext
  exact hnext

theorem Lexes.word {piece : List Char} {t : Token} (h : Lexes rest ts)
    (hfirst : ∃ c cs, piece = c :: cs ∧ BeginsPiece c) (hbroken : t.isBroken = false)
    (hword : word? (piece ++ rest) = some (t, piece.length)) : Lexes (piece ++ rest) (t :: ts) :=
  h.piece hfirst hbroken fun position => by rw [hword]; rfl

theorem ne_of_isDigit (letter : Char) {c : Char} (hc : c.isDigit = true)
    (hletter : letter.isDigit = false) : letter ≠ c := by
  rintro rfl
  rw [hletter] at hc
  cases hc

theorem beginsPiece_of_isDigit {c : Char} (hc : c.isDigit = true) : BeginsPiece c := by
  refine ⟨?_, ?_, (ne_of_isDigit _ hc rfl).symm⟩
  · have hspace := ne_of_isDigit ' ' hc rfl
    have htab := ne_of_isDigit '\t' hc rfl
    have hline := ne_of_isDigit '\n' hc rfl
    have hreturn := ne_of_isDigit '\r' hc rfl
    simp [isSpace, hspace.symm, htab.symm, hline.symm, hreturn.symm]
  · unfold punctuation?
    split
    all_goals first | rfl | cases hc

theorem word?_eq_none {s : List Char} (h : ∀ w ∈ words, ¬ w.1.toList <+: s) : word? s = none := by
  rw [word?, Option.map_eq_none_iff, List.find?_eq_none]
  intro w hw
  rw [List.isPrefixOf_iff_prefix]
  exact h w hw

/-- No word begins with a digit, with or without a sign. -/
theorem word?_of_isDigit {c : Char} (hc : c.isDigit = true) (sign : Bool) (cs : List Char) :
    word? ((if sign then ['-'] else []) ++ c :: cs) = none := by
  have hn := ne_of_isDigit 'n' hc rfl
  have ht := ne_of_isDigit 't' hc rfl
  have hf := ne_of_isDigit 'f' hc rfl
  have hN := ne_of_isDigit 'N' hc rfl
  have hI := ne_of_isDigit 'I' hc rfl
  have hminus := ne_of_isDigit '-' hc rfl
  apply word?_eq_none
  cases sign <;> simp [words, hn, ht, hf, hN, hI, hminus]

theorem Lexes.numeral {m : Numeral} (h : Lexes rest ts) (hm : m.WellFormed)
    (hrest : EndsNumber rest) :
    Lexes (m.text ++ rest) (.scalar (.num m.value) :: ts) := by
  obtain ⟨first, others, hwhole, hdigit⟩ := hm.exists_first
  have htext : m.text ++ rest =
      (if m.negative then ['-'] else []) ++ first :: (others ++ m.tail ++ rest) := by
    simp [Numeral.text, hwhole]
  have hpiece : ∀ position, (word? (m.text ++ rest)).getD (numberToken position (m.text ++ rest)) =
      (.scalar (.num m.value), m.text.length) := by
    intro position
    rw [← Numeral.numberToken_append hm hrest position, htext, word?_of_isDigit hdigit]
    rfl
  apply h.piece _ rfl hpiece
  cases hn : m.negative with
  | true =>
      refine ⟨'-', m.whole ++ m.tail, ?_, ⟨rfl, rfl, by decide⟩⟩
      simp [Numeral.text, hn]
  | false =>
      refine ⟨first, others ++ m.tail, ?_, beginsPiece_of_isDigit hdigit⟩
      simp [Numeral.text, hn, hwhole]

/-- A number in front is taken off, whether it is a constant or not. -/
theorem Lexes.number {n : Number} (h : Lexes rest ts) (hn : n.Spelled)
    (hrest : EndsNumber rest) : Lexes (n.text Number.written ++ rest) (.ofNumber n :: ts) := by
  have hlegible : n.Legible → Lexes (n.text Number.written ++ rest) (.scalar (.num n) :: ts) := by
    intro hlegible
    obtain ⟨m, hm, htext, hvalue⟩ := exists_numeral hlegible
    have hlexes := h.numeral hm hrest
    rwa [htext, hvalue] at hlexes
  cases n with
  | int n => exact hlegible hn
  | float x =>
      cases x with
      | undefined => exact absurd rfl hn
      | finite negative e f => exact hlegible trivial
      | infinity negative =>
          cases negative with
          | false =>
              apply h.word ⟨_, _, rfl, rfl, rfl, by decide⟩ rfl
              rfl
          | true =>
              apply h.word ⟨_, _, rfl, rfl, rfl, by decide⟩ rfl
              rfl

/-- The text before an element is blank. -/
theorem Lexes.gap (h : Lexes rest ts) (depth : Nat) : Lexes (indented.gap depth ++ rest) ts := by
  apply h.spaces
  intro c hc
  rcases List.mem_cons.mp hc with rfl | hc
  · rfl
  · rw [List.eq_of_mem_replicate hc]
    rfl

theorem endsNumber_gap_append (depth : Nat) : EndsNumber (indented.gap depth ++ rest) := by
  intro c hc
  cases hc
  decide

theorem endsNumber_comma_append : EndsNumber (',' :: rest) := by
  intro c hc
  cases hc
  decide

theorem endsNumber_elements_append (depth : Nat) (js : List Json) (hrest : EndsNumber rest) :
    EndsNumber (printElements indented depth js ++ rest) := by
  cases js with
  | nil => exact hrest
  | cons j js => exact endsNumber_comma_append

theorem endsNumber_members_append (depth : Nat) (ms : List (String × Json))
    (hrest : EndsNumber rest) : EndsNumber (printMembers indented depth ms ++ rest) := by
  cases ms with
  | nil => exact hrest
  | cons m ms => exact endsNumber_comma_append

end Lexes

mutual

/-- A value that can be spelled is cut into its tokens. -/
theorem lexes_print : ∀ (j : Json) (depth : Nat) {rest : List Char} {ts : List Token},
    j.Regular Number.Spelled → EndsNumber rest → Lexes rest ts →
      Lexes (print indented depth j ++ rest) (tokensOf j ++ ts)
  | .null, _, _, _, _, _, h => h.word ⟨_, _, rfl, rfl, rfl, by decide⟩ rfl rfl
  | .bool true, _, _, _, _, _, h => h.word ⟨_, _, rfl, rfl, rfl, by decide⟩ rfl rfl
  | .bool false, _, _, _, _, _, h => h.word ⟨_, _, rfl, rfl, rfl, by decide⟩ rfl rfl
  | .num n, _, _, _, hn, hrest, h => h.number (regular_num.mp hn) hrest
  | .str s, _, _, _, _, _, h => h.textLiteral s
  | .arr [], _, _, _, _, _, h => (h.punctuation rfl).punctuation rfl
  | .arr (j :: js), depth, rest, ts, hj, hrest, h => by
      obtain ⟨hj, hjs⟩ := List.forall_mem_cons.mp (regular_arr.mp hj)
      have hend : Lexes (indented.gap depth ++ ']' :: rest) (.endArray :: ts) :=
        (h.punctuation rfl).gap depth
      have hmore := lexes_printElements js (depth + 1) hjs (endsNumber_gap_append depth) hend
      have hfirst := lexes_print j (depth + 1) hj
        (endsNumber_elements_append (depth + 1) js (endsNumber_gap_append depth)) hmore
      have hall : Lexes ('[' :: (indented.gap (depth + 1) ++ (print indented (depth + 1) j ++
          (printElements indented (depth + 1) js ++ (indented.gap depth ++ ']' :: rest)))))
          (.beginArray :: (tokensOf j ++ (tokensOfElements js ++ .endArray :: ts))) :=
        (hfirst.gap (depth + 1)).punctuation rfl
      simpa [print, tokensOf] using hall
  | .obj [], _, _, _, _, _, h => (h.punctuation rfl).punctuation rfl
  | .obj ((key, j) :: ms), depth, rest, ts, hj, hrest, h => by
      obtain ⟨hj, hms⟩ := List.forall_mem_cons.mp (regular_obj.mp hj).2
      have hend : Lexes (indented.gap depth ++ '\x7d' :: rest) (.endObject :: ts) :=
        (h.punctuation rfl).gap depth
      have hmore := lexes_printMembers ms (depth + 1) hms (endsNumber_gap_append depth) hend
      have hfirst := lexes_print j (depth + 1) hj
        (endsNumber_members_append (depth + 1) ms (endsNumber_gap_append depth)) hmore
      have hkey := ((hfirst.space (c := ' ') rfl).punctuation (c := ':') rfl).textLiteral key
      have hall : Lexes ('\x7b' :: (indented.gap (depth + 1) ++ (Json.textLiteral key ++
          ':' :: ' ' :: (print indented (depth + 1) j ++ (printMembers indented (depth + 1) ms ++
            (indented.gap depth ++ '\x7d' :: rest))))))
          (.beginObject :: .text key :: .colon :: (tokensOf j ++
            (tokensOfMembers ms ++ .endObject :: ts))) :=
        (hkey.gap (depth + 1)).punctuation rfl
      simpa [print, tokensOf, indented, oneLine] using hall

theorem lexes_printElements : ∀ (js : List Json) (depth : Nat) {rest : List Char} {ts : List Token},
    (∀ j ∈ js, j.Regular Number.Spelled) → EndsNumber rest → Lexes rest ts →
      Lexes (printElements indented depth js ++ rest) (tokensOfElements js ++ ts)
  | [], _, _, _, _, _, h => h
  | j :: js, depth, rest, ts, hjs, hrest, h => by
      obtain ⟨hj, hjs⟩ := List.forall_mem_cons.mp hjs
      have hmore := lexes_printElements js depth hjs hrest h
      have hfirst := lexes_print j depth hj (endsNumber_elements_append depth js hrest) hmore
      have hall : Lexes (',' :: (indented.gap depth ++ (print indented depth j ++
          (printElements indented depth js ++ rest))))
          (.comma :: (tokensOf j ++ (tokensOfElements js ++ ts))) :=
        (hfirst.gap depth).punctuation rfl
      simpa [printElements, tokensOfElements, indented, oneLine] using hall

theorem lexes_printMembers : ∀ (ms : List (String × Json)) (depth : Nat) {rest : List Char}
    {ts : List Token}, (∀ m ∈ ms, m.2.Regular Number.Spelled) → EndsNumber rest → Lexes rest ts →
      Lexes (printMembers indented depth ms ++ rest) (tokensOfMembers ms ++ ts)
  | [], _, _, _, _, _, h => h
  | (key, j) :: ms, depth, rest, ts, hms, hrest, h => by
      obtain ⟨hj, hms⟩ := List.forall_mem_cons.mp hms
      have hmore := lexes_printMembers ms depth hms hrest h
      have hfirst := lexes_print j depth hj (endsNumber_members_append depth ms hrest) hmore
      have hkey := ((hfirst.space (c := ' ') rfl).punctuation (c := ':') rfl).textLiteral key
      have hall : Lexes (',' :: (indented.gap depth ++ (Json.textLiteral key ++ ':' :: ' ' ::
          (print indented depth j ++ (printMembers indented depth ms ++ rest)))))
          (.comma :: .text key :: .colon :: (tokensOf j ++ (tokensOfMembers ms ++ ts))) :=
        (hkey.gap depth).punctuation rfl
      simpa [printMembers, tokensOfMembers, indented, oneLine] using hall

end

end Json

end Formwork
