import Formwork.Text.Pieces

/-!
# Console markup

Text for the console is written in a markup: a tag in square brackets switches a style
on or off and is not shown. A bracket opens a tag only before a small letter, `#`, `/` or
`@`, and only if the next bracket closes it. Backslashes before a tag stand in pairs for
themselves, and an odd one makes the tag plain text.
-/

namespace Formwork.Console

/-- The character may come first in a tag. -/
def startsTag (c : Char) : Bool :=
  ('a' ≤ c && c ≤ 'z') || c = '#' || c = '/' || c = '@'

/-- The character is a square bracket. -/
def isBracket (c : Char) : Bool :=
  c = '[' || c = ']'

/-- The inside of a tag whose opening bracket was read, and what follows its closing bracket. -/
def tag? (cs : List Char) : Option (List Char × List Char) :=
  match cs.head?.filter startsTag, cs.dropWhile (!isBracket ·) with
  | some _, ']' :: rest => some (cs.takeWhile (!isBracket ·), rest)
  | _, _ => none

theorem tag?_eq_some {cs inside rest : List Char} (h : tag? cs = some (inside, rest)) :
    cs = inside ++ ']' :: rest := by
  unfold tag? at h
  split at h
  · rename_i tail _ eq
    simp only [Option.some.injEq, Prod.mk.injEq] at h
    obtain ⟨rfl, rfl⟩ := h
    rw [← eq, List.takeWhile_append_dropWhile]
  · simp at h

/-- A tag takes up characters. -/
theorem length_lt_of_tag?_eq_some {cs inside rest : List Char}
    (h : tag? cs = some (inside, rest)) : rest.length < cs.length := by
  have := congrArg List.length (tag?_eq_some h)
  rw [List.length_append, List.length_cons] at this
  omega

/-- The characters that are shown, after some backslashes. -/
def visible (backslashes : Nat) : List Char → List Char
  | [] => List.replicate backslashes '\\'
  | c :: cs =>
    if c = '\\' then visible (backslashes + 1) cs
    else if c = '[' then
      match h : tag? cs with
      | some (inside, rest) =>
        have : rest.length < cs.length := length_lt_of_tag?_eq_some h
        List.replicate (backslashes / 2) '\\'
          ++ (if backslashes % 2 = 1 then '[' :: inside ++ [']'] else []) ++ visible 0 rest
      | none => List.replicate (backslashes - 1) '\\' ++ '[' :: visible 0 cs
    else List.replicate backslashes '\\' ++ c :: visible 0 cs
termination_by cs => cs.length
decreasing_by
  · exact Nat.lt_succ_self cs.length
  · exact Nat.lt_succ_of_lt this
  · exact Nat.lt_succ_self cs.length
  · exact Nat.lt_succ_self cs.length

/-- The console ignores the character: the bell, the backspace, and the moves of the carriage
and of the paper. -/
def isIgnored (c : Char) : Bool :=
  c = '\x07' || c = '\x08' || c = '\x0b' || c = '\x0c' || c = '\r'

/-- The text that the console shows as it is. -/
def verbatim (s : String) : String :=
  String.ofList (s.toList.filter (!isIgnored ·))

/-- The text that the console shows for markup. -/
def plain (markup : String) : String :=
  verbatim (String.ofList (visible 0 markup.toList))

/-- The lines that the console shows for markup. -/
def printed (markup : String) : List String :=
  Text.lines (plain markup)

/-- Markup that shows text in a style. -/
def styled (style text : String) : String :=
  "[" ++ style ++ "]" ++ text ++ "[/" ++ style ++ "]"

end Formwork.Console
