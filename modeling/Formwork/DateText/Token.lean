import Formwork.Text.Blank
import Formwork.Text.Digit
import Formwork.Text.Letter

/-!
# Tokens of a date text

A token is a run of letters, a run of digits, a blank or one other character. A point
continues a run for the time being, so that `10.5` and `a.m` are one run each; when
the run ends it is one token only if it can be a decimal, else it is split at its
points and commas.
-/

namespace Formwork.DateText

open Formwork.Text

/-- The characters of a token. -/
abbrev Token := List Char

/-- What a run that has not ended consists of. -/
inductive Mode where
  /-- Letters. -/
  | word
  /-- Digits. -/
  | number
  /-- Letters and points; begun by letters, or by a letter after a point. -/
  | pointedWord
  /-- Digits and points, or digits and one comma. -/
  | pointedNumber
  deriving DecidableEq, Repr

/-- A run that has not ended: its characters, last one first, and whether a character was looked
at while letters were being read. -/
structure Run where
  mode : Mode
  text : List Char
  letters : Bool
  deriving DecidableEq, Repr

/-- The run with one more character, if the character continues it. -/
def Run.extend? (run : Run) (c : Char) : Option Run :=
  let next (mode : Mode) (letters : Bool) : Option Run := some ⟨mode, c :: run.text, letters⟩
  let afterPoint := run.text.head? == some '.'
  match run.mode with
  | .word =>
    if isLetter c then next .word true
    else if c = '.' then next .pointedWord true
    else none
  | .number =>
    if isDigit c then next .number run.letters
    else if c = '.' || (c = ',' && 2 ≤ run.text.length) then next .pointedNumber run.letters
    else none
  | .pointedWord =>
    if c = '.' || isLetter c then next .pointedWord true
    else if isDigit c && afterPoint then next .pointedNumber true
    else none
  | .pointedNumber =>
    if c = '.' || isDigit c then next .pointedNumber run.letters
    else if isLetter c && afterPoint then next .pointedWord run.letters
    else none

/-- Splits a text at its points and commas, which are pieces of their own. Empty pieces are left
out. -/
def splitMarks : List Char → List Token
  | [] => []
  | c :: rest =>
    if c = '.' || c = ',' then [c] :: splitMarks rest
    else
      match splitMarks rest with
      | [] => [[c]]
      | piece :: pieces =>
        if piece = ['.'] || piece = [','] then [c] :: piece :: pieces
        else (c :: piece) :: pieces

/-- The tokens of a run that ends. `followed` tells that a character after it was looked at. -/
def Run.finish (run : Run) (followed : Bool) : List Token :=
  let text := run.text.reverse
  let letters := run.letters || (followed && (run.mode == .word || run.mode == .pointedWord))
  let points := text.count '.'
  match run.mode with
  | .word | .number => [text]
  | mode =>
    let last := run.text.head?
    if letters || 1 < points || last == some '.' || last == some ',' then splitMarks text
    else if mode == .pointedNumber && points == 0 then
      [text.map fun c => if c = ',' then '.' else c]
    else [text]

/-- Begins with a character: the token that it is, or the run that it opens. -/
def begin (c : Char) : List Token × Option Run :=
  if isLetter c then ([], some ⟨.word, [c], false⟩)
  else if isDigit c then ([], some ⟨.number, [c], false⟩)
  else if isBlank c then ([[' ']], none)
  else ([[c]], none)

/-- The tokens of a text that follows an open run. -/
def tokensAfter : Option Run → List Char → List Token
  | none, [] => []
  | some run, [] => run.finish false
  | none, c :: rest =>
    let (done, run) := begin c
    done ++ tokensAfter run rest
  | some run, c :: rest =>
    match run.extend? c with
    | some run => tokensAfter (some run) rest
    | none =>
      let (done, next) := begin c
      run.finish true ++ done ++ tokensAfter next rest

/-- The tokens of a text. Characters NUL count for nothing. -/
def tokens (s : List Char) : List Token :=
  tokensAfter none (s.filter (· != '\x00'))

end Formwork.DateText
