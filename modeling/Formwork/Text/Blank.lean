import Formwork.Text.Ranges

/-!
# Blanks

Blank characters separate words. Trimming removes them from both ends of a text.
-/

namespace Formwork.Text

/-- The blank characters. -/
def blanks : Ranges := [
  (0x9, 0xD), (0x1C, 0x20), (0x85, 0x85), (0xA0, 0xA0), (0x1680, 0x1680),
  (0x2000, 0x200A), (0x2028, 0x2029), (0x202F, 0x202F), (0x205F, 0x205F), (0x3000, 0x3000)]

/-- The character is blank. -/
def isBlank (c : Char) : Bool :=
  blanks.has c

/-- Every character of the text is blank. -/
def isBlankText (s : String) : Bool :=
  s.toList.all isBlank

end Formwork.Text
