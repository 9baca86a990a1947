/-
This file defines the characters that separate words without being part of any.
-/

namespace ScriptStrip.Text

/-- A blank has the `White_Space` property. -/
def isBlank (character : Char) : Bool :=
  let code := character.toNat
  (9 ≤ code && code ≤ 13) || code == 32 || code == 0x85 || code == 0xA0 || code == 0x1680 ||
    (0x2000 ≤ code && code ≤ 0x200A) || code == 0x2028 || code == 0x2029 || code == 0x202F ||
    code == 0x205F || code == 0x3000

/-- A line break ends a line of source text. -/
def isLineBreak (character : Char) : Bool :=
  character == '\n' || character == '\r' || character == '\u2028' || character == '\u2029'

/-- Every character that breaks a line is a blank. -/
theorem isBlank_of_isLineBreak {character : Char} (breaks : isLineBreak character = true) :
    isBlank character = true := by
  simp only [isLineBreak, Bool.or_eq_true, beq_iff_eq] at breaks
  rcases breaks with ((rfl | rfl) | rfl) | rfl <;> decide

end ScriptStrip.Text
