/-
This file tests characters against sorted tables of code point ranges.
-/

namespace ScriptStrip.Text

/-- The first and the last code point of a range. -/
abbrev Range := Nat × Nat

/-- A character is in a table when one of the ranges covers its code point. -/
def inRanges (table : List Range) (character : Char) : Bool :=
  table.any fun range => range.1 ≤ character.toNat && character.toNat ≤ range.2

end ScriptStrip.Text
