import ScriptStrip.Text.Unprintable
/-
This file writes characters and texts between quotes in such a way that each one can be told
from every other.
-/

namespace ScriptStrip.Text

/-- The digits of a number in base sixteen, in lower case and without padding. -/
def hexadecimal (number : Nat) : List Char := Nat.toDigits 16 number

/-- The form of a character between quotes. Only the quote that surrounds it is escaped. -/
def escaped (quote character : Char) : List Char :=
  if character == '\x00' then ['\\', '0']
  else if character == '\t' then ['\\', 't']
  else if character == '\r' then ['\\', 'r']
  else if character == '\n' then ['\\', 'n']
  else if character == '\\' then ['\\', '\\']
  else if character == quote then ['\\', quote]
  else if isUnprintable character then
    ['\\', 'u', '\x7b'] ++ hexadecimal character.toNat ++ ['\x7d']
  else [character]

/-- A text between two quotes. -/
def quoted (quote : Char) (text : String) : String :=
  String.ofList (quote :: text.toList.flatMap (escaped quote) ++ [quote])

end ScriptStrip.Text
