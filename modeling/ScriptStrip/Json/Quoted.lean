import ScriptStrip.Json.Reader
/-
This file reads the strings of JSON texts.
-/

namespace ScriptStrip.Json

namespace Quoted

/-- The character that a backslash and one more character stand for. -/
def shortEscape? : Char → Option Char
  | '"' => some '"'
  | '\\' => some '\\'
  | '/' => some '/'
  | 'b' => some '\x08'
  | 'f' => some '\x0c'
  | 'n' => some '\n'
  | 'r' => some '\r'
  | 't' => some '\t'
  | _ => none

/-- This is the value of a hexadecimal digit. -/
def hexDigit? (character : Char) : Option Nat :=
  if '0' ≤ character ∧ character ≤ '9' then some (character.toNat - '0'.toNat)
  else if 'a' ≤ character ∧ character ≤ 'f' then some (character.toNat - 'a'.toNat + 10)
  else if 'A' ≤ character ∧ character ≤ 'F' then some (character.toNat - 'A'.toNat + 10)
  else none

/-- The number that the next four characters write in base sixteen. Four bytes are read in any
case. -/
def codeUnit (offset : Nat) (rest : List Char) : Except Failure Nat :=
  if Text.byteCount rest < 4 then .error ⟨.endInString, some (offset + Text.byteCount rest)⟩
  else
    match (rest.take 4).mapM hexDigit? with
    | some digits => .ok (digits.foldl (fun number digit => 16 * number + digit) 0)
    | none => .error ⟨.invalidEscape, some (offset + 4)⟩

/-- These units are the first halves of pairs. -/
def isLeadingSurrogate (unit : Nat) : Bool := 0xD800 ≤ unit && unit ≤ 0xDBFF

/-- These units are the second halves of pairs. -/
def isTrailingSurrogate (unit : Nat) : Bool := 0xDC00 ≤ unit && unit ≤ 0xDFFF

/-- The trailing half of a surrogate pair, which is an escape of its own. -/
def trailingUnit (offset : Nat) : List Char → Except Failure Nat
  | '\\' :: 'u' :: rest => do
      let unit ← codeUnit (offset + 2) rest
      if isTrailingSurrogate unit then return unit
      else throw ⟨.loneSurrogate, some (offset + 6)⟩
  | [] => .error ⟨.endInString, some offset⟩
  | ['\\'] => .error ⟨.endInString, some (offset + 1)⟩
  | '\\' :: _ => .error ⟨.unfinishedEscape, some (offset + 2)⟩
  | _ => .error ⟨.unfinishedEscape, some (offset + 1)⟩

/-- The character that an escape stands for, and the length of the escape behind its backslash.
Each character of an escape takes one byte. -/
def escape (offset : Nat) : List Char → Except Failure (Char × Nat)
  | [] => .error ⟨.endInString, some offset⟩
  | 'u' :: rest => do
      let unit ← codeUnit (offset + 1) rest
      if isTrailingSurrogate unit then throw ⟨.loneSurrogate, some (offset + 5)⟩
      else if isLeadingSurrogate unit then
        let trailing ← trailingUnit (offset + 5) (rest.drop 4)
        return (Char.ofNat (0x10000 + (unit - 0xD800) * 0x400 + (trailing - 0xDC00)), 11)
      else return (Char.ofNat unit, 5)
  | character :: _ =>
      match shortEscape? character with
      | some meant => .ok (meant, 1)
      | none => .error ⟨.invalidEscape, some (offset + 1)⟩

/-- The characters up to the closing quote, and what follows it. -/
def content (characters : List Char) (offset : Nat) : Except Failure (List Char × Cursor) :=
  match characters with
  | [] => .error ⟨.endInString, some offset⟩
  | '"' :: rest => .ok ([], ⟨rest, offset + 1⟩)
  | '\\' :: rest => do
      let (meant, length) ← escape (offset + 1) rest
      let (others, after) ← content (rest.drop length) (offset + 1 + length)
      return (meant :: others, after)
  | character :: rest => do
      if character < ' ' then throw ⟨.controlCharacter, some (offset + 1)⟩
      else
        let (others, after) ← content rest (offset + character.utf8Size)
        return (character :: others, after)
termination_by characters.length
decreasing_by all_goals simp; try omega

end Quoted

/-- The text behind an opening quote. -/
def Reader.quoted : Reader String := fun cursor =>
  match Quoted.content cursor.rest cursor.offset with
  | .ok (characters, after) => .ok (String.ofList characters) after
  | .error failure => .error failure cursor

end ScriptStrip.Json
