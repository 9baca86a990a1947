/-
This file lists the ways in which a JSON text can fail to be what a reader expects.
-/

namespace ScriptStrip.Json

/-- What is wrong with a JSON text. -/
inductive Cause where
  | endInValue
  | endInObject
  | endInList
  | endInString
  | expectedColon
  | expectedListCommaOrEnd
  | expectedObjectCommaOrEnd
  | expectedWord
  | expectedValue
  | invalidEscape
  | invalidNumber
  | numberOutOfRange
  | controlCharacter
  | keyNotString
  | loneSurrogate
  | trailingComma
  | trailingCharacters
  | unfinishedEscape
  | unknownField (name : String) (known : List String)
  | repeatedField (name : String)
  | wrongType (found expected : String)
deriving DecidableEq, Repr

/-- How far a text is from what is expected. -/
inductive Severity where
  /-- The text ends too early. -/
  | truncated
  /-- The text is no JSON. -/
  | malformed
  /-- The text is JSON for something else. -/
  | unsuitable
deriving DecidableEq, Repr

namespace Cause

/-- A cause tells whether the text ends early, is malformed, or does not suit. -/
def severity : Cause → Severity
  | endInValue | endInObject | endInList | endInString => .truncated
  | unknownField .. | repeatedField _ | wrongType .. => .unsuitable
  | _ => .malformed

/-- Names are shown between two grave accents. -/
def shown (name : String) : String := "\x60" ++ name ++ "\x60"

/-- Each cause has one text. -/
def message : Cause → String
  | endInValue => "EOF while parsing a value"
  | endInObject => "EOF while parsing an object"
  | endInList => "EOF while parsing a list"
  | endInString => "EOF while parsing a string"
  | expectedColon => "expected " ++ shown ":"
  | expectedListCommaOrEnd => "expected " ++ shown "," ++ " or " ++ shown "]"
  | expectedObjectCommaOrEnd => "expected " ++ shown "," ++ " or " ++ shown "\x7d"
  | expectedWord => "expected ident"
  | expectedValue => "expected value"
  | invalidEscape => "invalid escape"
  | invalidNumber => "invalid number"
  | numberOutOfRange => "number out of range"
  | controlCharacter => "control character (\\u0000-\\u001F) found while parsing a string"
  | keyNotString => "key must be a string"
  | loneSurrogate => "lone leading surrogate in hex escape"
  | trailingComma => "trailing comma"
  | trailingCharacters => "trailing characters"
  | unfinishedEscape => "unexpected end of hex escape"
  | unknownField name known =>
      "unknown field " ++ shown name ++ ", expected one of " ++ ", ".intercalate (known.map shown)
  | repeatedField name => "duplicate field " ++ shown name
  | wrongType found expected => "invalid type: " ++ found ++ ", expected " ++ expected

end Cause

/-- What is wrong with a JSON text, and behind how many of its bytes that was found. A failure
without an offset is still to be placed. -/
structure Failure where
  cause : Cause
  offset : Option Nat
deriving DecidableEq, Repr

/-- A place in a text. Columns are counted in bytes. -/
structure Position where
  line : Nat
  column : Nat
deriving DecidableEq, Repr

/-- The place that is so many bytes behind another one. -/
def Position.behind (position : Position) : List Char → Nat → Position
  | [], _ => position
  | character :: rest, bytes =>
      if bytes = 0 then position
      else if character = '\n' then behind ⟨position.line + 1, 0⟩ rest (bytes - 1)
      else if character.utf8Size ≤ bytes then
        behind ⟨position.line, position.column + character.utf8Size⟩ rest
          (bytes - character.utf8Size)
      else ⟨position.line, position.column + bytes⟩

/-- The message with the place in the text that was read. -/
def Failure.describe (source : String) (failure : Failure) : String :=
  match failure.offset with
  | none => failure.cause.message
  | some offset =>
      let position := Position.behind ⟨1, 0⟩ source.toList offset
      failure.cause.message ++ " at line " ++ toString position.line ++ " column " ++
        toString position.column

end ScriptStrip.Json
