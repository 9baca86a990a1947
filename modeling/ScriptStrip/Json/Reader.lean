import ScriptStrip.Json.Failure
import ScriptStrip.Text.Bytes
/-
This file defines the state of a JSON reader and the steps that readers are made of.
-/

namespace ScriptStrip.Json

/-- The characters that are still to be read, and the bytes that have been read. -/
structure Cursor where
  rest : List Char
  offset : Nat
deriving Repr

namespace Cursor

/-- Reading starts in front of the whole text. -/
def ofText (text : String) : Cursor := ⟨text.toList, 0⟩

/-- Passing characters over moves the offset by their bytes. -/
def skip (count : Nat) (cursor : Cursor) : Cursor :=
  ⟨cursor.rest.drop count, cursor.offset + Text.byteCount (cursor.rest.take count)⟩

end Cursor

/-- A reader moves a cursor and may fail. -/
abbrev Reader := EStateM Failure Cursor

/-- Four characters may stand between the parts of a document. -/
def isBlank (character : Char) : Bool :=
  character == ' ' || character == '\n' || character == '\t' || character == '\r'

namespace Reader

variable {Value : Type}

/-- Fails without moving on, behind what has been read. -/
def fail (cause : Cause) : Reader Value := fun cursor =>
  .error ⟨cause, some cursor.offset⟩ cursor

/-- Fails behind the first byte of what comes next, with another cause if nothing does. -/
def refuse (atEnd otherwise : Cause) : Reader Value := fun cursor =>
  match cursor.rest with
  | [] => .error ⟨atEnd, some cursor.offset⟩ cursor
  | _ :: _ => .error ⟨otherwise, some (cursor.offset + 1)⟩ cursor

/-- Fails at a place that is not known yet. -/
def failUnplaced (cause : Cause) : Reader Value := fun cursor => .error ⟨cause, none⟩ cursor

/-- The next character is looked at and stays where it is. -/
def peek? : Reader (Option Char) := fun cursor => .ok cursor.rest.head? cursor

/-- This reader passes characters over. -/
def skip (count : Nat) : Reader Unit := fun cursor => .ok () (cursor.skip count)

/-- The characters up to the first one that does not satisfy the condition. -/
def upcoming (condition : Char → Bool) : Reader (List Char) := fun cursor =>
  .ok (cursor.rest.takeWhile condition) cursor

/-- The next character that is not blank. It is not read. -/
def front? : Reader (Option Char) := do
  skip (← upcoming isBlank).length
  peek?

/-- A character is taken if it is the next one. -/
def accept (character : Char) : Reader Bool := do
  if (← peek?) = some character then
    skip 1
    return true
  else return false

/-- A fixed word is read character by character. -/
def word : List Char → Reader Unit
  | [] => return ()
  | character :: rest => do
      if ← accept character then word rest else refuse .endInValue .expectedWord

/-- Closes what the body has opened, also when the body has failed. Its failure comes first, and
has its place behind the closing unless it was placed before. -/
def closedBy (body : Reader Value) (close : Reader Unit) : Reader Value := fun cursor =>
  match body cursor with
  | .ok value after =>
      match close after with
      | .ok _ final => .ok value final
      | .error failure final => .error failure final
  | .error failure after =>
      let final := match close after with
        | .ok _ final => final
        | .error _ final => final
      .error { failure with offset := failure.offset <|> some final.offset } final

/-- Nothing but blanks follows. -/
def finish : Reader Unit := do
  match ← front? with
  | none => return ()
  | some _ => refuse .endInValue .trailingCharacters

end Reader

/-- The value of a text that holds nothing else. -/
def Reader.run {Value : Type} (reader : Reader Value) (text : String) : Except Failure Value :=
  match (do let value ← reader; finish; return value : Reader Value) (.ofText text) with
  | .ok value _ => .ok value
  | .error failure _ => .error failure

end ScriptStrip.Json
