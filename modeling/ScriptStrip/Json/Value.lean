import ScriptStrip.Json.Numeral
import ScriptStrip.Json.Quoted
import ScriptStrip.Text.Escape
/-
This file reads the values of JSON texts, each with the type that is expected of it.
-/

namespace ScriptStrip.Json.Reader

variable {Value State : Type}

/-- A description of the value that follows. Lists and objects are not read. -/
def found : Reader String := do
  match ← peek? with
  | some 'n' =>
      word ['n', 'u', 'l', 'l']
      return "null"
  | some 't' =>
      word ['t', 'r', 'u', 'e']
      return "boolean " ++ Cause.shown "true"
  | some 'f' =>
      word ['f', 'a', 'l', 's', 'e']
      return "boolean " ++ Cause.shown "false"
  | some '"' =>
      skip 1
      return "string " ++ Text.quoted '"' (← quoted)
  | some '[' => return "sequence"
  | some '\x7b' => return "map"
  | some next =>
      if next == '-' || next.isDigit then return (← numeral).describe
      else refuse .expectedValue .expectedValue
  | none => refuse .expectedValue .expectedValue

/-- Fails because of the type of the value that follows. -/
def mismatch (expected : String) : Reader Value := do
  let found ← found
  fail (.wrongType found expected)

/-- A boolean is one of two fixed words. -/
def boolean : Reader Bool := do
  match ← front? with
  | none => refuse .endInValue .expectedValue
  | some 't' =>
      word ['t', 'r', 'u', 'e']
      return true
  | some 'f' =>
      word ['f', 'a', 'l', 's', 'e']
      return false
  | some _ => mismatch "a boolean"

/-- A string starts with a quote. -/
def string : Reader String := do
  match ← front? with
  | none => refuse .endInValue .expectedValue
  | some '"' =>
      skip 1
      quoted
  | some _ => mismatch "a string"

/-- The value may be absent, which is written `null`. -/
def nullable (value : Reader Value) : Reader (Option Value) := do
  match ← front? with
  | some 'n' =>
      word ['n', 'u', 'l', 'l']
      return none
  | _ => return some (← value)

/-- Another item of a list follows. A comma in front of it is read. -/
def hasItem (isFirst : Bool) : Reader Bool := do
  match ← front? with
  | none => refuse .endInList .endInList
  | some ']' => return false
  | some next =>
      if isFirst then return true
      else if next == ',' then
        skip 1
        match ← front? with
        | some ']' => refuse .trailingComma .trailingComma
        | some _ => return true
        | none => refuse .endInValue .endInValue
      else refuse .expectedListCommaOrEnd .expectedListCommaOrEnd

/-- A list ends without a comma in front of its bracket. -/
def endList : Reader Unit := do
  match ← front? with
  | none => refuse .endInList .endInList
  | some ']' => skip 1
  | some ',' =>
      skip 1
      match ← front? with
      | some ']' => refuse .trailingComma .trailingComma
      | _ => refuse .trailingCharacters .trailingCharacters
  | some _ => refuse .trailingCharacters .trailingCharacters

/-- At most so many items of a list. -/
def items (item : Reader Value) : Nat → Bool → Reader (List Value)
  | 0, _ => return []
  | limit + 1, isFirst => do
      if ← hasItem isFirst then
        let first ← item
        return first :: (← items item limit false)
      else return []

/-- A list has fewer items than it has characters. -/
def listOf (item : Reader Value) : Reader (List Value) := do
  match ← front? with
  | none => refuse .endInValue .expectedValue
  | some '[' =>
      skip 1
      let limit := (← upcoming fun _ => true).length
      closedBy (items item limit true) endList
  | some _ => mismatch "a sequence"

/-- Another field of an object follows. The text moves on to the quote in front of its name. -/
def hasField (isFirst : Bool) : Reader Bool := do
  match ← front? with
  | none => refuse .endInObject .endInObject
  | some '\x7d' => return false
  | some next =>
      if isFirst then
        if next == '"' then return true else refuse .keyNotString .keyNotString
      else if next == ',' then
        skip 1
        match ← front? with
        | some '"' => return true
        | some '\x7d' => refuse .trailingComma .trailingComma
        | some _ => refuse .keyNotString .keyNotString
        | none => refuse .endInValue .endInValue
      else refuse .expectedObjectCommaOrEnd .expectedObjectCommaOrEnd

/-- A colon stands between a field and its value. -/
def colon : Reader Unit := do
  match ← front? with
  | some ':' => skip 1
  | _ => refuse .endInObject .expectedColon

/-- An object ends without a comma in front of its brace. -/
def endObject : Reader Unit := do
  match ← front? with
  | some '\x7d' => skip 1
  | some ',' => refuse .trailingComma .trailingComma
  | _ => refuse .endInObject .trailingCharacters

/-- Reads at most so many fields. The action gets the name of a field with what was read before
it, and reads the colon and the value. -/
def fields (field : State → String → Reader State) : Nat → Bool → State → Reader State
  | 0, _, state => return state
  | limit + 1, isFirst, state => do
      if ← hasField isFirst then
        skip 1
        let name ← quoted
        fields field limit false (← field state name)
      else return state

/-- The fields behind an opening brace. An object has fewer fields than it has characters. -/
def object (field : State → String → Reader State) (state : State) : Reader State := do
  let limit := (← upcoming fun _ => true).length
  closedBy (fields field limit true state) endObject

end ScriptStrip.Json.Reader
