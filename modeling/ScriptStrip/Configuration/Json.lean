import ScriptStrip.Configuration.Basic
import ScriptStrip.Json.Value
/-
This file reads the settings of a rewriting pass from JSON.
-/

namespace ScriptStrip.Configuration

open Json

/-- Why a JSON text is refused as a configuration. -/
inductive ReadingError where
  | json (failure : Failure)
  | invalid (error : ConfigurationError)
deriving DecidableEq, Repr

namespace Options

/-- A configuration file may have these three fields. -/
def fieldNames : List String := ["isProd", "suffixTypesToStrip", "modeAccessor"]

/-- The fields that have been read so far. -/
structure Fields where
  isProduction : Option Bool := none
  suffixes : Option (List String) := none
  modeAccessor : Option (Option String) := none

/-- Every field can be left out. -/
def Fields.options (fields : Fields) : Options where
  isProduction := fields.isProduction.getD false
  suffixes := fields.suffixes.getD []
  modeAccessor := fields.modeAccessor.join

namespace Fields

/-- The value behind the name of a field. -/
def value {Value : Type} (name : String) (isRepeated : Bool) (reader : Reader Value) :
    Reader Value := do
  if isRepeated then Reader.failUnplaced (.repeatedField name)
  Reader.colon
  reader

/-- No field may be unknown, and none may be repeated. -/
def extend (fields : Fields) (name : String) : Reader Fields := do
  match name with
  | "isProd" =>
      let isProduction ← value name fields.isProduction.isSome Reader.boolean
      return { fields with isProduction := some isProduction }
  | "suffixTypesToStrip" =>
      let suffixes ← value name fields.suffixes.isSome (Reader.listOf Reader.string)
      return { fields with suffixes := some suffixes }
  | "modeAccessor" =>
      let modeAccessor ← value name fields.modeAccessor.isSome (Reader.nullable Reader.string)
      return { fields with modeAccessor := some modeAccessor }
  | _ => Reader.failUnplaced (.unknownField name fieldNames)

/-- The fields as the items of a list, in their order. -/
def inOrder : Reader Fields := do
  unless ← Reader.hasItem true do return {}
  let isProduction ← Reader.boolean
  let fields : Fields := { isProduction := some isProduction }
  unless ← Reader.hasItem false do return fields
  let suffixes ← Reader.listOf Reader.string
  let fields := { fields with suffixes := some suffixes }
  unless ← Reader.hasItem false do return fields
  let modeAccessor ← Reader.nullable Reader.string
  return { fields with modeAccessor := some modeAccessor }

end Fields

/-- Options are written as an object, or as a list of its values. -/
def reader : Reader Options := do
  match ← Reader.front? with
  | none => Reader.refuse .endInValue .expectedValue
  | some '\x7b' =>
      Reader.skip 1
      return (← Reader.object Fields.extend {}).options
  | some '[' =>
      Reader.skip 1
      return (← Reader.closedBy Fields.inOrder Reader.endList).options
  | some _ => Reader.mismatch "struct ConfigurationOptions"

/-- The options are read from the text of a configuration file. -/
def ofJson (text : String) : Except Failure Options := reader.run text

end Options

/-- Settings are checked before the rest of the text is. -/
def ofJson (text : String) : Except ReadingError Configuration :=
  match Options.reader (.ofText text) with
  | .error failure _ => .error (.json failure)
  | .ok options after =>
      match options.check with
      | .error error => .error (.invalid error)
      | .ok configuration =>
          match Reader.finish after with
          | .error failure _ => .error (.json failure)
          | .ok _ _ => .ok configuration

end ScriptStrip.Configuration
