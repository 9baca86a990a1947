import ScriptStrip.CommandLine.Run
/-
This file connects the program with files and with its standard streams.
-/

namespace ScriptStrip.CommandLine

/-- The files of the machine that the program runs on. -/
def fileEnvironment : Environment IO where
  read path := do
    try return some (← IO.FS.readFile path.text)
    catch _ => return none
  write path content := do
    try
      IO.FS.writeFile path.text content
      return .ok ()
    catch error => return .error (toString error)
  clock := IO.monoNanosNow

end ScriptStrip.CommandLine

open ScriptStrip

/-- Runs the program. -/
def main (arguments : List String) : IO UInt32 := do
  let outcome ← CommandLine.run CommandLine.fileEnvironment arguments
  IO.print outcome.output
  IO.eprint outcome.errors
  return if outcome.isSuccess then 0 else 1
