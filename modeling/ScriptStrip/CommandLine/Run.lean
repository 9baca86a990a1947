import ScriptStrip.Build
import ScriptStrip.CommandLine.Arguments
import ScriptStrip.CommandLine.Duration
import ScriptStrip.Configuration.Json
/-
This file runs the commands of the program.
-/

namespace ScriptStrip.CommandLine

open ScriptStrip.Configuration (Options)

/-- What the program needs of its surroundings. -/
structure Environment (Action : Type → Type) where
  read : Path → Action (Option String)
  /-- Writes a file, or tells why that was not possible. -/
  write : Path → String → Action (Except String Unit)
  /-- The time in nanoseconds. -/
  clock : Action Nat

/-- What a run of the program comes to. -/
structure Outcome where
  isSuccess : Bool
  output : String := ""
  errors : String := ""
deriving DecidableEq, Repr

/-- Without any other path the output is written here. -/
def defaultOutput : Path := ⟨"amp_output.js"⟩

namespace BuildArguments

/-- Arguments are put on top of the options of the configuration file. -/
def extend (arguments : BuildArguments) (options : Options) : Options where
  isProduction := options.isProduction || arguments.isProduction
  suffixes := options.suffixes ++ arguments.suffixes
  modeAccessor := arguments.modeAccessor <|> options.modeAccessor

/-- The output goes to the path that is given, or to the default one. -/
def outputPath (arguments : BuildArguments) : Path := arguments.output.getD defaultOutput

/-- The settings of a build are those of the arguments and of the file together. -/
def settings (arguments : BuildArguments) (options : Options) :
    Except BuildError BuildSettings :=
  match (arguments.extend options).check with
  | .ok configuration => .ok ⟨configuration, arguments.isMinified⟩
  | .error error => .error (.invalidConfiguration arguments.configuration error.message)

/-- The options of the configuration file that was found at the path. -/
def optionsOf (path : Path) : Option String → Except BuildError Options
  | none => .error (.missingFile path)
  | some content =>
      match Options.ofJson content with
      | .ok options => .ok options
      | .error failure => .error (.invalidConfiguration (some path) (failure.describe content))

variable {Action : Type → Type} [Monad Action]

/-- The options come from the configuration file, if there is one. -/
def options (arguments : BuildArguments) (read : Path → Action (Option String)) :
    Action (Except BuildError Options) := do
  match arguments.configuration with
  | none => return .ok {}
  | some path => return optionsOf path (← read path)

/-- Nothing is built unless the options are valid. -/
def build (arguments : BuildArguments) (read : Path → Action (Option String)) :
    Action (Except BuildError BuildResult) := do
  match (← arguments.options read).bind arguments.settings with
  | .error error => return .error error
  | .ok settings => settings.build read arguments.input arguments.outputPath

/-- Builds, and writes what was built. -/
def run (arguments : BuildArguments) (environment : Environment Action) : Action Outcome := do
  let start ← environment.clock
  match ← arguments.build environment.read with
  | .error error => return { isSuccess := false, errors := error.render }
  | .ok result =>
      let path := result.output.path.text
      match ← environment.write result.output.path result.output.content with
      | .error reason =>
          return { isSuccess := false,
                   errors := "error: Could not write to " ++ path ++ ": " ++ reason ++ "\n" }
      | .ok _ =>
          let stop ← environment.clock
          let timings :=
            if arguments.showsTimings then ["Took " ++ durationText (stop - start)] else []
          return { isSuccess := true,
                   output := unlines (["done wrote " ++ path,
                     result.report.statistics.describe] ++ timings) }

end BuildArguments

/-- Runs the program with its arguments. -/
def run {Action : Type → Type} [Monad Action] (environment : Environment Action)
    (arguments : List String) : Action Outcome := do
  match Command.ofArguments arguments with
  | .error stop => return { isSuccess := stop.isSuccess, output := stop.message ++ "\n" }
  | .ok .info => return { isSuccess := true, output := unlines information }
  | .ok (.build arguments) => arguments.run environment

end ScriptStrip.CommandLine
