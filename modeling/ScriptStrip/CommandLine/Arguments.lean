import ScriptStrip.CommandLine.Help
import ScriptStrip.Path
/-
This file reads the arguments of the program.
-/

namespace ScriptStrip.CommandLine

/-- The arguments of a build that can be left out. -/
structure BuildFlags where
  output : Option Path := none
  configuration : Option Path := none
  isProduction : Bool := false
  suffixes : List String := []
  modeAccessor : Option String := none
  isMinified : Bool := false
  showsTimings : Bool := false
deriving DecidableEq, Repr

/-- The arguments of a build. -/
structure BuildArguments extends BuildFlags where
  input : Path
deriving DecidableEq, Repr

/-- The program either tells about itself or builds. -/
inductive Command where
  | info
  | build (arguments : BuildArguments)
deriving DecidableEq, Repr

/-- Why arguments do not lead to a command. -/
inductive Stop where
  | help (screen : Screen)
  | trailingArgument
  | unrecognized (argument : String)
  | missingValue (option : String)
  | repeatedValue (option value : String)
  | missingInput
  | missingCommand
deriving DecidableEq, Repr

namespace Stop

/-- Only a wish for help is met. -/
def isSuccess : Stop → Bool
  | help _ => true
  | _ => false

/-- This text is printed where reading the arguments stops. -/
def message : Stop → String
  | help screen => unlines screen.lines
  | trailingArgument => "Trailing arguments are not allowed after \x60help\x60."
  | unrecognized argument => "Unrecognized argument: " ++ argument ++ "\n"
  | missingValue option => "No value provided for option '" ++ option ++ "'.\n"
  | repeatedValue option value =>
      "Error parsing option '" ++ option ++ "' with value '" ++ value ++
        "': duplicate values provided\n"
  | missingInput => unlines ["Required positional arguments not provided:", "    input"]
  | missingCommand =>
      unlines ["One of the following subcommands must be present:", "    help", "    info",
        "    build"]

end Stop

/-- The words that ask for help, wherever an option can stand. -/
def isHelp (argument : String) : Bool := argument == "--help" || argument == "help"

/-- An argument that starts with a dash is an option. -/
def isOption (argument : String) : Bool := argument.toList.head? == some '-'

/-- The arguments that a command takes. Each one changes what is known from the arguments before
it. -/
structure Grammar (State : Type) where
  screen : Screen
  /-- Options that stand alone. -/
  switch? : String → Option (State → State)
  /-- Options with a value. A value that cannot be added to another one is refused. -/
  option? : String → Option (String → State → Option State)
  /-- Arguments without a name. -/
  positional : String → State → Option State

/-- Where the reading of arguments stands. -/
structure Progress where
  asksHelp : Bool := false
  /-- Arguments that look like options are taken as they are. -/
  optionsEnded : Bool := false

/-- Reads all arguments of a command. -/
def Grammar.read {State : Type} (grammar : Grammar State) :
    Progress → State → List String → Except Stop State
  | progress, state, [] => if progress.asksHelp then .error (.help grammar.screen) else .ok state
  | progress, state, argument :: rest =>
      if progress.optionsEnded || !(isHelp argument || isOption argument) then
        match grammar.positional argument state with
        | some state => grammar.read progress state rest
        | none => .error (.unrecognized argument)
      else if isHelp argument then grammar.read { progress with asksHelp := true } state rest
      else if argument = "--" then grammar.read { progress with optionsEnded := true } state rest
      else if progress.asksHelp then .error .trailingArgument
      else
        match grammar.switch? argument, grammar.option? argument, rest with
        | some switch, _, rest => grammar.read progress (switch state) rest
        | none, some _, [] => .error (.missingValue argument)
        | none, some extend, value :: rest =>
            match extend value state with
            | some state => grammar.read progress state rest
            | none => .error (.repeatedValue argument value)
        | none, none, _ => .error (.unrecognized argument)

/-- The command `info` takes no arguments. -/
def infoGrammar : Grammar Unit where
  screen := .info
  switch? _ := none
  option? _ := none
  positional _ _ := none

/-- A build whose input may still be missing. -/
structure PartialBuild where
  input : Option Path := none
  flags : BuildFlags := {}

/-- These options set a flag of the build. -/
def buildSwitch? : String → Option (BuildFlags → BuildFlags)
  | "--prod" => some fun flags => { flags with isProduction := true }
  | "-m" | "--minify" => some fun flags => { flags with isMinified := true }
  | "--timings" => some fun flags => { flags with showsTimings := true }
  | _ => none

/-- Only suffixes can be given more than once. -/
def buildOption? : String → Option (String → BuildFlags → Option BuildFlags)
  | "-c" | "--config" => some fun value flags =>
      if flags.configuration.isSome then none
      else some { flags with configuration := some ⟨value⟩ }
  | "--strip" => some fun value flags => some { flags with suffixes := flags.suffixes ++ [value] }
  | "--mode-accessor" => some fun value flags =>
      if flags.modeAccessor.isSome then none else some { flags with modeAccessor := some value }
  | _ => none

/-- The input comes before the output. -/
def PartialBuild.addPositional (value : String) (state : PartialBuild) : Option PartialBuild :=
  match state.input, state.flags.output with
  | none, _ => some { state with input := some ⟨value⟩ }
  | some _, none => some { state with flags := { state.flags with output := some ⟨value⟩ } }
  | some _, some _ => none

/-- The arguments of a build are switches, options with a value, and one input. -/
def buildGrammar : Grammar PartialBuild where
  screen := .build
  switch? argument := (buildSwitch? argument).map fun switch state =>
    { state with flags := switch state.flags }
  option? argument := (buildOption? argument).map fun extend value state =>
    (extend value state.flags).map fun flags => { state with flags }
  positional := PartialBuild.addPositional

/-- No argument may follow the command that tells about the program. -/
def readInfo (progress : Progress) (arguments : List String) : Except Stop Command := do
  infoGrammar.read progress () arguments
  return .info

/-- A build needs an input file. -/
def readBuild (progress : Progress) (arguments : List String) : Except Stop Command := do
  let state ← buildGrammar.read progress {} arguments
  match state.input with
  | some input => return .build { state.flags with input }
  | none => throw .missingInput

/-- Commands are chosen by name. -/
inductive CommandName where
  | info | build
deriving DecidableEq, Repr

/-- A command also goes by one character. No command has chosen its own, so each of them goes by
the null character, and the first one is meant by it. -/
def CommandName.ofText? : String → Option CommandName
  | "info" | "\x00" => some .info
  | "build" => some .build
  | _ => none

/-- Reads the arguments up to the name of a command, and leaves the others to the command. A wish
for help goes to the command, too. -/
def readProgram : Progress → List String → Except Stop Command
  | progress, [] => .error (if progress.asksHelp then .help .program else .missingCommand)
  | progress, argument :: rest =>
      if !progress.optionsEnded && isHelp argument then
        readProgram { progress with asksHelp := true } rest
      else if !progress.optionsEnded && isOption argument then
        if argument = "--" then readProgram { progress with optionsEnded := true } rest
        else .error (if progress.asksHelp then .trailingArgument else .unrecognized argument)
      else
        match CommandName.ofText? argument with
        | some .info => readInfo { asksHelp := progress.asksHelp } rest
        | some .build => readBuild { asksHelp := progress.asksHelp } rest
        | none => .error (.unrecognized argument)

/-- The command is read from all arguments of the program. -/
def Command.ofArguments (arguments : List String) : Except Stop Command :=
  readProgram {} arguments

end ScriptStrip.CommandLine
