import ScriptStrip.Diagnostic
import ScriptStrip.Path
import ScriptStrip.Rewrite.Basic
import ScriptStrip.Tree.Node
/-
This file rewrites the script in one file and prints it for another.
-/

namespace ScriptStrip

/-- Why nothing is built. -/
inductive BuildError where
  | missingFile (path : Path)
  /-- The source text is kept, so that the error can be shown in it. -/
  | invalidScript (path : Path) (source : String) (error : SyntaxError)
  | invalidConfiguration (path : Option Path) (reason : String)
deriving DecidableEq, Repr

namespace BuildError

/-- The text of an error names the file and the reason. -/
def message : BuildError → String
  | missingFile path => "Could not find file at " ++ path.text
  | invalidScript path _ error => error.describe ++ " in " ++ path.text
  | invalidConfiguration (some path) reason =>
      "Invalid configuration in " ++ path.text ++ ": " ++ reason
  | invalidConfiguration none reason => "Invalid configuration: " ++ reason

/-- The error as it is shown to a user. -/
def render : BuildError → String
  | invalidScript path source error =>
      Diagnostic.render ⟨"error: could not parse input", path.text, source, error.span,
        error.message⟩
  | error => "error: " ++ error.message ++ "\n"

end BuildError

/-- A file that is to be written. -/
structure OutputFile where
  path : Path
  content : String
deriving DecidableEq, Repr

/-- What a build comes to. -/
structure BuildResult where
  output : OutputFile
  report : Report
deriving DecidableEq, Repr

/-- What to build and how. -/
structure BuildSettings where
  configuration : Configuration := .standard
  isMinified : Bool := false
deriving DecidableEq, Repr

namespace BuildSettings

/-- A minified build prints without blanks that may be left out. -/
def style (settings : BuildSettings) : Style :=
  if settings.isMinified then .minified else .standard

/-- A file ends with a line feed unless it is empty. -/
def content (settings : BuildSettings) (script : Script) : String :=
  let text := (Node.script script).print settings.style 0
  if text.isEmpty then text else text ++ "\n"

/-- Builds the script of a source text. -/
def buildSource (settings : BuildSettings) (input output : Path) (source : String) :
    Except BuildError BuildResult :=
  match Script.parse source with
  | .error error => .error (.invalidScript input source error)
  | .ok script =>
      let (script, report) := script.rewrite settings.configuration
      .ok ⟨⟨output, settings.content script⟩,
        report.record (.rewroteScript input.text report.statistics)⟩

/-- Builds the script of a file. Files are read by the given action. -/
def build {Action : Type → Type} [Monad Action] (settings : BuildSettings)
    (read : Path → Action (Option String)) (input output : Path) :
    Action (Except BuildError BuildResult) := do
  match ← read input with
  | none => return .error (.missingFile input)
  | some source => return settings.buildSource input output source

end BuildSettings

end ScriptStrip
