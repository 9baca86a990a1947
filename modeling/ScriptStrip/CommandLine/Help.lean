/-
This file holds the help of the program and its commands.
-/

namespace ScriptStrip.CommandLine

/-- The program is called by this name. -/
def programName : String := "amp-pass"

/-- This is the version that the program tells. -/
def programVersion : String := "0.1.0"

/-- The screens of help. -/
inductive Screen where
  | program | info | build
deriving DecidableEq, Repr

/-- The lines are joined, and each one is ended. -/
def unlines (lines : List String) : String := String.join (lines.map (· ++ "\n"))

/-- Every screen lists the switch that shows it. -/
def helpLine : String := "  --help, help      display usage information"

/-- Each screen is a list of lines. -/
def Screen.lines : Screen → List String
  | program => [
      "Usage: " ++ programName ++ " <command> [<args>]",
      "",
      "Strips development logging and folds build mode flags in JavaScript",
      "",
      "Options:",
      helpLine,
      "",
      "Commands:",
      "  info              Display " ++ programName ++ " information",
      "  build             Rewrite a file"]
  | info => [
      "Usage: " ++ programName ++ " info",
      "",
      "Display " ++ programName ++ " information",
      "",
      "Options:",
      helpLine]
  | build => [
      "Usage: " ++ programName ++ " build [-c <config>] [--prod] [--strip <strip...>] " ++
        "[--mode-accessor <mode-accessor>] [-m] [--timings] [--] <input> [<output>]",
      "",
      "Rewrite a file",
      "",
      "Positional Arguments:",
      "  input             path to input file",
      "  output            path to output",
      "",
      "Options:",
      "  -c, --config      path to a JSON configuration file",
      "  --prod            build for production, folding mode flags",
      "  --strip           member suffix whose calls are removed, e.g. \x60dev.fine\x60. Can",
      "                    be repeated",
      "  --mode-accessor   identifier whose \x60getMode()\x60 result is folded",
      "  -m, --minify      whether to minify build output",
      "  --timings         whether to display build times",
      helpLine]

/-- What the program says about itself. -/
def information : List String := [
  programName ++ "@" ++ programVersion,
  "Strips development logging calls and folds build mode flags in JavaScript. " ++
    "For use as a library or through the CLI",
  "For help run --help"]

end ScriptStrip.CommandLine
