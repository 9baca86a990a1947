import ScriptStrip.Text.Split
/-
This file defines the names of files.
-/

namespace ScriptStrip

/-- The name of a file, as it was given. -/
structure Path where
  text : String
deriving DecidableEq, Repr, Inhabited

namespace Path

/-- The steps of the path. Empty steps and dots between other steps lead nowhere, so they are
left out. The root and a dot in front are steps of their own. -/
def components (path : Path) : List String :=
  let steps := (Text.splitAt '/' path.text.toList).map String.ofList
  let inner := steps.filter fun step => step != "" && step != "."
  match steps with
  | "" :: _ :: _ => "/" :: inner
  | "." :: _ => "." :: inner
  | _ => inner

/-- Both paths take the same steps. -/
def sameAs (left right : Path) : Bool := left.components == right.components

end Path

/-- The files of a directory with their contents. -/
abbrev FileTable := List (Path × String)

/-- Of two files with the same path, the later one counts. -/
def FileTable.content? (files : FileTable) (path : Path) : Option String :=
  (files.reverse.find? fun file => file.1.sameAs path).map Prod.snd

end ScriptStrip
