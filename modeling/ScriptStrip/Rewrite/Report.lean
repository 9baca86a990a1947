/-
This file defines what a rewriting pass reports about its work.
-/

namespace ScriptStrip

/-- How much of each kind a pass has changed. -/
structure Statistics where
  removed : Nat := 0
  folded : Nat := 0
  replaced : Nat := 0
deriving DecidableEq, Repr

namespace Statistics

/-- All rewrites of a pass are counted together. -/
def total (statistics : Statistics) : Nat :=
  statistics.removed + statistics.folded + statistics.replaced

/-- The statistics are told in one line. -/
def describe (statistics : Statistics) : String :=
  "removed " ++ toString statistics.removed ++ " calls, folded " ++ toString statistics.folded ++
    " asserts, replaced " ++ toString statistics.replaced ++ " mode properties"

end Statistics

/-- The steps of a build that are logged. -/
inductive Event where
  /-- A list of statements is about to be rewritten, inside of so many scopes. -/
  | visitingItems (depth count : Nat)
  | rewriting (shape : String)
  | rewroteScript (path : String) (statistics : Statistics)
deriving DecidableEq, Repr

/-- What a pass has done so far, with its events in order. -/
structure Report where
  statistics : Statistics := {}
  log : Array Event := #[]
deriving DecidableEq, Repr

/-- An event is put at the end of the log. -/
def Report.record (event : Event) (report : Report) : Report :=
  { report with log := report.log.push event }

end ScriptStrip
