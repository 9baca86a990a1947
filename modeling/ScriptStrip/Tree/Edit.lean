import ScriptStrip.Tree.Basic
/-
This file adds statements to a script and takes them out.
-/

namespace ScriptStrip

namespace Script

/-- The script with one more statement in front of the one at the position. The new statement
can also come last. -/
def insert? (script : Script) (position : Nat) (statement : Statement) : Option Script :=
  if position ≤ script.items.length then
    some { script with items := script.items.insertIdx position statement }
  else none

/-- The statement at the position, and the script without it. -/
def extract? (script : Script) (position : Nat) : Option (Statement × Script) :=
  script.items[position]?.map fun statement =>
    (statement, { script with items := script.items.eraseIdx position })

end Script

end ScriptStrip
