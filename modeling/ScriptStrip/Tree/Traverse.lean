import ScriptStrip.Tree.Basic
/-
This file runs an action on each part of a node that is read when the node is evaluated, from
left to right.
-/

namespace ScriptStrip

variable {Action : Type → Type} [Monad Action]

/-- The target of an assignment is written and not read, so only its own parts are given to the
action. -/
def Expression.traverse (part : Expression → Action Expression)
    (function : FunctionDef → Action FunctionDef) : Expression → Action Expression
  | .array items span => return .array (← items.mapM part) span
  | .object members span => do
      let members ← members.mapM fun member => do
        return { member with value := ← part member.value }
      return .object members span
  | .function definition => return .function (← function definition)
  | .group inner span => return .group (← part inner) span
  | .property parent name span => return .property (← part parent) name span
  | .index parent key span => return .index (← part parent) (← part key) span
  | .call callee arguments span =>
      return .call (← part callee) (← arguments.mapM part) span
  | .unary operator operand span => return .unary operator (← part operand) span
  | .binary left operator right span =>
      return .binary (← part left) operator (← part right) span
  | .assign target value span =>
      return .assign (← target.traverse part function) (← part value) span
  | leaf => return leaf

/-- This traversal takes the action for blocks or the one for statements. -/
def Branch.traverse (block : Block → Action Block) (statement : Statement → Action Statement) :
    Branch → Action Branch
  | .braced inner => return .braced (← block inner)
  | .single inner => return .single (← statement inner)

/-- This traversal takes the actions on the immediate parts of a statement, from left to right. -/
def Statement.traverse (part : Expression → Action Expression)
    (function : FunctionDef → Action FunctionDef) (block : Block → Action Block)
    (statement : Statement → Action Statement) : Statement → Action Statement
  | .expression value span => return .expression (← part value) span
  | .declaration word items span => do
      let items ← items.mapM fun item => do
        return { item with value := ← item.value.mapM part }
      return .declaration word items span
  | .function definition => return .function (← function definition)
  | .conditional condition consequent alternate span =>
      return .conditional (← part condition) (← consequent.traverse block statement)
        (← alternate.mapM (Branch.traverse block statement)) span
  | .returning value span => return .returning (← value.mapM part) span
  | .block inner => return .block (← block inner)
  | .empty span => return .empty span

end ScriptStrip
