import ScriptStrip.Tree.Basic
/-
This file measures how deeply the nodes of a tree are nested.
-/

namespace ScriptStrip

mutual

/-- The number of expressions, statements and statement lists on the longest path downwards. -/
def Expression.height : Expression → Nat
  | .number .. | .string .. | .boolean .. | .null _ | .undefined _ | .reference .. => 1
  | .array items _ => Expression.heightList items + 1
  | .object members _ => Member.heightList members + 1
  | .function definition => definition.height + 1
  | .group inner _ => inner.height + 1
  | .property parent _ _ => parent.height + 1
  | .index parent key _ => max parent.height key.height + 1
  | .call callee arguments _ => max callee.height (Expression.heightList arguments) + 1
  | .unary _ operand _ => operand.height + 1
  | .binary left _ right _ => max left.height right.height + 1
  | .assign target value _ => max target.height value.height + 1

/-- The height of a list of expressions is that of its highest one. -/
def Expression.heightList : List Expression → Nat
  | [] => 0
  | first :: rest => max first.height (Expression.heightList rest)

/-- An absent expression has no height. -/
def Expression.heightOption : Option Expression → Nat
  | none => 0
  | some value => value.height

/-- The members of an object are as high as their values. -/
def Member.heightList : List Member → Nat
  | [] => 0
  | ⟨_, value, _⟩ :: rest => max value.height (Member.heightList rest)

/-- A function is as high as its body. -/
def FunctionDef.height : FunctionDef → Nat
  | ⟨_, _, body, _⟩ => body.height

/-- A block is one higher than its highest statement. -/
def Block.height : Block → Nat
  | ⟨items, _⟩ => Statement.heightList items + 1

/-- A statement is one higher than its highest part. -/
def Statement.height : Statement → Nat
  | .expression value _ => value.height + 1
  | .declaration _ items _ => Declarator.heightList items + 1
  | .function definition => definition.height + 1
  | .conditional condition consequent alternate _ =>
      max condition.height (max consequent.height (Branch.heightOption alternate)) + 1
  | .returning value _ => Expression.heightOption value + 1
  | .block inner => inner.height + 1
  | .empty _ => 1

/-- The height of a list of statements is that of its highest one. -/
def Statement.heightList : List Statement → Nat
  | [] => 0
  | first :: rest => max first.height (Statement.heightList rest)

/-- Declared names are as high as their initial values. -/
def Declarator.heightList : List Declarator → Nat
  | [] => 0
  | ⟨_, value, _⟩ :: rest => max (Expression.heightOption value) (Declarator.heightList rest)

/-- A branch is as high as the block or the statement in it. -/
def Branch.height : Branch → Nat
  | .braced block => block.height
  | .single statement => statement.height

/-- A missing branch has no height. -/
def Branch.heightOption : Option Branch → Nat
  | none => 0
  | some branch => branch.height

end

/-- A script is one higher than its highest statement. -/
def Script.height (script : Script) : Nat := Statement.heightList script.items + 1

end ScriptStrip
