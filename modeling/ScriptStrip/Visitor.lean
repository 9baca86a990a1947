import ScriptStrip.Tree.Height
import ScriptStrip.Tree.Traverse
/-
This file walks through a tree from the top down and lets a visitor replace what it meets.
-/

namespace ScriptStrip

/-- A part of a script that statements lie in. -/
inductive Scope where
  | script
  | function (span : Span)
  | block (span : Span)
deriving DecidableEq, Repr

/-- The scopes around a node, from the outermost to the innermost. -/
abbrev ScopeChain := List Scope

namespace ScopeChain

/-- The number of functions around a node. -/
def functionDepth (chain : ScopeChain) : Nat :=
  chain.countP fun scope => match scope with
    | .function _ => true
    | _ => false

end ScopeChain

/-- A visitor is given each node before the parts of it, and the parts of what it returns are
visited next. A list of statements is given as a whole before each of them is. -/
structure Visitor (State : Type) where
  onExpression : ScopeChain → Expression → StateM State Expression := fun _ expression =>
    return expression
  onStatement : ScopeChain → Statement → StateM State Statement := fun _ statement =>
    return statement
  onItems : ScopeChain → Span → List Statement → StateM State (List Statement) :=
    fun _ _ items => return items
  /-- How many levels of nesting the visitor may add to a tree. Deeper nodes are not visited. -/
  headroom : Nat := 0

namespace Visitor

variable {State : Type}

/-- This visitor gives each node to the first visitor and the result to the second one. -/
def andThen (first second : Visitor State) : Visitor State where
  onExpression chain expression := do
    second.onExpression chain (← first.onExpression chain expression)
  onStatement chain statement := do
    second.onStatement chain (← first.onStatement chain statement)
  onItems chain span items := do
    second.onItems chain span (← first.onItems chain span items)
  headroom := first.headroom + second.headroom

/-- The visitors one after the other. -/
def all (visitors : List (Visitor State)) : Visitor State := visitors.foldl andThen {}

mutual

/-- Visits the nodes of an expression down to the given number of levels. -/
def expressionWithin (visitor : Visitor State) :
    Nat → ScopeChain → Expression → StateM State Expression
  | 0, _, expression => return expression
  | levels + 1, chain, expression => do
      let expression ← visitor.onExpression chain expression
      expression.traverse (visitor.expressionWithin levels chain) fun definition => do
        let items ← visitor.itemsWithin levels (chain ++ [.function definition.span])
          definition.body.span definition.body.items
        return { definition with body := { definition.body with items } }

/-- A statement is given to the visitor first, then its parts on the next level. -/
def statementWithin (visitor : Visitor State) :
    Nat → ScopeChain → Statement → StateM State Statement
  | 0, _, statement => return statement
  | levels + 1, chain, statement => do
      let statement ← visitor.onStatement chain statement
      statement.traverse (visitor.expressionWithin levels chain)
        (fun definition => do
          let items ← visitor.itemsWithin levels (chain ++ [.function definition.span])
            definition.body.span definition.body.items
          return { definition with body := { definition.body with items } })
        (fun block => do
          let items ← visitor.itemsWithin levels (chain ++ [.block block.span]) block.span
            block.items
          return { block with items })
        (visitor.statementWithin levels chain)

/-- A list is given to the visitor first, then each statement that is left in it. -/
def itemsWithin (visitor : Visitor State) :
    Nat → ScopeChain → Span → List Statement → StateM State (List Statement)
  | 0, _, _, items => return items
  | levels + 1, chain, span, items => do
      let items ← visitor.onItems chain span items
      items.mapM (visitor.statementWithin levels chain)

end

/-- An expression is walked with levels for its height and for what the visitor may put in. -/
def expression (visitor : Visitor State) (expression : Expression) : StateM State Expression :=
  visitor.expressionWithin (expression.height + visitor.headroom) [] expression

/-- A statement is walked with levels for its height and for what the visitor may put in. -/
def statement (visitor : Visitor State) (statement : Statement) : StateM State Statement :=
  visitor.statementWithin (statement.height + visitor.headroom) [] statement

/-- The body of a function is no scope apart from the function. -/
def functionDef (visitor : Visitor State) (definition : FunctionDef) :
    StateM State FunctionDef := do
  let items ← visitor.itemsWithin (definition.height + visitor.headroom)
    [.function definition.span] definition.body.span definition.body.items
  return { definition with body := { definition.body with items } }

/-- The statements of a block are walked inside the scope of the block. -/
def block (visitor : Visitor State) (block : Block) : StateM State Block := do
  let items ← visitor.itemsWithin (block.height + visitor.headroom) [.block block.span]
    block.span block.items
  return { block with items }

/-- A branch is walked as its block or as its statement. -/
def branch (visitor : Visitor State) (branch : Branch) : StateM State Branch :=
  branch.traverse visitor.block visitor.statement

/-- The statements of a script are walked inside its scope. -/
def script (visitor : Visitor State) (script : Script) : StateM State Script := do
  let items ← visitor.itemsWithin (script.height + visitor.headroom) [.script] script.span
    script.items
  return { script with items }

end Visitor

end ScriptStrip
