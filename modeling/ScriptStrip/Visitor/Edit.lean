import ScriptStrip.Visitor
/-
This file defines visitors that make one simple change wherever it applies.
-/

namespace ScriptStrip.Visitor

variable {State : Type}

/-- The change must not make an expression any deeper. -/
def mapExpressions (change : Expression → Expression) : Visitor State where
  onExpression _ expression := return change expression

/-- Puts the replacement in the place of each expression that satisfies the condition. -/
def replaceExpressions (condition : Expression → Bool) (replacement : Expression) :
    Visitor State where
  onExpression _ expression := return if condition expression then replacement else expression
  headroom := replacement.height

/-- This visitor puts one statement in place of all that meet a condition. -/
def replaceStatements (condition : Statement → Bool) (replacement : Statement) :
    Visitor State where
  onStatement _ statement := return if condition statement then replacement else statement
  headroom := replacement.height

/-- Keeps the statements of each list that satisfy the condition. -/
def filterItems (condition : Statement → Bool) : Visitor State where
  onItems _ _ items := return items.filter condition

/-- This visitor turns every list of statements around. -/
def reverseItems : Visitor State where
  onItems _ _ items := return items.reverse

/-- Adds the statement at the end of each list. -/
def appendItem (statement : Statement) : Visitor State where
  onItems _ _ items := return items ++ [statement]
  headroom := statement.height

/-- Runs an action on each expression and leaves it as it is. -/
def watchExpressions (action : ScopeChain → Expression → StateM State Unit) : Visitor State where
  onExpression chain expression := do
    action chain expression
    return expression

/-- This visitor takes an action on each statement and changes none. -/
def watchStatements (action : ScopeChain → Statement → StateM State Unit) : Visitor State where
  onStatement chain statement := do
    action chain statement
    return statement

/-- This visitor takes an action on each list of statements and changes none. -/
def watchItems (action : ScopeChain → Span → List Statement → StateM State Unit) :
    Visitor State where
  onItems chain span items := do
    action chain span items
    return items

end ScriptStrip.Visitor
