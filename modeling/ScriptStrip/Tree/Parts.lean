import ScriptStrip.Tree.Node
/-
This file lists the nodes that a node is made of. A name, a key or a variable of a declaration is
no node of its own, and a branch counts as the block or the statement that it is.
-/

namespace ScriptStrip

/-- The node of a branch is its block or its statement. -/
def Branch.node : Branch → Node
  | braced block => .block block
  | single statement => .statement statement

namespace Node

/-- The nodes directly below the expression, in the order of the source. -/
def ofExpression : Expression → List Node
  | .array items _ => items.map .expression
  | .object members _ => members.map fun member => .expression member.value
  | .function definition => [.function definition]
  | .group inner _ => [.expression inner]
  | .property parent _ _ => [.expression parent]
  | .index parent key _ => [.expression parent, .expression key]
  | .call callee arguments _ => .expression callee :: arguments.map .expression
  | .unary _ operand _ => [.expression operand]
  | .binary left _ right _ => [.expression left, .expression right]
  | .assign target value _ => [.expression target, .expression value]
  | _ => []

/-- The nodes directly below the statement, in the order of the source. -/
def ofStatement : Statement → List Node
  | .expression value _ => [.expression value]
  | .declaration _ items _ => (items.filterMap Declarator.value).map .expression
  | .function definition => [.function definition]
  | .conditional condition consequent alternate _ =>
      .expression condition :: consequent.node :: (alternate.map Branch.node).toList
  | .returning value _ => (value.map expression).toList
  | .block inner => [.block inner]
  | .empty _ => []

/-- The nodes directly below the node, in the order of the source. -/
def parts : Node → List Node
  | script whole => whole.items.map .statement
  | statement part => ofStatement part
  | expression part => ofExpression part
  | block part => part.items.map .statement
  | branch part => [part.node]
  | function definition => [.block definition.body]

/-- The node is somewhere below the other one. -/
inductive IsBelow : Node → Node → Prop
  | part {inner whole : Node} (isPart : inner ∈ whole.parts) : IsBelow inner whole
  | deeper {inner middle whole : Node} (below : IsBelow inner middle) (isPart : middle ∈ whole.parts) :
      IsBelow inner whole

/-- The forms in which the text of the node can be read on its own. -/
def forms : Node → List Form
  | script _ => [.script]
  | statement (.declaration ..) => [.statement, .declaration]
  | statement (.conditional ..) => [.statement, .conditional]
  | statement _ => [.statement]
  | expression _ => [.expression]
  | block _ => [.block]
  | branch _ => [.branch]
  | function _ => [.function false]

end Node

end ScriptStrip
