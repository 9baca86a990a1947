import ScriptStrip.Parser.Grammar
import ScriptStrip.Tree.Print
import ScriptStrip.Tree.Same
import ScriptStrip.Visitor
/-
This file puts together what can be done with every part of a script that can stand alone.
-/

namespace ScriptStrip

/-- A node is a tree of any of the kinds that can be read on their own. -/
inductive Node where
  | script (script : Script)
  | statement (statement : Statement)
  | expression (expression : Expression)
  | block (block : Block)
  | branch (branch : Branch)
  | function (definition : FunctionDef)

/-- The forms of a node that a source text can be asked for. -/
inductive Node.Form where
  | script | statement | expression | block | branch | declaration | conditional
  | function (named : Bool)
deriving DecidableEq, Repr

namespace Node

/-- The reader of the nodes of a form. -/
def Form.parser : Form → Parser Node
  | script => .script <$> Parser.script
  | statement => .statement <$> Parser.statement
  | expression => .expression <$> Parser.expression
  | block => .block <$> Parser.block
  | branch => .branch <$> Parser.branch
  | declaration => .statement <$> Parser.declaration
  | conditional => .statement <$> Parser.conditional
  | function named => .function <$> Parser.functionDef named

/-- A text is read as a node of the given form. -/
def parse (form : Form) (source : String) : Except SyntaxError Node :=
  form.parser.readAll source

/-- A node stands where its tree stands. -/
def span : Node → Span
  | script whole => whole.span
  | statement part => part.span
  | expression part => part.span
  | block part => part.span
  | branch part => part.span
  | function definition => definition.span

/-- A node is printed as its tree is. -/
def pieces (style : Style) (depth : UInt8) : Node → List Piece
  | script whole => whole.pieces style depth
  | statement part => part.pieces style depth
  | expression part => part.pieces style depth
  | block part => part.pieces style depth
  | branch part => part.pieces style depth
  | function definition => definition.pieces style depth

/-- The text of a node inside as many blocks as `depth` says, which are counted in 8 bits. -/
def print (style : Style) (node : Node) (depth : Nat) : String :=
  Piece.render (node.pieces style (.ofNat depth))

/-- Two nodes are the same if they are of one kind and their trees are the same. -/
def same : Node → Node → Bool
  | script whole, script whole' => whole.same whole'
  | statement part, statement part' => part.same part'
  | expression part, expression part' => part.same part'
  | block part, block part' => part.same part'
  | branch part, branch part' => part.same part'
  | function definition, function definition' => definition.same definition'
  | _, _ => false

/-- A visitor is given to a node as to its tree. -/
def visit {State : Type} (visitor : Visitor State) : Node → StateM State Node
  | script whole => .script <$> visitor.script whole
  | statement part => .statement <$> visitor.statement part
  | expression part => .expression <$> visitor.expression part
  | block part => .block <$> visitor.block part
  | branch part => .branch <$> visitor.branch part
  | function definition => .function <$> visitor.functionDef definition

end Node

end ScriptStrip
