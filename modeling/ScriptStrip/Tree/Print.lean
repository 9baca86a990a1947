import ScriptStrip.Tree.Basic
import ScriptStrip.Tree.Piece
/-
This file prints trees. Parentheses are kept where the tree has them and added where it would
be read differently without them.
-/

namespace ScriptStrip

/-- A dot behind such a number would be read as a decimal point. -/
def Expression.isBareInteger : Expression → Bool
  | .number digits _ => !digits.toList.any fun digit => ['.', 'e', 'E', 'x', 'X'].contains digit
  | _ => false

/-- These operators must not touch a sign in front of them. -/
def Expression.isSigned : Expression → Bool
  | .unary .negate _ _ | .unary .plus _ _ => true
  | _ => false

/-- A second sign of the same kind has to be kept apart from the first one. -/
def Expression.hasSign (operator : UnaryOperator) : Expression → Bool
  | .unary .negate _ _ => operator == .negate
  | .unary .plus _ _ => operator == .plus
  | _ => false

/-- At the start of a statement, the expression would be read as a block or as the declaration
of a function. An expression that binds looser than its parent gets parentheses anyway. -/
def Expression.isAmbiguousAtStart : Expression → Bool
  | .object .. | .function .. => true
  | .property first _ _ | .index first _ _ | .call first _ _ =>
      Precedence.member ≤ first.precedence && first.isAmbiguousAtStart
  | .binary first operator _ _ =>
      operator.precedence ≤ first.precedence && first.isAmbiguousAtStart
  | .assign first _ _ => Precedence.assignment ≤ first.precedence && first.isAmbiguousAtStart
  | _ => false

/-- Parentheses around an expression that binds looser than its place asks for. -/
def Expression.placed (expression : Expression) (minimum : Precedence) (pieces : List Piece) :
    List Piece :=
  Piece.groupedIf (expression.precedence < minimum) pieces

/-- A key is printed as one token. -/
def PropertyKey.piece : PropertyKey → Piece
  | identifier name _ => .token (.ofWord name)
  | string content quote _ => .token (.string content quote)
  | number digits _ => .token (.number digits)

/-- A semicolon closes the statements that need one. -/
def Statement.terminator (statement : Statement) : List Piece :=
  if statement.needsSemicolon then [.ofMark .semicolon] else []

/-- Items between two marks, with commas between them. -/
def Style.listed (style : Style) (opening closing : Punctuator) (items : List (List Piece)) :
    List Piece :=
  Piece.enclosed opening closing (style.comma.intercalate items)

mutual

/-- The pieces of an expression are its tokens, with parentheses only where its parts need them.
-/
def Expression.pieces (style : Style) (depth : UInt8) : Expression → List Piece
  | .number digits _ => [.token (.number digits)]
  | .string content quote _ => [.token (.string content quote)]
  | .boolean true _ => [.ofKeyword .trueKw]
  | .boolean false _ => [.ofKeyword .falseKw]
  | .null _ => [.ofKeyword .nullKw]
  | .undefined _ => [.ofKeyword .voidKw, .space, .token (.number "0")]
  | .array items _ =>
      style.listed .openBracket .closeBracket (Expression.itemPieces style depth items)
  | .object [] _ => [.ofMark .openBrace, .ofMark .closeBrace]
  | .object members _ =>
      Piece.enclosed .openBrace .closeBrace
        (style.gap ++ style.comma.intercalate (Member.allPieces style depth members) ++ style.gap)
  | .function definition => definition.pieces style depth
  | .group inner _ => Piece.groupedIf true (inner.pieces style depth)
  | .reference name _ => [.token (.ofWord name)]
  | .property parent name _ =>
      Piece.groupedIf (parent.isBareInteger || parent.precedence < Precedence.member)
        (parent.pieces style depth) ++ [.ofMark .dot, .token (.ofWord name)]
  | .index parent key _ =>
      parent.placed .member (parent.pieces style depth) ++
        Piece.enclosed .openBracket .closeBracket (key.pieces style depth)
  | .call callee arguments _ =>
      callee.placed .member (callee.pieces style depth) ++
        style.listed .openParenthesis .closeParenthesis
          (Expression.itemPieces style depth arguments)
  | .unary operator operand _ =>
      .token operator.lexeme ::
        (if operator.isWord || operand.hasSign operator then [.space] else []) ++
        operand.placed .unary (operand.pieces style depth)
  | .binary left operator right _ =>
      left.placed operator.precedence (left.pieces style depth) ++
        style.gap ++ [.token operator.lexeme] ++
        (if style.pretty || right.isSigned then [.space] else []) ++
        right.placed (operator.precedence + 1) (right.pieces style depth)
  | .assign target value _ =>
      target.placed .member (target.pieces style depth) ++
        style.gap ++ [.ofMark .assign] ++ style.gap ++
        value.placed .assignment (value.pieces style depth)

/-- The items of an array or the arguments of a call. -/
def Expression.itemPieces (style : Style) (depth : UInt8) : List Expression → List (List Piece)
  | [] => []
  | first :: rest =>
      first.placed .assignment (first.pieces style depth) ::
        Expression.itemPieces style depth rest

/-- A member is printed as its key, a colon and its value. -/
def Member.pieces (style : Style) (depth : UInt8) : Member → List Piece
  | ⟨key, value, _⟩ =>
      [key.piece, .ofMark .colon] ++ style.gap ++
        value.placed .assignment (value.pieces style depth)

/-- Each member of an object is printed on its own. -/
def Member.allPieces (style : Style) (depth : UInt8) : List Member → List (List Piece)
  | [] => []
  | first :: rest => first.pieces style depth :: Member.allPieces style depth rest

/-- A function is printed as its keyword, its name, its parameters and its body. -/
def FunctionDef.pieces (style : Style) (depth : UInt8) : FunctionDef → List Piece
  | ⟨name, parameters, body, _⟩ =>
      .ofKeyword .functionKw ::
        (match name with
          | some name => [.space, .token (.ofWord name)]
          | none => []) ++
        style.listed .openParenthesis .closeParenthesis
          (parameters.map fun parameter => [.token (.ofWord parameter)]) ++
        style.gap ++ body.pieces style depth

/-- A block is printed with its statements one level deeper, and the depth wraps as it is counted
in a byte. -/
def Block.pieces (style : Style) (depth : UInt8) : Block → List Piece
  | ⟨[], _⟩ => [.ofMark .openBrace, .ofMark .closeBrace]
  | ⟨items, _⟩ =>
      Piece.enclosed .openBrace .closeBrace
        (style.lineBreak ++
          style.lineBreak.intercalate (Statement.lines style (depth + 1) items) ++
          style.lineBreak ++ style.indentation depth)

/-- A statement is printed without the semicolon behind it. -/
def Statement.pieces (style : Style) (depth : UInt8) : Statement → List Piece
  | .expression value _ =>
      Piece.groupedIf value.isAmbiguousAtStart (value.pieces style depth)
  | .declaration word items _ =>
      [.ofKeyword word.keyword, .space] ++
        style.comma.intercalate (Declarator.allPieces style depth items)
  | .function definition => definition.pieces style depth
  | .conditional condition consequent alternate _ =>
      .ofKeyword .ifKw :: style.gap ++
        Piece.groupedIf true (condition.pieces style depth) ++ style.gap ++
        consequent.pieces style depth ++ Branch.alternatePieces style depth alternate
  | .returning none _ => [.ofKeyword .returnKw]
  | .returning (some value) _ =>
      [.ofKeyword .returnKw, .space] ++ value.pieces style depth
  | .block inner => inner.pieces style depth
  | .empty _ => [.ofMark .semicolon]

/-- Each statement of a list with its indentation and its semicolon. -/
def Statement.lines (style : Style) (depth : UInt8) : List Statement → List (List Piece)
  | [] => []
  | first :: rest =>
      (style.indentation depth ++ first.pieces style depth ++ first.terminator) ::
        Statement.lines style depth rest

/-- A declared name is printed with its initial value, if it has one. -/
def Declarator.pieces (style : Style) (depth : UInt8) : Declarator → List Piece
  | ⟨name, none, _⟩ => [.token (.ofWord name)]
  | ⟨name, some value, _⟩ =>
      .token (.ofWord name) :: style.gap ++ [.ofMark .assign] ++ style.gap ++
        value.placed .assignment (value.pieces style depth)

/-- Each declared name is printed on its own. -/
def Declarator.allPieces (style : Style) (depth : UInt8) : List Declarator → List (List Piece)
  | [] => []
  | first :: rest => first.pieces style depth :: Declarator.allPieces style depth rest

/-- A branch is printed as its block, or as a statement with its semicolon. -/
def Branch.pieces (style : Style) (depth : UInt8) : Branch → List Piece
  | .braced block => block.pieces style depth
  | .single statement => statement.pieces style depth ++ statement.terminator

/-- A single statement has to be kept apart from the word before it. -/
def Branch.alternatePieces (style : Style) (depth : UInt8) : Option Branch → List Piece
  | none => []
  | some (.braced block) =>
      style.gap ++ [.ofKeyword .elseKw] ++ style.gap ++ block.pieces style depth
  | some (.single statement) =>
      style.gap ++ [.ofKeyword .elseKw, .space] ++ statement.pieces style depth ++
        statement.terminator

end

/-- The statements of a script, each on a line of its own. -/
def Script.pieces (style : Style) (depth : UInt8) (script : Script) : List Piece :=
  style.lineBreak.intercalate (Statement.lines style depth script.items)

/-- The text of an expression starts without indentation. -/
def Expression.print (style : Style) (expression : Expression) : String :=
  Piece.render (expression.pieces style 0)

/-- The text of a statement starts without indentation. -/
def Statement.print (style : Style) (statement : Statement) : String :=
  Piece.render (statement.pieces style 0)

/-- The text of a script starts without indentation. -/
def Script.print (style : Style) (script : Script) : String :=
  Piece.render (script.pieces style 0)

end ScriptStrip
