import ScriptStrip.Parser.Basic
/-
This file reads trees from tokens. Each reader takes the readers of the parts that lie one level
below it, and by the time it calls one of them it has read a token of its own.
-/

namespace ScriptStrip

/-- The parts of the grammar that can contain themselves, for trees of a number of levels. -/
structure Grammar where
  levels : Nat
  expression : Parser Expression
  unary : Parser Expression
  statement : Parser Statement

namespace Grammar
open ScriptStrip.Parser

/-- A member of an object is a key, a colon and a value. -/
def member (below : Grammar) : Parser Member := do
  let key ← propertyKey
  let _ ← expect (.punctuator .colon)
  let value ← below.expression
  return ⟨key, value, key.span.union value.span⟩

/-- Statements up to a closing brace or the end of the source, which stay in front. -/
def statements (statement : Parser Statement) : Nat → Parser (List Statement)
  | 0 => tooDeep
  | levels + 1 => do
      let token ← peek
      if token.lexeme = .punctuator .closeBrace ∨ token.lexeme = .endOfSource then return []
      else
        let first ← statement
        if first.needsSemicolon then semicolon
        return first :: (← statements statement levels)

/-- A block is a list of statements between braces. -/
def block (below : Grammar) : Parser Block := do
  let start ← expect (.punctuator .openBrace)
  let items ← statements below.statement below.levels
  let stop ← expect (.punctuator .closeBrace)
  return ⟨items, start.union stop⟩

/-- A function that stands as a statement has to have a name. -/
def functionDef (below : Grammar) (named : Bool) : Parser FunctionDef := do
  let start ← expect (.keyword .functionKw)
  let name ← match named, (← peek).lexeme with
    | true, _ | _, .identifier _ => some <$> Prod.fst <$> identifier "function name"
    | false, _ => pure none
  let _ ← expect (.punctuator .openParenthesis)
  let (parameters, _) ← itemsUntil .closeParenthesis
    (Prod.fst <$> identifier "function parameter") below.levels
  let body ← block below
  return ⟨name, parameters, body, start.union body.span⟩

/-- The tightest expressions are functions, literals, names, lists, objects and groups. -/
def primary (below : Grammar) : Parser Expression := do
  if (← peek).lexeme = .keyword .functionKw then return .function (← functionDef below false)
  else
    let token ← next
    match token.lexeme with
    | .number digits => return .number digits token.span
    | .string content quote => return .string content quote token.span
    | .keyword .trueKw => return .boolean true token.span
    | .keyword .falseKw => return .boolean false token.span
    | .keyword .nullKw => return .null token.span
    | .identifier name => return .reference name token.span
    | .punctuator .openParenthesis =>
        let inner ← below.expression
        let stop ← expect (.punctuator .closeParenthesis)
        return .group inner (token.span.union stop)
    | .punctuator .openBracket =>
        let (items, stop) ← itemsUntil .closeBracket below.expression below.levels
        return .array items (token.span.union stop)
    | .punctuator .openBrace =>
        let (members, stop) ← itemsUntil .closeBrace below.member below.levels
        return .object members (token.span.union stop)
    | _ => refuse token .expectedExpression

/-- The accesses and calls that follow an expression. -/
def accesses (below : Grammar) : Nat → Expression → Parser Expression
  | 0, _ => tooDeep
  | levels + 1, head => do
      match (← peek).lexeme with
      | .punctuator .dot =>
          let _ ← next
          let (name, stop) ← propertyName
          accesses below levels (.property head name (head.span.union stop))
      | .punctuator .openBracket =>
          let _ ← next
          let key ← below.expression
          let stop ← expect (.punctuator .closeBracket)
          accesses below levels (.index head key (head.span.union stop))
      | .punctuator .openParenthesis =>
          let _ ← next
          let (arguments, stop) ← itemsUntil .closeParenthesis below.expression below.levels
          accesses below levels (.call head arguments (head.span.union stop))
      | _ => return head

/-- Calls and properties follow a primary expression. -/
def access (below : Grammar) : Parser Expression := do
  let head ← primary below
  accesses below below.levels head

/-- The operation on an operand. The operator `void` on a bare zero gives the undefined value. -/
def unaryOf (operator : UnaryOperator) (operand : Expression) (span : Span) : Expression :=
  match operator, operand with
  | .void, .number "0" _ => .undefined span
  | operator, operand => .unary operator operand span

/-- A unary operator stands in front of another unary expression. -/
def unaryExpression (below : Grammar) : Parser Expression := do
  match UnaryOperator.ofLexeme? (← peek).lexeme with
  | none => access below
  | some operator =>
      let start ← next
      let operand ← below.unary
      return unaryOf operator operand (start.span.union operand.span)

/-- The operations on `left` by operators that bind at least as tightly as `minimum`. -/
def operations (below : Grammar) : Nat → Precedence → Expression → Parser Expression
  | 0, _, _ => tooDeep
  | levels + 1, minimum, left => do
      match BinaryOperator.ofLexeme? (← peek).lexeme with
      | none => return left
      | some operator =>
          if operator.precedence < minimum then return left
          else
            let _ ← next
            let operand ← unaryExpression below
            let right ← operations below levels (operator.precedence + 1) operand
            operations below levels minimum
              (.binary left operator right (left.span.union right.span))

/-- Binary operators of at least this precedence follow a unary expression. -/
def binaryExpression (below : Grammar) (minimum : Precedence) : Parser Expression := do
  let left ← unaryExpression below
  operations below below.levels minimum left

/-- Only variables and properties can be assigned to. -/
def isTarget : Expression → Bool
  | .reference .. | .property .. | .index .. => true
  | _ => false

/-- An assignment needs a target on its left and takes an assignment on its right. -/
def assignment (below : Grammar) : Parser Expression := do
  let target ← binaryExpression below .logicalOr
  if (← peek).lexeme = .punctuator .assign then
    let mark ← next
    if isTarget target then
      let value ← below.expression
      return .assign target value (target.span.union value.span)
    else refuse mark fun _ => .invalidAssignmentTarget
  else return target

/-- An expression is read at the precedence that its place asks for. -/
def expressionAt (below : Grammar) (minimum : Precedence) : Parser Expression :=
  if minimum ≤ .assignment then assignment below else binaryExpression below minimum

/-- Declared names are separated by commas and may have an initial value. -/
def declarators (below : Grammar) : Nat → Parser (List Declarator)
  | 0 => tooDeep
  | levels + 1 => do
      let (name, nameSpan) ← identifier "variable declaration"
      let value ← match ← accept? (.punctuator .assign) with
        | some _ => some <$> below.expression
        | none => pure none
      let span := match value with
        | some value => nameSpan.union value.span
        | none => nameSpan
      if (← accept? (.punctuator .comma)).isSome then
        return ⟨name, value, span⟩ :: (← declarators below levels)
      else return [⟨name, value, span⟩]

/-- A declaration is its keyword and the declared names. -/
def declaration (below : Grammar) : Parser Statement := do
  let token ← next
  match DeclarationWord.ofLexeme? token.lexeme with
  | none => refuse token (.expectedLexeme (.keyword .varKw))
  | some word =>
      let items ← declarators below below.levels
      let span := match items.getLast? with
        | some last => token.span.union last.span
        | none => token.span
      return .declaration word items span

/-- A branch is a block, or one statement with its own semicolon. -/
def branch (statement : Parser Statement) : Parser Branch := do
  match ← statement with
  | .block inner => return .braced inner
  | single =>
      if single.needsSemicolon then semicolon
      return .single single

/-- A conditional has a condition in parentheses, a branch, and perhaps a second branch. -/
def conditional (below : Grammar) : Parser Statement := do
  let start ← expect (.keyword .ifKw)
  let _ ← expect (.punctuator .openParenthesis)
  let condition ← below.expression
  let _ ← expect (.punctuator .closeParenthesis)
  let consequent ← branch below.statement
  if (← accept? (.keyword .elseKw)).isSome then
    let alternate ← branch below.statement
    return .conditional condition consequent (some alternate) (start.union alternate.span)
  else return .conditional condition consequent none (start.union consequent.span)

/-- The value of a `return` starts on the line of the word. -/
def returning (below : Grammar) : Parser Statement := do
  let start ← next
  let token ← peek
  if token.afterLineBreak ∨ token.lexeme = .punctuator .semicolon ∨
      token.lexeme = .punctuator .closeBrace ∨ token.lexeme = .endOfSource then
    return .returning none start.span
  else
    let value ← below.expression
    return .returning (some value) (start.span.union value.span)

/-- The first token of a statement tells which kind it is. -/
def anyStatement (below : Grammar) : Parser Statement := do
  match (← peek).lexeme with
  | .keyword .varKw | .keyword .letKw | .keyword .constKw => declaration below
  | .keyword .functionKw => return .function (← functionDef below true)
  | .keyword .ifKw => conditional below
  | .keyword .returnKw => returning below
  | .punctuator .openBrace => return .block (← block below)
  | .punctuator .semicolon => return .empty (← next).span
  | _ =>
      let value ← assignment below
      return .expression value value.span

/-- The grammar of trees with at most the given number of levels. -/
def within : Nat → Grammar
  | 0 => ⟨0, tooDeep, tooDeep, tooDeep⟩
  | levels + 1 =>
      let below := within levels
      ⟨levels + 1, assignment below, unaryExpression below, anyStatement below⟩

/-- Runs a reader above a grammar with one level for each token ahead. -/
def reader {Value : Type} (part : Grammar → Parser Value) : Parser Value := do
  part (within ((← get).size + 1))

end Grammar

namespace Parser

/-- An expression is read with as many levels as there are tokens. -/
def expression : Parser Expression := Grammar.reader Grammar.assignment

/-- An expression whose operators bind at least as tightly as `minimum`. -/
def expressionAt (minimum : Precedence) : Parser Expression :=
  Grammar.reader (Grammar.expressionAt · minimum)

/-- A statement is read with as many levels as there are tokens. -/
def statement : Parser Statement := Grammar.reader Grammar.anyStatement

/-- A block is read with as many levels as there are tokens. -/
def block : Parser Block := Grammar.reader Grammar.block

/-- A branch is read with as many levels as there are tokens. -/
def branch : Parser Branch := Grammar.branch statement

/-- A function is read with as many levels as there are tokens. -/
def functionDef (named : Bool) : Parser FunctionDef :=
  Grammar.reader (Grammar.functionDef · named)

/-- A declaration is read with as many levels as there are tokens. -/
def declaration : Parser Statement := Grammar.reader Grammar.declaration

/-- A conditional is read with as many levels as there are tokens. -/
def conditional : Parser Statement := Grammar.reader Grammar.conditional

/-- A script covers its source text from the first byte, whatever stands there. -/
def script : Parser Script := do
  let items ← Grammar.reader fun below =>
    Grammar.statements (Grammar.anyStatement below) below.levels
  finish
  return ⟨items, ⟨0, (← peek).span.stop⟩⟩

end Parser

/-- A whole text is read as one expression. -/
def Expression.parse (source : String) : Except SyntaxError Expression :=
  Parser.expression.readAll source

/-- A whole text is read as one statement. -/
def Statement.parse (source : String) : Except SyntaxError Statement :=
  Parser.statement.readAll source

/-- A whole text is read as a script. -/
def Script.parse (source : String) : Except SyntaxError Script := Parser.script.readAll source

end ScriptStrip
