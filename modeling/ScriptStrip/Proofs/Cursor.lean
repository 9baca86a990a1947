import ScriptStrip.Tree.Node
/-
This file defines readers that keep all tokens of a source text and move an index over them. A
reader that calls others too deep or goes round too often has no outcome, so it takes a proof that
it has one.
-/

namespace ScriptStrip

/-- All tokens of a source text and the index of the one that is read next. -/
@[ext]
structure Cursor where
  tokens : List Token
  head : Nat
deriving DecidableEq, Repr

namespace Cursor

/-- The last of the tokens has to be the end of the source, which may also stand before it. -/
def ofTokens? (tokens : List Token) : Option Cursor :=
  match tokens.getLast? with
  | some token => if token.lexeme = .endOfSource then some ⟨tokens, 0⟩ else none
  | none => none

/-- Why a reader stops. -/
inductive Stop where
  | refused (error : SyntaxError)
  /-- The index is not one of a token. -/
  | outside
deriving DecidableEq, Repr

/-- A reader without an outcome has not come to its end. One that stops leaves the cursor where it
stood when the error was found. -/
abbrev Reader := ExceptT Stop (StateT Cursor Option)

namespace Reader

/-- What the reader comes to and where it leaves the cursor, if it comes to its end. -/
def outcome {Value : Type} (reader : Reader Value) (cursor : Cursor) :
    Option (Except Stop Value × Cursor) :=
  reader.run.run cursor

/-- The token at the index is looked at, if there is one. -/
def peek : Reader Token := do
  let cursor ← get
  cursor.tokens[cursor.head]?.getDM (throw .outside)

/-- The end of the source is never passed. -/
def next : Reader Token := do
  let token ← peek
  if token.lexeme ≠ .endOfSource then modify fun cursor => { cursor with head := cursor.head + 1 }
  return token

/-- The error lies at the given token. -/
def refuse {Value : Type} (token : Token) (cause : Lexeme → SyntaxError.Cause) : Reader Value :=
  throw (.refused ⟨cause token.lexeme, token.span⟩)

/-- A token is taken if it is the wanted one. -/
def accept? (wanted : Lexeme) : Reader (Option Span) := do
  if (← peek).lexeme = wanted then return some (← next).span
  else return none

/-- A token is taken and refused if it is another one than wanted. -/
def expect (wanted : Lexeme) : Reader Span := do
  let token ← next
  if token.lexeme = wanted then return token.span
  else refuse token (.expectedLexeme wanted)

/-- This reader takes a name. -/
def identifier (place : String) : Reader (String × Span) := do
  let token ← next
  match token.lexeme with
  | .identifier name => return (name, token.span)
  | _ => refuse token (.expectedIdentifier place)

/-- The name of a property may be any word. -/
def propertyName : Reader (String × Span) := do
  let token ← next
  match token.lexeme with
  | .identifier name => return (name, token.span)
  | .keyword word => return (word.text, token.span)
  | _ => refuse token (.expectedIdentifier "property access")

/-- A key is a name, any keyword, a string or a number. -/
def propertyKey : Reader PropertyKey := do
  let token ← next
  match token.lexeme with
  | .identifier name => return .identifier name token.span
  | .keyword word => return .identifier word.text token.span
  | .string content quote => return .string content quote token.span
  | .number digits => return .number digits token.span
  | _ => refuse token .expectedPropertyKey

/-- The end of the source is looked at and not taken. -/
def finish : Reader Unit := do
  let token ← peek
  unless token.lexeme = .endOfSource do refuse token .expectedEnd

/-- A semicolon may be missing where a line, a block or the source ends. -/
def semicolon : Reader Unit := do
  if (← accept? (.punctuator .semicolon)).isNone then
    let token ← peek
    unless token.afterLineBreak ∨ token.lexeme = .punctuator .closeBrace ∨
        token.lexeme = .endOfSource do
      refuse token .expectedSemicolon

/-- The reader needs more levels than it has been given. -/
def unfinished {Value : Type} : Reader Value := ExceptT.mk fun _ => none

/-- Items with commas between them, up to the closing mark, in at most so many rounds. -/
def itemsUntil {Item : Type} (close : Punctuator) (item : Reader Item) :
    Nat → Reader (List Item × Span)
  | 0 => unfinished
  | levels + 1 => do
      match ← accept? (.punctuator close) with
      | some span => return ([], span)
      | none =>
          let first ← item
          if (← accept? (.punctuator .comma)).isSome then
            let (rest, span) ← itemsUntil close item levels
            return (first :: rest, span)
          else return ([first], ← expect (.punctuator close))

end Reader

/-- The readers of the parts that can contain themselves, for calls of a number of levels. -/
structure Readers where
  levels : Nat
  expression : Reader Expression
  unary : Reader Expression
  statement : Reader Statement

namespace Readers
open ScriptStrip.Cursor.Reader

/-- A member of an object is a key, a colon and a value. -/
def member (below : Readers) : Reader Member := do
  let key ← propertyKey
  let _ ← expect (.punctuator .colon)
  let value ← below.expression
  return ⟨key, value, key.span.union value.span⟩

/-- Statements are read until a brace or the end. -/
def statements (statement : Reader Statement) : Nat → Reader (List Statement)
  | 0 => unfinished
  | levels + 1 => do
      let token ← peek
      if token.lexeme = .punctuator .closeBrace ∨ token.lexeme = .endOfSource then return []
      else
        let first ← statement
        if first.needsSemicolon then semicolon
        return first :: (← statements statement levels)

/-- A block is a list of statements between braces. -/
def block (below : Readers) : Reader Block := do
  let start ← expect (.punctuator .openBrace)
  let items ← statements below.statement below.levels
  let stop ← expect (.punctuator .closeBrace)
  return ⟨items, start.union stop⟩

/-- What follows the name of a function. -/
def functionTail (below : Readers) (start : Span) (name : Option String) : Reader FunctionDef := do
  let _ ← expect (.punctuator .openParenthesis)
  let (parameters, _) ← itemsUntil .closeParenthesis
    (Prod.fst <$> identifier "function parameter") below.levels
  let body ← block below
  return ⟨name, parameters, body, start.union body.span⟩

/-- A function has a name, or may have one. -/
def functionDef (below : Readers) (named : Bool) : Reader FunctionDef := do
  let start ← expect (.keyword .functionKw)
  let name ← match named, (← peek).lexeme with
    | true, _ | _, .identifier _ => some <$> Prod.fst <$> identifier "function name"
    | false, _ => pure none
  functionTail below start name

/-- The tightest expressions are functions, literals, names, lists, objects and groups. -/
def primary (below : Readers) : Reader Expression := do
  if (← peek).lexeme = .keyword .functionKw then return .function (← functionDef below false)
  else
    let token ← next
    match token.lexeme with
    | .number digits => return .number digits token.span
    | .string content quote => return .string content quote token.span
    | .keyword .trueKw => return .boolean true token.span
    | .keyword .falseKw => return .boolean false token.span
    | .keyword .nullKw => return .null token.span
    | .identifier name => return .reference name token.span
    | .punctuator .openParenthesis =>
        let inner ← below.expression
        let stop ← expect (.punctuator .closeParenthesis)
        return .group inner (token.span.union stop)
    | .punctuator .openBracket =>
        let (items, stop) ← itemsUntil .closeBracket below.expression below.levels
        return .array items (token.span.union stop)
    | .punctuator .openBrace =>
        let (members, stop) ← itemsUntil .closeBrace below.member below.levels
        return .object members (token.span.union stop)
    | _ => refuse token .expectedExpression

/-- Calls and properties follow one another. -/
def accesses (below : Readers) : Nat → Expression → Reader Expression
  | 0, _ => unfinished
  | levels + 1, head => do
      match (← peek).lexeme with
      | .punctuator .dot =>
          let _ ← next
          let (name, stop) ← propertyName
          accesses below levels (.property head name (head.span.union stop))
      | .punctuator .openBracket =>
          let _ ← next
          let key ← below.expression
          let stop ← expect (.punctuator .closeBracket)
          accesses below levels (.index head key (head.span.union stop))
      | .punctuator .openParenthesis =>
          let _ ← next
          let (arguments, stop) ← itemsUntil .closeParenthesis below.expression below.levels
          accesses below levels (.call head arguments (head.span.union stop))
      | _ => return head

/-- A unary operator stands in front of another unary expression. -/
def unaryExpression (below : Readers) : Reader Expression := do
  match UnaryOperator.ofLexeme? (← peek).lexeme with
  | none => accesses below below.levels (← primary below)
  | some operator =>
      let start ← next
      let operand ← below.unary
      return Grammar.unaryOf operator operand (start.span.union operand.span)

/-- The operations on `left` by operators that bind at least as tightly as `minimum`. -/
def operations (below : Readers) : Nat → Precedence → Expression → Reader Expression
  | 0, _, _ => unfinished
  | levels + 1, minimum, left => do
      match BinaryOperator.ofLexeme? (← peek).lexeme with
      | none => return left
      | some operator =>
          if operator.precedence < minimum then return left
          else
            let _ ← next
            let operand ← unaryExpression below
            let right ← operations below levels (operator.precedence + 1) operand
            operations below levels minimum
              (.binary left operator right (left.span.union right.span))

/-- Binary operators of at least this precedence follow a unary expression. -/
def binaryExpression (below : Readers) (minimum : Precedence) : Reader Expression := do
  operations below below.levels minimum (← unaryExpression below)

/-- An assignment needs a target on its left. -/
def assignment (below : Readers) : Reader Expression := do
  let target ← binaryExpression below .logicalOr
  if (← peek).lexeme = .punctuator .assign then
    let mark ← next
    if Grammar.isTarget target then
      let value ← below.expression
      return .assign target value (target.span.union value.span)
    else refuse mark fun _ => .invalidAssignmentTarget
  else return target

/-- An expression is read at the precedence that its place asks for. -/
def expressionAt (below : Readers) (minimum : Precedence) : Reader Expression :=
  if minimum ≤ .assignment then assignment below else binaryExpression below minimum

/-- Declared names are separated by commas. -/
def declarators (below : Readers) : Nat → Reader (List Declarator)
  | 0 => unfinished
  | levels + 1 => do
      let (name, nameSpan) ← identifier "variable declaration"
      let value ← match ← accept? (.punctuator .assign) with
        | some _ => some <$> below.expression
        | none => pure none
      let span := match value with
        | some value => nameSpan.union value.span
        | none => nameSpan
      if (← accept? (.punctuator .comma)).isSome then
        return ⟨name, value, span⟩ :: (← declarators below levels)
      else return [⟨name, value, span⟩]

/-- The variables behind the first one. -/
def declaratorsTail (below : Readers) (levels : Nat) (first : Declarator) :
    Reader (List Declarator) := do
  if (← accept? (.punctuator .comma)).isSome then return first :: (← declarators below levels)
  else return [first]

/-- A declaration is its keyword and the declared names. -/
def declaration (below : Readers) : Reader Statement := do
  let token ← next
  match DeclarationWord.ofLexeme? token.lexeme with
  | none => refuse token (.expectedLexeme (.keyword .varKw))
  | some word =>
      let items ← declarators below below.levels
      let span := match items.getLast? with
        | some last => token.span.union last.span
        | none => token.span
      return .declaration word items span

/-- A branch is a block, or one statement with its own semicolon. -/
def branch (statement : Reader Statement) : Reader Branch := do
  match ← statement with
  | .block inner => return .braced inner
  | single =>
      if single.needsSemicolon then semicolon
      return .single single

/-- A conditional has a condition in parentheses and one or two branches. -/
def conditional (below : Readers) : Reader Statement := do
  let start ← expect (.keyword .ifKw)
  let _ ← expect (.punctuator .openParenthesis)
  let condition ← below.expression
  let _ ← expect (.punctuator .closeParenthesis)
  let consequent ← branch below.statement
  if (← accept? (.keyword .elseKw)).isSome then
    let alternate ← branch below.statement
    return .conditional condition consequent (some alternate) (start.union alternate.span)
  else return .conditional condition consequent none (start.union consequent.span)

/-- The value of a return statement starts on the same line. -/
def returning (below : Readers) : Reader Statement := do
  let start ← next
  let token ← peek
  if token.afterLineBreak ∨ token.lexeme = .punctuator .semicolon ∨
      token.lexeme = .punctuator .closeBrace ∨ token.lexeme = .endOfSource then
    return .returning none start.span
  else
    let value ← below.expression
    return .returning (some value) (start.span.union value.span)

/-- The first token of a statement tells which kind it is. -/
def anyStatement (below : Readers) : Reader Statement := do
  match (← peek).lexeme with
  | .keyword .varKw | .keyword .letKw | .keyword .constKw => declaration below
  | .keyword .functionKw => return .function (← functionDef below true)
  | .keyword .ifKw => conditional below
  | .keyword .returnKw => returning below
  | .punctuator .openBrace => return .block (← block below)
  | .punctuator .semicolon => return .empty (← next).span
  | _ =>
      let value ← assignment below
      return .expression value value.span

/-- A script is its statements and the end of the source. -/
def script (below : Readers) : Reader Script := do
  let items ← statements (anyStatement below) below.levels
  finish
  return ⟨items, ⟨0, (← peek).span.stop⟩⟩

/-- The readers whose calls go at most so many levels deep. -/
def within : Nat → Readers
  | 0 => ⟨0, unfinished, unfinished, unfinished⟩
  | levels + 1 =>
      let below := within levels
      ⟨levels + 1, assignment below, unaryExpression below, anyStatement below⟩

/-- The reader of the nodes of a form. -/
def ofForm (below : Readers) : Node.Form → Reader Node
  | .script => .script <$> script below
  | .statement => .statement <$> anyStatement below
  | .expression => .expression <$> assignment below
  | .block => .block <$> block below
  | .branch => .branch <$> branch (anyStatement below)
  | .declaration => .statement <$> declaration below
  | .conditional => .statement <$> conditional below
  | .function named => .function <$> functionDef below named

end Readers

/-- What a caller can ask of a cursor. -/
inductive Call where
  | peek | next | propertyName | propertyKey | finish
  | accept (wanted : Lexeme)
  | expect (wanted : Lexeme)
  | identifier (place : String)
  | node (form : Node.Form)
  | expressionAt (minimum : Precedence)

namespace Call

/-- Each call has a kind of value that it gives. -/
abbrev Value : Call → Type
  | peek | next => Token
  | propertyName | identifier _ => String × Span
  | propertyKey => PropertyKey
  | finish => Unit
  | accept _ => Option Span
  | expect _ => Span
  | node _ => Node
  | expressionAt _ => Expression

/-- The reader for the call, above readers of a number of levels. -/
def reader (levels : Nat) : (call : Call) → Reader call.Value
  | peek => Reader.peek
  | next => Reader.next
  | propertyName => Reader.propertyName
  | propertyKey => Reader.propertyKey
  | finish => Reader.finish
  | accept wanted => Reader.accept? wanted
  | expect wanted => Reader.expect wanted
  | identifier place => Reader.identifier place
  | node form => (Readers.within levels).ofForm form
  | expressionAt minimum => (Readers.within levels).expressionAt minimum

/-- The reader of streams for the call. -/
def parser : (call : Call) → Parser call.Value
  | peek => Parser.peek
  | next => Parser.next
  | propertyName => Parser.propertyName
  | propertyKey => Parser.propertyKey
  | finish => Parser.finish
  | accept wanted => Parser.accept? wanted
  | expect wanted => Parser.expect wanted
  | identifier place => Parser.identifier place
  | node form => form.parser
  | expressionAt minimum => Parser.expressionAt minimum

/-- The call asks for a part of a script that cannot be empty. -/
def AsksForPart : Call → Prop
  | node form => form ≠ .script
  | expressionAt _ => True
  | _ => False

/-- Where the cursor stands behind calls that are made one after the other, whether they fail or
not. -/
def afterAll? (levels : Nat) : List Call → Cursor → Option Cursor
  | [], cursor => some cursor
  | call :: rest, cursor => do
      let (_, later) ← (call.reader levels).outcome cursor
      afterAll? levels rest later

end Call

end Cursor

end ScriptStrip
