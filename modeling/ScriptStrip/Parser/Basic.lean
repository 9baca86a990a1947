import ScriptStrip.Token.Scan
import ScriptStrip.Tree.Basic
/-
This file defines the readers of tokens that the grammar is put together from. A reader that
fails leaves the stream where it stood when the error was found.
-/

namespace ScriptStrip

/-- A reader takes tokens from the front of a stream or refuses one of them. -/
abbrev Parser := EStateM SyntaxError TokenStream

namespace Parser

/-- The next token is looked at and stays where it is. -/
def peek : Parser Token := do
  return (← get).front

/-- The next token is taken from the stream. -/
def next : Parser Token := do
  let stream ← get
  set stream.advance
  return stream.front

/-- The error lies at the given token. -/
def refuse {Value : Type} (token : Token) (cause : Lexeme → SyntaxError.Cause) : Parser Value :=
  throw ⟨cause token.lexeme, token.span⟩

/-- Reads the front token only if it is the wanted one. -/
def accept? (wanted : Lexeme) : Parser (Option Span) := do
  let token ← peek
  if token.lexeme = wanted then
    let _ ← next
    return some token.span
  else return none

/-- Reads the front token and refuses all but the wanted one. -/
def expect (wanted : Lexeme) : Parser Span := do
  let token ← next
  if token.lexeme = wanted then return token.span
  else refuse token (.expectedLexeme wanted)

/-- This reader takes a name, and its error says where the name was expected. -/
def identifier (place : String) : Parser (String × Span) := do
  let token ← next
  match token.lexeme with
  | .identifier name => return (name, token.span)
  | _ => refuse token (.expectedIdentifier place)

/-- Keywords can name properties. -/
def propertyName : Parser (String × Span) := do
  let token ← next
  match token.lexeme with
  | .identifier name => return (name, token.span)
  | .keyword word => return (word.text, token.span)
  | _ => refuse token (.expectedIdentifier "property access")

/-- A key is a name, any keyword, a string or a number. -/
def propertyKey : Parser PropertyKey := do
  let token ← next
  match token.lexeme with
  | .identifier name => return .identifier name token.span
  | .keyword word => return .identifier word.text token.span
  | .string content quote => return .string content quote token.span
  | .number digits => return .number digits token.span
  | _ => refuse token .expectedPropertyKey

/-- Refuses every token but the end of the source, which stays in front. -/
def finish : Parser Unit := do
  let token ← peek
  unless token.lexeme = .endOfSource do refuse token .expectedEnd

/-- A semicolon may be left out before a line break, a closing brace and the end of the source. -/
def semicolon : Parser Unit := do
  if (← accept? (.punctuator .semicolon)).isNone then
    let token ← peek
    unless token.afterLineBreak ∨ token.lexeme = .punctuator .closeBrace ∨
        token.lexeme = .endOfSource do
      refuse token .expectedSemicolon

/-- A tree has at most one level for each of its tokens, so a reader that is given one level
more than there are tokens never comes to this one. -/
def tooDeep {Value : Type} : Parser Value := do
  refuse (← peek) .expectedExpression

/-- Items with commas between them, up to the closing mark, whose span is returned. A comma may
follow the last item. -/
def itemsUntil {Item : Type} (close : Punctuator) (item : Parser Item) :
    Nat → Parser (List Item × Span)
  | 0 => tooDeep
  | levels + 1 => do
      match ← accept? (.punctuator close) with
      | some span => return ([], span)
      | none =>
          let first ← item
          if (← accept? (.punctuator .comma)).isSome then
            let (rest, span) ← itemsUntil close item levels
            return (first :: rest, span)
          else return ([first], ← expect (.punctuator close))

/-- Reads a source text from its start to its end. -/
def readAll {Value : Type} (reader : Parser Value) (source : String) :
    Except SyntaxError Value := do
  let stream ← TokenStream.ofSource source
  match (do let value ← reader; finish; return value : Parser Value).run stream with
  | .ok value _ => .ok value
  | .error error _ => .error error

end Parser

end ScriptStrip
