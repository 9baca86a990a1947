import ScriptStrip.Text.Escape
import ScriptStrip.Token.Basic
/-
This file lists the ways in which a source text can fail to be a script.
-/

namespace ScriptStrip

/-- Why a source text is refused. -/
inductive SyntaxError.Cause where
  | unexpectedCharacter (found : Char)
  | unterminatedString
  | unterminatedComment
  | expectedLexeme (expected found : Lexeme)
  | expectedExpression (found : Lexeme)
  | expectedIdentifier (place : String) (found : Lexeme)
  | expectedPropertyKey (found : Lexeme)
  | expectedSemicolon (found : Lexeme)
  | invalidAssignmentTarget
  | expectedEnd (found : Lexeme)
deriving DecidableEq, Repr

/-- Why and where a source text is refused. -/
structure SyntaxError where
  cause : SyntaxError.Cause
  span : Span
deriving DecidableEq, Repr

namespace SyntaxError

/-- A lexeme is shown between two grave accents. -/
def Cause.shown (lexeme : Lexeme) : String := "\x60" ++ lexeme.text ++ "\x60"

/-- The text of an error says what was found or expected. -/
def Cause.message : Cause → String
  | unexpectedCharacter found =>
      "Unexpected character " ++ Text.quoted '\'' found.toString
  | unterminatedString => "Unterminated string literal"
  | unterminatedComment => "Unterminated multiline comment"
  | expectedLexeme expected found => "Expected " ++ shown expected ++ " found " ++ shown found
  | expectedExpression found => "Expected expression found " ++ shown found
  | expectedIdentifier place found =>
      "Expected identifier at " ++ place ++ ", found " ++ shown found
  | expectedPropertyKey found => "Expected property key, found " ++ shown found
  | expectedSemicolon found =>
      "Expected " ++ shown (.punctuator .semicolon) ++ " or new line, found " ++ shown found
  | invalidAssignmentTarget => "Invalid syntax on LHS of assignment"
  | expectedEnd found => "Expected end of source, found " ++ shown found

/-- An error is told by the text of its cause. -/
def message (error : SyntaxError) : String := error.cause.message

/-- The message followed by the place of the error. -/
def describe (error : SyntaxError) : String :=
  "ParseError: " ++ error.message ++ " @ byte indices " ++ toString error.span.start ++ ".." ++
    toString error.span.stop

end SyntaxError

end ScriptStrip
