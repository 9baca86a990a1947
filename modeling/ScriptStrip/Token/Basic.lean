import ScriptStrip.Span
/-
This file defines the words and marks that a script is made of.
-/

namespace ScriptStrip

/-- The words that cannot name a variable. -/
inductive Keyword where
  | varKw | letKw | constKw | functionKw | ifKw | elseKw | returnKw
  | trueKw | falseKw | nullKw | typeofKw | voidKw
deriving DecidableEq, Repr

namespace Keyword

/-- A keyword is written as this word. -/
def text : Keyword → String
  | varKw => "var"
  | letKw => "let"
  | constKw => "const"
  | functionKw => "function"
  | ifKw => "if"
  | elseKw => "else"
  | returnKw => "return"
  | trueKw => "true"
  | falseKw => "false"
  | nullKw => "null"
  | typeofKw => "typeof"
  | voidKw => "void"

/-- Only these words are keywords. -/
def ofText? : String → Option Keyword
  | "var" => some varKw
  | "let" => some letKw
  | "const" => some constKw
  | "function" => some functionKw
  | "if" => some ifKw
  | "else" => some elseKw
  | "return" => some returnKw
  | "true" => some trueKw
  | "false" => some falseKw
  | "null" => some nullKw
  | "typeof" => some typeofKw
  | "void" => some voidKw
  | _ => none

/-- The word of a keyword is read back as the keyword. -/
@[simp] theorem ofText?_text (keyword : Keyword) : ofText? keyword.text = some keyword := by
  cases keyword <;> rfl

/-- A keyword that is read from a word is written as that word. -/
theorem text_of_ofText? {word : String} {keyword : Keyword}
    (found : ofText? word = some keyword) : keyword.text = word := by
  unfold ofText? at found
  split at found <;> cases found <;> rfl

end Keyword

/-- The two marks that can surround a string. -/
inductive Quote where
  | single | double
deriving DecidableEq, Repr

/-- This character opens and closes a string. -/
def Quote.mark : Quote → Char
  | single => '\''
  | double => '"'

/-- The marks between words. -/
inductive Punctuator where
  | openBrace | closeBrace | openParenthesis | closeParenthesis | openBracket | closeBracket
  | comma | semicolon | colon | dot | assign
  | equal | notEqual | strictEqual | strictNotEqual | less | greater | lessEqual | greaterEqual
  | and | or | not | plus | minus | times | divide
deriving DecidableEq, Repr

/-- A punctuator is written as this mark. -/
def Punctuator.text : Punctuator → String
  | openBrace => "\x7b"
  | closeBrace => "\x7d"
  | openParenthesis => "("
  | closeParenthesis => ")"
  | openBracket => "["
  | closeBracket => "]"
  | comma => ","
  | semicolon => ";"
  | colon => ":"
  | dot => "."
  | assign => "="
  | equal => "=="
  | notEqual => "!="
  | strictEqual => "==="
  | strictNotEqual => "!=="
  | less => "<"
  | greater => ">"
  | lessEqual => "<="
  | greaterEqual => ">="
  | and => "&&"
  | or => "||"
  | not => "!"
  | plus => "+"
  | minus => "-"
  | times => "*"
  | divide => "/"

/-- What a token says. Numbers and the content of strings are kept as they are written. -/
inductive Lexeme where
  | identifier (name : String)
  | keyword (word : Keyword)
  | number (text : String)
  | string (content : String) (quote : Quote)
  | punctuator (mark : Punctuator)
  | endOfSource
deriving DecidableEq, Repr

namespace Lexeme

/-- A word is a keyword if it can be, and an identifier otherwise. -/
def ofWord (word : String) : Lexeme :=
  match Keyword.ofText? word with
  | some reserved => .keyword reserved
  | none => .identifier word

/-- The end of the source has no characters of its own, so it is described instead. -/
def text : Lexeme → String
  | identifier name => name
  | keyword word => word.text
  | number digits => digits
  | string content quote => quote.mark.toString ++ content ++ quote.mark.toString
  | punctuator mark => mark.text
  | endOfSource => "end of source"

/-- A word is written as it is read, keyword or not. -/
@[simp] theorem text_ofWord (word : String) : (ofWord word).text = word := by
  unfold ofWord
  split
  · rename_i reserved found
    exact Keyword.text_of_ofText? found
  · rfl

end Lexeme

/-- A lexeme with its place in the source. -/
structure Token where
  lexeme : Lexeme
  span : Span
  /-- A line break lies between this token and the one before it. -/
  afterLineBreak : Bool
deriving DecidableEq, Repr

end ScriptStrip
