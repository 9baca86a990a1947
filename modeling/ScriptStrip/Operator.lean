import ScriptStrip.Token.Basic
/-
This file defines the operators of expressions and how tightly they bind.
-/

namespace ScriptStrip

/-- How tightly an expression holds together. A higher number binds tighter. -/
abbrev Precedence := Nat

namespace Precedence

/-- An assignment binds less tightly than every operator. -/
def assignment : Precedence := 2

/-- A disjunction binds less tightly than every other binary operator. -/
def logicalOr : Precedence := 3

/-- A conjunction binds more tightly than a disjunction. -/
def logicalAnd : Precedence := 4

/-- The four comparisons for equality bind alike. -/
def equality : Precedence := 8

/-- The four comparisons of order bind alike. -/
def relation : Precedence := 9

/-- A sum and a difference bind alike. -/
def additive : Precedence := 11

/-- A product, a quotient and a remainder bind alike. -/
def multiplicative : Precedence := 12

/-- A unary operator binds more tightly than all binary ones. -/
def unary : Precedence := 14

/-- A call and the access to a property bind more tightly than every operator. -/
def member : Precedence := 17

/-- Literals, names and groups bind most tightly. -/
def primary : Precedence := 20

end Precedence

/-- Every binary operator associates to the left. -/
inductive BinaryOperator where
  | or | and | equal | notEqual | strictEqual | strictNotEqual
  | less | greater | lessEqual | greaterEqual | add | subtract | multiply | divide
deriving DecidableEq, Repr

namespace BinaryOperator

/-- Each binary operator is written as one mark. -/
def mark : BinaryOperator → Punctuator
  | or => .or
  | and => .and
  | equal => .equal
  | notEqual => .notEqual
  | strictEqual => .strictEqual
  | strictNotEqual => .strictNotEqual
  | less => .less
  | greater => .greater
  | lessEqual => .lessEqual
  | greaterEqual => .greaterEqual
  | add => .plus
  | subtract => .minus
  | multiply => .times
  | divide => .divide

/-- The mark of a binary operator is one token. -/
def lexeme (operator : BinaryOperator) : Lexeme := .punctuator operator.mark

/-- Every other token is no binary operator. -/
def ofLexeme? : Lexeme → Option BinaryOperator
  | .punctuator .or => some or
  | .punctuator .and => some and
  | .punctuator .equal => some equal
  | .punctuator .notEqual => some notEqual
  | .punctuator .strictEqual => some strictEqual
  | .punctuator .strictNotEqual => some strictNotEqual
  | .punctuator .less => some less
  | .punctuator .greater => some greater
  | .punctuator .lessEqual => some lessEqual
  | .punctuator .greaterEqual => some greaterEqual
  | .punctuator .plus => some add
  | .punctuator .minus => some subtract
  | .punctuator .times => some multiply
  | .punctuator .divide => some divide
  | _ => none

/-- Each binary operator has one precedence. -/
def precedence : BinaryOperator → Precedence
  | or => .logicalOr
  | and => .logicalAnd
  | equal | notEqual | strictEqual | strictNotEqual => .equality
  | less | greater | lessEqual | greaterEqual => .relation
  | add | subtract => .additive
  | multiply | divide => .multiplicative

/-- A binary operator is read back from its token, and from no other. -/
theorem ofLexeme?_eq_some_iff {lexeme : Lexeme} {operator : BinaryOperator} :
    ofLexeme? lexeme = some operator ↔ lexeme = operator.lexeme := by
  constructor
  · intro found
    unfold ofLexeme? at found
    split at found <;> cases found <;> rfl
  · rintro rfl
    cases operator <;> rfl

end BinaryOperator

/-- Three unary operators are marks and two are words. -/
inductive UnaryOperator where
  | not | negate | plus | typeOf | void
deriving DecidableEq, Repr

namespace UnaryOperator

/-- A unary operator is written as one token. -/
def lexeme : UnaryOperator → Lexeme
  | not => .punctuator .not
  | negate => .punctuator .minus
  | plus => .punctuator .plus
  | typeOf => .keyword .typeofKw
  | void => .keyword .voidKw

/-- Every other token is no unary operator. -/
def ofLexeme? : Lexeme → Option UnaryOperator
  | .punctuator .not => some not
  | .punctuator .minus => some negate
  | .punctuator .plus => some plus
  | .keyword .typeofKw => some typeOf
  | .keyword .voidKw => some void
  | _ => none

/-- An operator that is a word needs a blank before its operand. -/
def isWord : UnaryOperator → Bool
  | typeOf | void => true
  | _ => false

/-- A unary operator is read back from its token, and from no other. -/
theorem ofLexeme?_eq_some_iff {lexeme : Lexeme} {operator : UnaryOperator} :
    ofLexeme? lexeme = some operator ↔ lexeme = operator.lexeme := by
  constructor
  · intro found
    unfold ofLexeme? at found
    split at found <;> cases found <;> rfl
  · rintro rfl
    cases operator <;> rfl

end UnaryOperator

end ScriptStrip
