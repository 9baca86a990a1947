import ScriptStrip.Operator
/-
This file defines the tree of a script. Every node carries the span that it was read from.
-/

namespace ScriptStrip

/-- The words that declare variables. -/
inductive DeclarationWord where
  | byVar | byLet | byConst
deriving DecidableEq, Repr

namespace DeclarationWord

/-- Each kind of declaration starts with a keyword of its own. -/
def keyword : DeclarationWord → Keyword
  | byVar => .varKw
  | byLet => .letKw
  | byConst => .constKw

/-- Three keywords start a declaration. -/
def ofLexeme? : Lexeme → Option DeclarationWord
  | .keyword .varKw => some byVar
  | .keyword .letKw => some byLet
  | .keyword .constKw => some byConst
  | _ => none

/-- The keyword of a declaration is read back as the kind of declaration. -/
theorem ofLexeme?_eq_some_iff {lexeme : Lexeme} {word : DeclarationWord} :
    ofLexeme? lexeme = some word ↔ lexeme = .keyword word.keyword := by
  constructor
  · intro found
    unfold ofLexeme? at found
    split at found <;> cases found <;> rfl
  · rintro rfl
    cases word <;> rfl

end DeclarationWord

/-- What stands before the colon of an object member. -/
inductive PropertyKey where
  | identifier (name : String) (span : Span)
  | string (content : String) (quote : Quote) (span : Span)
  | number (digits : String) (span : Span)
deriving DecidableEq, Repr

namespace PropertyKey

/-- A key knows its place in the source. -/
def span : PropertyKey → Span
  | identifier _ span | string _ _ span | number _ span => span

/-- The name by which the member is accessed. -/
def name : PropertyKey → String
  | identifier name _ => name
  | string content _ _ => content
  | number digits _ => digits

end PropertyKey

mutual

inductive Expression where
  | number (digits : String) (span : Span)
  | string (content : String) (quote : Quote) (span : Span)
  | boolean (value : Bool) (span : Span)
  | null (span : Span)
  /-- The value that `void 0` gives. -/
  | undefined (span : Span)
  | array (items : List Expression) (span : Span)
  | object (members : List Member) (span : Span)
  | function (definition : FunctionDef)
  /-- An expression in parentheses. -/
  | group (inner : Expression) (span : Span)
  | reference (name : String) (span : Span)
  /-- A property that is accessed by name, as in `x.y`. -/
  | property (parent : Expression) (name : String) (span : Span)
  /-- A property that is computed, as in `x[y]`. -/
  | index (parent key : Expression) (span : Span)
  | call (callee : Expression) (arguments : List Expression) (span : Span)
  | unary (operator : UnaryOperator) (operand : Expression) (span : Span)
  | binary (left : Expression) (operator : BinaryOperator) (right : Expression) (span : Span)
  | assign (target value : Expression) (span : Span)

/-- A member of an object, as in `key: value`. -/
structure Member where
  key : PropertyKey
  value : Expression
  span : Span

/-- The part that declarations and expressions of functions share. -/
structure FunctionDef where
  name : Option String
  parameters : List String
  body : Block
  span : Span

/-- Statements between braces. -/
structure Block where
  items : List Statement
  span : Span

inductive Statement where
  | expression (value : Expression) (span : Span)
  | declaration (word : DeclarationWord) (items : List Declarator) (span : Span)
  | function (definition : FunctionDef)
  | conditional (condition : Expression) (consequent : Branch) (alternate : Option Branch)
      (span : Span)
  | returning (value : Option Expression) (span : Span)
  | block (inner : Block)
  /-- A semicolon on its own. -/
  | empty (span : Span)

/-- One of the variables of a declaration, with its initial value. -/
structure Declarator where
  name : String
  value : Option Expression
  span : Span

/-- What a condition decides about. -/
inductive Branch where
  | braced (block : Block)
  | single (statement : Statement)

end

/-- A whole source text. -/
structure Script where
  items : List Statement
  span : Span

/-- An expression knows its place in the source. -/
def Expression.span : Expression → Span
  | number _ span | string _ _ span | boolean _ span | null span | undefined span
  | array _ span | object _ span | group _ span | reference _ span | property _ _ span
  | index _ _ span | call _ _ span | unary _ _ span | binary _ _ _ span | assign _ _ span => span
  | function definition => definition.span

/-- A statement knows its place in the source. -/
def Statement.span : Statement → Span
  | expression _ span | declaration _ _ span | conditional _ _ _ span | returning _ span
  | empty span => span
  | function definition => definition.span
  | block inner => inner.span

/-- A branch stands where its block or its statement stands. -/
def Branch.span : Branch → Span
  | braced block => block.span
  | single statement => statement.span

/-- These statements end with a semicolon, which may be left out at the end of a line. -/
def Statement.needsSemicolon : Statement → Bool
  | expression .. | declaration .. | returning .. => true
  | _ => false

/-- An expression binds as tightly as its outermost operator. -/
def Expression.precedence : Expression → Precedence
  | assign .. => .assignment
  | binary _ operator _ _ => operator.precedence
  | unary .. | undefined _ => .unary
  | call .. | property .. | index .. => .member
  | _ => .primary

/-- The expression inside all the parentheses around it. -/
def Expression.ungrouped : Expression → Expression
  | group inner _ => inner.ungrouped
  | expression => expression

/-- No parentheses are left around an expression once they are taken off. -/
theorem Expression.ungrouped_ne_group (expression inner : Expression) (span : Span) :
    expression.ungrouped ≠ .group inner span := by
  fun_induction Expression.ungrouped expression with
  | case1 inner span inductionHypothesis => exact inductionHypothesis
  | case2 expression notGroup => exact notGroup inner span

end ScriptStrip
