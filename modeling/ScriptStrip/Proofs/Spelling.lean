import ScriptStrip.Proofs.Reading
/-
This file says which tokens spell a tree. A spelling relates the stream in front of the tokens to
the stream behind them, and it knows nothing of how the tokens are read.
-/

namespace ScriptStrip

/-- Tokens of some form lie between the first stream and the second one. -/
abbrev Spelling := TokenStream → TokenStream → Prop

namespace Spelling

/-- No token is written. -/
def nothing : Spelling := fun before after => after = before

/-- A single token that says what is wanted. -/
def one (wanted : Lexeme → Prop) : Spelling := fun before after =>
  wanted before.front.lexeme ∧ after = before.advance

/-- One mark is written. -/
def mark (wanted : Punctuator) : Spelling := one (· = .punctuator wanted)

/-- One keyword is written. -/
def keyword (wanted : Keyword) : Spelling := one (· = .keyword wanted)

/-- One name is written. -/
def identifier (name : String) : Spelling := one (· = .identifier name)

/-- Two spellings are written one behind the other. -/
def andThen (first second : Spelling) : Spelling := fun before after =>
  ∃ middle, first before middle ∧ second middle after

/-- One of two spellings is written. -/
def orElse (first second : Spelling) : Spelling := fun before after =>
  first before after ∨ second before after

/-- The spelling starts on the line that the token before it ends on. -/
def onSameLine (spelling : Spelling) : Spelling := fun before after =>
  before.front.afterLineBreak = false ∧ spelling before after

/-- Several spellings are written one behind the other. -/
def inOrder : List Spelling → Spelling
  | [] => nothing
  | [last] => last
  | first :: rest => first.andThen (inOrder rest)

/-- Items with commas between them. -/
def separated : List Spelling → Spelling
  | [] => nothing
  | [last] => last
  | first :: rest => inOrder [first, mark .comma, separated rest]

/-- Items with commas between them, with or without a comma behind the last one. -/
def listed : List Spelling → Spelling
  | [] => nothing
  | [last] => last.andThen (nothing.orElse (mark .comma))
  | first :: rest => inOrder [first, mark .comma, listed rest]

/-- A spelling is written between two marks. -/
def enclosed (opening closing : Punctuator) (inner : Spelling) : Spelling :=
  inOrder [mark opening, inner, mark closing]

section

variable {before after : TokenStream} {first second : Spelling} {rest : List Spelling}

@[simp] theorem nothing_iff : nothing before after ↔ after = before := Iff.rfl

@[simp] theorem one_iff {wanted : Lexeme → Prop} :
    one wanted before after ↔ wanted before.front.lexeme ∧ after = before.advance := Iff.rfl

@[simp] theorem mark_iff {wanted : Punctuator} : mark wanted before after ↔
    before.front.lexeme = .punctuator wanted ∧ after = before.advance := Iff.rfl

@[simp] theorem keyword_iff {wanted : Keyword} : keyword wanted before after ↔
    before.front.lexeme = .keyword wanted ∧ after = before.advance := Iff.rfl

@[simp] theorem identifier_iff {name : String} : identifier name before after ↔
    before.front.lexeme = .identifier name ∧ after = before.advance := Iff.rfl

@[simp] theorem inOrder_nil : inOrder [] = nothing := rfl

@[simp] theorem inOrder_singleton : inOrder [first] = first := rfl

@[simp] theorem inOrder_cons_iff :
    inOrder (first :: second :: rest) before after ↔
      ∃ middle, first before middle ∧ inOrder (second :: rest) middle after := Iff.rfl

/-- What is enclosed starts with the first mark and stops with the second. -/
theorem enclosed_iff {opening closing : Punctuator} {inner : Spelling} :
    enclosed opening closing inner before after ↔
      before.front.lexeme = .punctuator opening ∧ ∃ middle, inner before.advance middle ∧
        middle.front.lexeme = .punctuator closing ∧ after = middle.advance := by
  simp [enclosed, and_assoc]

end

end Spelling

/-- A variable or a property goes on with such a token wherever it could have ended. -/
def Lexeme.ContinuesAccess (lexeme : Lexeme) : Prop :=
  lexeme = .punctuator .dot ∨ lexeme = .punctuator .openBracket ∨
    lexeme = .punctuator .openParenthesis

/-- An expression goes on with such a token wherever it could have ended. -/
def Lexeme.ContinuesExpression (lexeme : Lexeme) : Prop :=
  (∃ operator : BinaryOperator, lexeme = operator.lexeme) ∨ lexeme = .punctuator .assign ∨
    lexeme.ContinuesAccess

/-- A variable of a declaration is given a value or goes on with its value. -/
def Declarator.ContinuedBy (lexeme : Lexeme) : Declarator → Prop
  | ⟨_, none, _⟩ => lexeme = .punctuator .assign
  | ⟨_, some _, _⟩ => lexeme.ContinuesExpression

/-- A statement that wants a semicolon goes on with such a token. -/
def Statement.ContinuedBy (lexeme : Lexeme) : Statement → Prop
  | .expression .. | .returning (some _) _ => lexeme.ContinuesExpression
  | .declaration _ items _ =>
      lexeme = .punctuator .comma ∨
        ∃ last, items.getLast? = some last ∧ last.ContinuedBy lexeme
  | _ => False

/-- A semicolon can be left out before a line break, a closing brace and the end of the source,
unless the statement goes on there. -/
def Statement.ending (statement : Statement) : Spelling :=
  if statement.needsSemicolon then
    (Spelling.mark .semicolon).orElse fun before after =>
      after = before ∧ before.front.lexeme ≠ .punctuator .semicolon ∧
        (before.front.afterLineBreak = true ∨ before.front.lexeme = .punctuator .closeBrace ∨
          before.front.lexeme = .endOfSource) ∧
        ¬ statement.ContinuedBy before.front.lexeme
  else Spelling.nothing

namespace Spelling

mutual

/-- An expression is written as its tokens, and parentheses are only those of its groups. -/
def ofExpression : Expression → Spelling
  | .number digits _ => one (· = .number digits)
  | .string content quote _ => one (· = .string content quote)
  | .boolean true _ => keyword .trueKw
  | .boolean false _ => keyword .falseKw
  | .null _ => keyword .nullKw
  | .undefined _ => inOrder [keyword .voidKw, one (· = .number "0")]
  | .array items _ => enclosed .openBracket .closeBracket (listed (ofExpressions items))
  | .object members _ => enclosed .openBrace .closeBrace (listed (ofMembers members))
  | .function definition => ofFunction definition
  | .group inner _ => enclosed .openParenthesis .closeParenthesis (ofExpression inner)
  | .reference name _ => identifier name
  | .property parent name _ => inOrder [ofExpression parent, mark .dot, one (·.IsWord name)]
  | .index parent key _ =>
      inOrder [ofExpression parent, enclosed .openBracket .closeBracket (ofExpression key)]
  | .call callee arguments _ =>
      inOrder [ofExpression callee,
        enclosed .openParenthesis .closeParenthesis (listed (ofExpressions arguments))]
  | .unary operator operand _ => inOrder [one (· = operator.lexeme), ofExpression operand]
  | .binary left operator right _ =>
      inOrder [ofExpression left, one (· = operator.lexeme), ofExpression right]
  | .assign target value _ => inOrder [ofExpression target, mark .assign, ofExpression value]

/-- Each expression of a list has a spelling of its own. -/
def ofExpressions : List Expression → List Spelling
  | [] => []
  | first :: rest => ofExpression first :: ofExpressions rest

/-- Each member of an object has a spelling of its own. -/
def ofMembers : List Member → List Spelling
  | [] => []
  | ⟨key, value, _⟩ :: rest =>
      inOrder [one key.IsWrittenAs, mark .colon, ofExpression value] :: ofMembers rest

/-- A function is written as its keyword, its name, its parameters and its body. -/
def ofFunction : FunctionDef → Spelling
  | ⟨name, parameters, body, _⟩ =>
      inOrder [keyword .functionKw, (name.map identifier).getD nothing,
        enclosed .openParenthesis .closeParenthesis (listed (parameters.map identifier)),
        ofBlock body]

/-- A block is written as its statements between braces. -/
def ofBlock : Block → Spelling
  | ⟨items, _⟩ => enclosed .openBrace .closeBrace (ofStatements items)

/-- The semicolon behind the statement is left to the owner. -/
def ofStatement : Statement → Spelling
  | .expression value _ => ofExpression value
  | .declaration word items _ =>
      inOrder [keyword word.keyword, separated (ofDeclarators items)]
  | .function definition => ofFunction definition
  | .conditional condition consequent alternate _ =>
      inOrder [keyword .ifKw, enclosed .openParenthesis .closeParenthesis (ofExpression condition),
        ofBranch consequent, ofAlternate alternate]
  | .returning none _ => keyword .returnKw
  | .returning (some value) _ => inOrder [keyword .returnKw, onSameLine (ofExpression value)]
  | .block inner => ofBlock inner
  | .empty _ => mark .semicolon

/-- Statements are written in a row, each with its end. -/
def ofStatements : List Statement → Spelling
  | [] => nothing
  | first :: rest => inOrder [ofStatement first, first.ending, ofStatements rest]

/-- Each declared name has a spelling of its own. -/
def ofDeclarators : List Declarator → List Spelling
  | [] => []
  | ⟨name, none, _⟩ :: rest => identifier name :: ofDeclarators rest
  | ⟨name, some value, _⟩ :: rest =>
      inOrder [identifier name, mark .assign, ofExpression value] :: ofDeclarators rest

/-- A branch is written as its block, or as a statement with its end. -/
def ofBranch : Branch → Spelling
  | .braced block => ofBlock block
  | .single statement => inOrder [ofStatement statement, statement.ending]

/-- A second branch is written behind its keyword. -/
def ofAlternate : Option Branch → Spelling
  | none => nothing
  | some branch => inOrder [keyword .elseKw, ofBranch branch]

end

end Spelling

/-- The tokens of the stream up to the end of the source spell the script. -/
def Script.SpelledBy (stream : TokenStream) (script : Script) : Prop :=
  ∃ rest, Spelling.ofStatements script.items stream rest ∧ rest.front.lexeme = .endOfSource

end ScriptStrip
