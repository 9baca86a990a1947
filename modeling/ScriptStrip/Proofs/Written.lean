import ScriptStrip.Proofs.Formed
/-
This file asks of a tree only that its leaves can be written and that nothing but a target is
assigned to. Whether a text with such a statement in it would be read is left open.
-/

namespace ScriptStrip

mutual

/-- The words, numbers and strings of the expression are good. -/
def Expression.Written (good : Lexeme → Prop) : Expression → Prop
  | .number digits _ => good (.number digits)
  | .string content quote _ => good (.string content quote)
  | .boolean .. | .null _ | .undefined _ => True
  | .array items _ => Expression.AllWritten good items
  | .object members _ => Member.AllWritten good members
  | .function definition => definition.Written good
  | .group inner _ => inner.Written good
  | .reference name _ => good (.identifier name)
  | .property parent name _ => parent.Written good ∧ good (.ofWord name)
  | .index parent key _ => parent.Written good ∧ key.Written good
  | .call callee arguments _ => callee.Written good ∧ Expression.AllWritten good arguments
  | .unary _ operand _ => operand.Written good
  | .binary left _ right _ => left.Written good ∧ right.Written good
  | .assign target value _ =>
      target.IsTarget ∧ target.Written good ∧ value.Written good

/-- Each expression of the list is written with good tokens. -/
def Expression.AllWritten (good : Lexeme → Prop) : List Expression → Prop
  | [] => True
  | first :: rest => first.Written good ∧ Expression.AllWritten good rest

/-- The keys and the values of an object are written with good tokens. -/
def Member.AllWritten (good : Lexeme → Prop) : List Member → Prop
  | [] => True
  | ⟨key, value, _⟩ :: rest => key.Formed good ∧ value.Written good ∧ Member.AllWritten good rest

/-- A function may have names that are good only, and its body is written with good tokens. -/
def FunctionDef.Written (good : Lexeme → Prop) : FunctionDef → Prop
  | ⟨name, parameters, body, _⟩ =>
      (∀ word, name = some word → good (.identifier word)) ∧
        (∀ word ∈ parameters, good (.identifier word)) ∧ body.Written good

/-- The statements of a block are written with good tokens. -/
def Block.Written (good : Lexeme → Prop) : Block → Prop
  | ⟨items, _⟩ => Statement.AllWritten good items

/-- The parts of a statement are written with good tokens. -/
def Statement.Written (good : Lexeme → Prop) : Statement → Prop
  | .expression value _ => value.Written good
  | .declaration _ items _ => Declarator.AllWritten good items
  | .function definition => definition.Written good
  | .conditional condition consequent alternate _ =>
      condition.Written good ∧ consequent.Written good ∧ Branch.AlternateWritten good alternate
  | .returning none _ => True
  | .returning (some value) _ => value.Written good
  | .block inner => inner.Written good
  | .empty _ => True

/-- Each statement of the list is written with good tokens. -/
def Statement.AllWritten (good : Lexeme → Prop) : List Statement → Prop
  | [] => True
  | first :: rest => first.Written good ∧ Statement.AllWritten good rest

/-- The declared names are good, and the initial values are written with good tokens. -/
def Declarator.AllWritten (good : Lexeme → Prop) : List Declarator → Prop
  | [] => True
  | ⟨name, none, _⟩ :: rest => good (.identifier name) ∧ Declarator.AllWritten good rest
  | ⟨name, some value, _⟩ :: rest =>
      good (.identifier name) ∧ value.Written good ∧ Declarator.AllWritten good rest

/-- A branch is written with good tokens if its block or statement is. -/
def Branch.Written (good : Lexeme → Prop) : Branch → Prop
  | .braced block => block.Written good
  | .single statement => statement.Written good

/-- A missing branch has no token to ask about. -/
def Branch.AlternateWritten (good : Lexeme → Prop) : Option Branch → Prop
  | none => True
  | some branch => branch.Written good

end

variable {good : Lexeme → Prop}

mutual

/-- The leaves of a formed expression are good, whatever its shape. -/
theorem Expression.written_of_formed (expression : Expression) (formed : expression.Formed good) :
    expression.Written good := by
  cases expression with
  | number digits span => exact formed
  | string content quote span => exact formed
  | boolean value span => exact trivial
  | null span => exact trivial
  | undefined span => exact trivial
  | array items span => exact Expression.allWritten_of_formed items formed
  | object members span => exact Member.allWritten_of_formed members formed
  | function definition => exact definition.written_of_formed formed
  | group inner span => exact inner.written_of_formed formed
  | reference name span => exact formed
  | property parent name span => exact ⟨parent.written_of_formed formed.1, formed.2⟩
  | index parent key span =>
      exact ⟨parent.written_of_formed formed.1, key.written_of_formed formed.2⟩
  | call callee arguments span =>
      exact ⟨callee.written_of_formed formed.1, Expression.allWritten_of_formed arguments formed.2⟩
  | unary operator operand span => exact operand.written_of_formed formed
  | binary left operator right span =>
      exact ⟨left.written_of_formed formed.1, right.written_of_formed formed.2⟩
  | assign target value span =>
      exact ⟨formed.1, target.written_of_formed formed.2.1, value.written_of_formed formed.2.2⟩

/-- The leaves of formed expressions are good. -/
theorem Expression.allWritten_of_formed (items : List Expression)
    (formed : Expression.AllFormed good items) : Expression.AllWritten good items := by
  cases items with
  | nil => exact trivial
  | cons first rest =>
      exact ⟨first.written_of_formed formed.1, Expression.allWritten_of_formed rest formed.2⟩

/-- The leaves of formed members are good. -/
theorem Member.allWritten_of_formed (members : List Member)
    (formed : Member.AllFormed good members) : Member.AllWritten good members := by
  cases members with
  | nil => exact trivial
  | cons first rest =>
      cases first with
      | mk key value span =>
          exact ⟨formed.1, value.written_of_formed formed.2.1,
            Member.allWritten_of_formed rest formed.2.2⟩

/-- The leaves of a formed function are good. -/
theorem FunctionDef.written_of_formed (definition : FunctionDef)
    (formed : definition.Formed good) : definition.Written good := by
  cases definition with
  | mk name parameters body span =>
      exact ⟨formed.1, formed.2.1, body.written_of_formed formed.2.2⟩

/-- The leaves of a formed block are good. -/
theorem Block.written_of_formed (block : Block) (formed : block.Formed good) :
    block.Written good := by
  cases block with
  | mk items span => exact Statement.allWritten_of_formed items formed

/-- The leaves of a formed statement are good. -/
theorem Statement.written_of_formed (statement : Statement) (formed : statement.Formed good) :
    statement.Written good := by
  cases statement with
  | expression value span => exact value.written_of_formed formed
  | declaration word items span => exact Declarator.allWritten_of_formed items formed.2
  | function definition => exact definition.written_of_formed formed.2
  | conditional condition consequent alternate span =>
      exact ⟨condition.written_of_formed formed.1, consequent.written_of_formed formed.2.1,
        Branch.alternateWritten_of_formed alternate formed.2.2.2⟩
  | returning value span =>
      cases value with
      | none => exact trivial
      | some value => exact value.written_of_formed formed
  | block inner => exact inner.written_of_formed formed
  | empty span => exact trivial

/-- The leaves of formed statements are good. -/
theorem Statement.allWritten_of_formed (items : List Statement)
    (formed : Statement.AllFormed good items) : Statement.AllWritten good items := by
  cases items with
  | nil => exact trivial
  | cons first rest =>
      exact ⟨first.written_of_formed formed.1, Statement.allWritten_of_formed rest formed.2⟩

/-- The leaves of formed declarations are good. -/
theorem Declarator.allWritten_of_formed (items : List Declarator)
    (formed : Declarator.AllFormed good items) : Declarator.AllWritten good items := by
  cases items with
  | nil => exact trivial
  | cons first rest =>
      cases first with
      | mk name value span =>
          cases value with
          | none => exact ⟨formed.1, Declarator.allWritten_of_formed rest formed.2⟩
          | some value =>
              exact ⟨formed.1, value.written_of_formed formed.2.1,
                Declarator.allWritten_of_formed rest formed.2.2⟩

/-- The leaves of a formed branch are good. -/
theorem Branch.written_of_formed (branch : Branch) (formed : branch.Formed good) :
    branch.Written good := by
  cases branch with
  | braced block => exact block.written_of_formed formed
  | single statement => exact statement.written_of_formed formed.2

/-- The leaves of a formed second branch are good. -/
theorem Branch.alternateWritten_of_formed (branch : Option Branch)
    (formed : Branch.AlternateFormed good branch) : Branch.AlternateWritten good branch := by
  cases branch with
  | none => exact trivial
  | some branch => exact branch.written_of_formed formed

end

end ScriptStrip
