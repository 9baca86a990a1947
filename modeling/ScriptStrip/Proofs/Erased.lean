import ScriptStrip.Proofs.WellShaped
/-
This file takes the parentheses out of a tree. What is left is what the tree means, and it does
not depend on how the tree was written down.
-/

namespace ScriptStrip

mutual

/-- The expression without parentheses. The undefined value is written as `void 0`, so that is
what `void` in front of this number means. -/
def Expression.erased : Expression → Expression
  | .number digits span => .number digits span
  | .string content quote span => .string content quote span
  | .boolean value span => .boolean value span
  | .null span => .null span
  | .undefined span => .undefined span
  | .array items span => .array (Expression.erasedAll items) span
  | .object members span => .object (Member.erasedAll members) span
  | .function definition => .function definition.erased
  | .group inner _ => inner.erased
  | .reference name span => .reference name span
  | .property parent name span => .property parent.erased name span
  | .index parent key span => .index parent.erased key.erased span
  | .call callee arguments span => .call callee.erased (Expression.erasedAll arguments) span
  | .unary operator operand span =>
      if operator = .void ∧ operand.erased.isBareZero = true then .undefined span
      else .unary operator operand.erased span
  | .binary left operator right span => .binary left.erased operator right.erased span
  | .assign target value span => .assign target.erased value.erased span

/-- Each expression of a list is erased on its own. -/
def Expression.erasedAll : List Expression → List Expression
  | [] => []
  | first :: rest => first.erased :: Expression.erasedAll rest

/-- An absent expression has no parentheses. -/
def Expression.erasedOption : Option Expression → Option Expression
  | none => none
  | some value => some value.erased

/-- The values of an object lose their parentheses. -/
def Member.erasedAll : List Member → List Member
  | [] => []
  | ⟨key, value, span⟩ :: rest => ⟨key, value.erased, span⟩ :: Member.erasedAll rest

/-- The body of a function loses its parentheses. -/
def FunctionDef.erased : FunctionDef → FunctionDef
  | ⟨name, parameters, body, span⟩ => ⟨name, parameters, body.erased, span⟩

/-- The statements of a block lose their parentheses. -/
def Block.erased : Block → Block
  | ⟨items, span⟩ => ⟨Statement.erasedAll items, span⟩

/-- The expressions in a statement lose their parentheses. -/
def Statement.erased : Statement → Statement
  | .expression value span => .expression value.erased span
  | .declaration word items span => .declaration word (Declarator.erasedAll items) span
  | .function definition => .function definition.erased
  | .conditional condition consequent alternate span =>
      .conditional condition.erased consequent.erased (Branch.erasedOption alternate) span
  | .returning value span => .returning (Expression.erasedOption value) span
  | .block inner => .block inner.erased
  | .empty span => .empty span

/-- Each statement of a list is erased on its own. -/
def Statement.erasedAll : List Statement → List Statement
  | [] => []
  | first :: rest => first.erased :: Statement.erasedAll rest

/-- The initial values of declared names lose their parentheses. -/
def Declarator.erasedAll : List Declarator → List Declarator
  | [] => []
  | ⟨name, value, span⟩ :: rest =>
      ⟨name, Expression.erasedOption value, span⟩ :: Declarator.erasedAll rest

/-- A branch is erased as its block or its statement. -/
def Branch.erased : Branch → Branch
  | .braced block => .braced block.erased
  | .single statement => .single statement.erased

/-- A missing branch has no parentheses. -/
def Branch.erasedOption : Option Branch → Option Branch
  | none => none
  | some branch => some branch.erased

end

/-- The script without the parentheses that its expressions are written in. -/
def Script.erased (script : Script) : Script :=
  ⟨Statement.erasedAll script.items, script.span⟩

mutual

/-- Parentheses and places are taken out in either order. -/
theorem Expression.erased_placeless (expression : Expression) :
    expression.placeless.erased = expression.erased.placeless := by
  cases expression with
  | array items span =>
      simp [Expression.placeless, Expression.erased, Expression.erasedAll_placelessAll items]
  | object members span =>
      simp [Expression.placeless, Expression.erased, Member.erasedAll_placelessAll members]
  | function definition =>
      simp [Expression.placeless, Expression.erased, FunctionDef.erased_placeless definition]
  | group inner span =>
      simp [Expression.placeless, Expression.erased, Expression.erased_placeless inner]
  | property parent name span =>
      simp [Expression.placeless, Expression.erased, Expression.erased_placeless parent]
  | index parent key span =>
      simp [Expression.placeless, Expression.erased, Expression.erased_placeless parent,
        Expression.erased_placeless key]
  | call callee arguments span =>
      simp [Expression.placeless, Expression.erased, Expression.erased_placeless callee,
        Expression.erasedAll_placelessAll arguments]
  | unary operator operand span =>
      simp only [Expression.placeless, Expression.erased, Expression.erased_placeless operand,
        Expression.isBareZero_placeless]
      split <;> simp [Expression.placeless]
  | binary left operator right span =>
      simp [Expression.placeless, Expression.erased, Expression.erased_placeless left,
        Expression.erased_placeless right]
  | assign target value span =>
      simp [Expression.placeless, Expression.erased, Expression.erased_placeless target,
        Expression.erased_placeless value]
  | _ => simp [Expression.placeless, Expression.erased]

/-- The same holds of a list of expressions. -/
theorem Expression.erasedAll_placelessAll (items : List Expression) :
    Expression.erasedAll (Expression.placelessAll items) =
      Expression.placelessAll (Expression.erasedAll items) := by
  cases items with
  | nil => simp [Expression.placelessAll, Expression.erasedAll]
  | cons first rest =>
      simp [Expression.placelessAll, Expression.erasedAll, Expression.erased_placeless first,
        Expression.erasedAll_placelessAll rest]

/-- The same holds of the members of an object. -/
theorem Member.erasedAll_placelessAll (members : List Member) :
    Member.erasedAll (Member.placelessAll members) =
      Member.placelessAll (Member.erasedAll members) := by
  cases members with
  | nil => simp [Member.placelessAll, Member.erasedAll]
  | cons first rest =>
      cases first with
      | mk key value span =>
          simp [Member.placelessAll, Member.erasedAll, Expression.erased_placeless value,
            Member.erasedAll_placelessAll rest]

/-- The same holds of a function. -/
theorem FunctionDef.erased_placeless (definition : FunctionDef) :
    definition.placeless.erased = definition.erased.placeless := by
  cases definition with
  | mk name parameters body span =>
      simp [FunctionDef.placeless, FunctionDef.erased, Block.erased_placeless body]

/-- The same holds of a block. -/
theorem Block.erased_placeless (block : Block) :
    block.placeless.erased = block.erased.placeless := by
  cases block with
  | mk items span =>
      simp [Block.placeless, Block.erased, Statement.erasedAll_placelessAll items]

/-- The same holds of a statement. -/
theorem Statement.erased_placeless (statement : Statement) :
    statement.placeless.erased = statement.erased.placeless := by
  cases statement with
  | expression value span =>
      simp [Statement.placeless, Statement.erased, Expression.erased_placeless value]
  | declaration word items span =>
      simp [Statement.placeless, Statement.erased, Declarator.erasedAll_placelessAll items]
  | function definition =>
      simp [Statement.placeless, Statement.erased, FunctionDef.erased_placeless definition]
  | conditional condition consequent alternate span =>
      simp [Statement.placeless, Statement.erased, Expression.erased_placeless condition,
        Branch.erased_placeless consequent, Branch.erasedOption_placelessOption alternate]
  | returning value span =>
      simp [Statement.placeless, Statement.erased, Expression.erasedOption_placelessOption value]
  | block inner => simp [Statement.placeless, Statement.erased, Block.erased_placeless inner]
  | empty span => simp [Statement.placeless, Statement.erased]

/-- The same holds of a list of statements. -/
theorem Statement.erasedAll_placelessAll (items : List Statement) :
    Statement.erasedAll (Statement.placelessAll items) =
      Statement.placelessAll (Statement.erasedAll items) := by
  cases items with
  | nil => simp [Statement.placelessAll, Statement.erasedAll]
  | cons first rest =>
      simp [Statement.placelessAll, Statement.erasedAll, Statement.erased_placeless first,
        Statement.erasedAll_placelessAll rest]

/-- The same holds of declared names. -/
theorem Declarator.erasedAll_placelessAll (items : List Declarator) :
    Declarator.erasedAll (Declarator.placelessAll items) =
      Declarator.placelessAll (Declarator.erasedAll items) := by
  cases items with
  | nil => simp [Declarator.placelessAll, Declarator.erasedAll]
  | cons first rest =>
      cases first with
      | mk name value span =>
          simp [Declarator.placelessAll, Declarator.erasedAll,
            Expression.erasedOption_placelessOption value, Declarator.erasedAll_placelessAll rest]

/-- The same holds of an expression that may be absent. -/
theorem Expression.erasedOption_placelessOption (value : Option Expression) :
    Expression.erasedOption (Expression.placelessOption value) =
      Expression.placelessOption (Expression.erasedOption value) := by
  cases value with
  | none => simp [Expression.placelessOption, Expression.erasedOption]
  | some value =>
      simp [Expression.placelessOption, Expression.erasedOption, Expression.erased_placeless value]

/-- The same holds of a branch. -/
theorem Branch.erased_placeless (branch : Branch) :
    branch.placeless.erased = branch.erased.placeless := by
  cases branch with
  | braced block => simp [Branch.placeless, Branch.erased, Block.erased_placeless block]
  | single statement =>
      simp [Branch.placeless, Branch.erased, Statement.erased_placeless statement]

/-- The same holds of a branch that may be missing. -/
theorem Branch.erasedOption_placelessOption (branch : Option Branch) :
    Branch.erasedOption (Branch.placelessOption branch) =
      Branch.placelessOption (Branch.erasedOption branch) := by
  cases branch with
  | none => simp [Branch.placelessOption, Branch.erasedOption]
  | some branch =>
      simp [Branch.placelessOption, Branch.erasedOption, Branch.erased_placeless branch]

end

/-- Without their parentheses, scripts that differ in their places only have the same structure. -/
theorem Script.same_erased_of_placeless {script other : Script}
    (equal : script.placeless = other.placeless) : script.erased.same other.erased = true := by
  have sameItems := congrArg Script.items equal
  simp only [Script.placeless] at sameItems
  apply Script.same_of_placeless
  simp only [Script.placeless, Script.erased, ← Statement.erasedAll_placelessAll, sameItems]

end ScriptStrip
