import ScriptStrip.Proofs.Erased
import ScriptStrip.Proofs.Formed
import ScriptStrip.Tree.Print
/-
This file adds to a tree the parentheses that the printed text has and the tree does not have.
The tree that comes of it is well shaped, and it means and prints the same.
-/

namespace ScriptStrip

/-- Parentheses around the expression where the condition asks for them. -/
def Expression.groupedIf (condition : Bool) (expression : Expression) : Expression :=
  if condition then .group expression .null else expression

@[simp] theorem Expression.groupedIf_true (expression : Expression) :
    expression.groupedIf true = .group expression .null := rfl

@[simp] theorem Expression.groupedIf_false (expression : Expression) :
    expression.groupedIf false = expression := rfl

mutual

/-- The expression as its printed text is read. -/
def Expression.regrouped : Expression → Expression
  | .number digits span => .number digits span
  | .string content quote span => .string content quote span
  | .boolean value span => .boolean value span
  | .null span => .null span
  | .undefined span => .undefined span
  | .array items span => .array (Expression.regroupedAll items) span
  | .object members span => .object (Member.regroupedAll members) span
  | .function definition => .function definition.regrouped
  | .group inner span => .group inner.regrouped span
  | .reference name span => .reference name span
  | .property parent name span =>
      .property (parent.regrouped.groupedIf
        (parent.isBareInteger || parent.precedence < Precedence.member)) name span
  | .index parent key span =>
      .index (parent.regrouped.groupedIf (parent.precedence < Precedence.member)) key.regrouped span
  | .call callee arguments span =>
      .call (callee.regrouped.groupedIf (callee.precedence < Precedence.member))
        (Expression.regroupedAll arguments) span
  | .unary operator operand span =>
      if operator = .void ∧ operand.isBareZero = true then .undefined span
      else .unary operator
        (operand.regrouped.groupedIf (operand.precedence < Precedence.unary)) span
  | .binary left operator right span =>
      .binary (left.regrouped.groupedIf (left.precedence < operator.precedence)) operator
        (right.regrouped.groupedIf (right.precedence < operator.precedence + 1)) span
  | .assign target value span => .assign target.regrouped value.regrouped span

/-- Each expression of a list is given the parentheses that it needs. -/
def Expression.regroupedAll : List Expression → List Expression
  | [] => []
  | first :: rest => first.regrouped :: Expression.regroupedAll rest

/-- An absent expression is given none. -/
def Expression.regroupedOption : Option Expression → Option Expression
  | none => none
  | some value => some value.regrouped

/-- The values of an object are given the parentheses that they need. -/
def Member.regroupedAll : List Member → List Member
  | [] => []
  | ⟨key, value, span⟩ :: rest => ⟨key, value.regrouped, span⟩ :: Member.regroupedAll rest

/-- The body of a function is given the parentheses that it needs. -/
def FunctionDef.regrouped : FunctionDef → FunctionDef
  | ⟨name, parameters, body, span⟩ => ⟨name, parameters, body.regrouped, span⟩

/-- The statements of a block are given the parentheses that they need. -/
def Block.regrouped : Block → Block
  | ⟨items, span⟩ => ⟨Statement.regroupedAll items, span⟩

/-- An expression that opens like another statement is put in parentheses. -/
def Statement.regrouped : Statement → Statement
  | .expression value span =>
      .expression (value.regrouped.groupedIf value.isAmbiguousAtStart) span
  | .declaration word items span => .declaration word (Declarator.regroupedAll items) span
  | .function definition => .function definition.regrouped
  | .conditional condition consequent alternate span =>
      .conditional condition.regrouped consequent.regrouped (Branch.regroupedOption alternate) span
  | .returning value span => .returning (Expression.regroupedOption value) span
  | .block inner => .block inner.regrouped
  | .empty span => .empty span

/-- Each statement of a list is given the parentheses that it needs. -/
def Statement.regroupedAll : List Statement → List Statement
  | [] => []
  | first :: rest => first.regrouped :: Statement.regroupedAll rest

/-- The initial values are given the parentheses that they need. -/
def Declarator.regroupedAll : List Declarator → List Declarator
  | [] => []
  | ⟨name, value, span⟩ :: rest =>
      ⟨name, Expression.regroupedOption value, span⟩ :: Declarator.regroupedAll rest

/-- A branch is given the parentheses that its block or statement needs. -/
def Branch.regrouped : Branch → Branch
  | .braced block => .braced block.regrouped
  | .single statement => .single statement.regrouped

/-- A missing branch is given none. -/
def Branch.regroupedOption : Option Branch → Option Branch
  | none => none
  | some branch => some branch.regrouped

end

/-- The script as its printed text is read. -/
def Script.regrouped (script : Script) : Script :=
  ⟨Statement.regroupedAll script.items, script.span⟩

namespace Expression

/-- Inner parentheses do not change how tightly an expression binds. -/
@[simp] theorem precedence_regrouped (expression : Expression) :
    expression.regrouped.precedence = expression.precedence := by
  cases expression with
  | unary operator operand span =>
      rw [regrouped]
      split <;> rfl
  | _ => rfl

@[simp] theorem isBareInteger_regrouped (expression : Expression) :
    expression.regrouped.isBareInteger = expression.isBareInteger := by
  cases expression with
  | unary operator operand span =>
      rw [regrouped]
      split <;> rfl
  | _ => rfl

@[simp] theorem isBareZero_regrouped (expression : Expression) :
    expression.regrouped.isBareZero = expression.isBareZero := by
  cases expression with
  | unary operator operand span =>
      rw [regrouped]
      split <;> rfl
  | _ => rfl

@[simp] theorem isSigned_regrouped (expression : Expression) :
    expression.regrouped.isSigned = expression.isSigned := by
  cases expression with
  | unary operator operand span =>
      rw [regrouped]
      split
      · rename_i isUndefined
        obtain ⟨rfl, _⟩ := isUndefined
        rfl
      · cases operator <;> rfl
  | _ => rfl

/-- Inner parentheses do not change the sign in front. -/
@[simp] theorem hasSign_regrouped (operator : UnaryOperator) (expression : Expression) :
    expression.regrouped.hasSign operator = expression.hasSign operator := by
  cases expression with
  | unary inner operand span =>
      rw [regrouped]
      split
      · rename_i isUndefined
        obtain ⟨rfl, _⟩ := isUndefined
        rfl
      · cases inner <;> rfl
  | _ => rfl

/-- A target stays a target, and nothing else becomes one. -/
@[simp] theorem isTarget_regrouped (expression : Expression) :
    expression.regrouped.IsTarget ↔ expression.IsTarget := by
  rw [← Grammar.isTarget_iff, ← Grammar.isTarget_iff]
  cases expression with
  | unary operator operand span =>
      rw [regrouped]
      split <;> rfl
  | _ => rfl

/-- A number is never taken for another statement. -/
theorem isAmbiguousAtStart_of_isBareInteger {expression : Expression}
    (isBare : expression.isBareInteger = true) : expression.isAmbiguousAtStart = false := by
  cases expression with
  | number digits span => rfl
  | _ => cases isBare

/-- No expression binds less tightly than an assignment. -/
theorem assignment_le_precedence (expression : Expression) :
    .assignment ≤ expression.precedence := by
  cases expression with
  | binary left operator right span =>
      exact Nat.le_trans (by decide) operator.logicalOr_le_precedence
  | _ => exact Nat.le_of_ble_eq_true rfl

/-- The printer finds an opening that a reader takes for another statement. -/
theorem opensLikeStatement_of_isAmbiguousAtStart {expression : Expression}
    (ambiguous : expression.isAmbiguousAtStart = true) :
    expression.opensLikeStatement = true := by
  fun_induction isAmbiguousAtStart expression with
  | case8 => cases ambiguous
  | _ => simp_all [opensLikeStatement]

/-- With the parentheses that it needs, a part binds as tightly as its place asks. -/
theorem le_precedence_groupedIf (expression : Expression) (minimum : Precedence)
    (small : minimum ≤ .primary) :
    minimum ≤ (expression.regrouped.groupedIf (expression.precedence < minimum)).precedence := by
  by_cases looser : expression.precedence < minimum
  · rw [decide_eq_true looser]
    exact small
  · rw [decide_eq_false looser, groupedIf_false, precedence_regrouped]
    exact Nat.le_of_not_lt looser

/-- Parentheses hide how the expression starts. -/
theorem opensLikeStatement_groupedIf (condition : Bool) (expression : Expression) :
    (expression.groupedIf condition).opensLikeStatement =
      (!condition && expression.opensLikeStatement) := by
  cases condition <;> simp [opensLikeStatement]

/-- Parentheses that are added are erased again. -/
theorem erased_groupedIf (condition : Bool) (expression : Expression) :
    (expression.groupedIf condition).erased = expression.erased := by
  cases condition <;> simp [erased]

/-- A bare integer is put in parentheses in front of a dot, but it starts no statement anyway. -/
theorem not_grouped_and_isAmbiguousAtStart (parent : Expression) :
    (!(parent.isBareInteger || decide (parent.precedence < Precedence.member)) &&
        parent.isAmbiguousAtStart) =
      (decide (Precedence.member ≤ parent.precedence) && parent.isAmbiguousAtStart) := by
  by_cases isBare : parent.isBareInteger = true
  · rw [isAmbiguousAtStart_of_isBareInteger isBare, Bool.and_false, Bool.and_false]
  · rw [Bool.of_not_eq_true isBare, Bool.false_or, ← decide_not]
    simp only [Nat.not_lt]

/-- Every expression that would open like a statement is put in parentheses. -/
theorem opensLikeStatement_regrouped (expression : Expression) :
    expression.regrouped.opensLikeStatement = expression.isAmbiguousAtStart := by
  cases expression with
  | property parent name span =>
      rw [regrouped, opensLikeStatement, opensLikeStatement_groupedIf,
        opensLikeStatement_regrouped parent, not_grouped_and_isAmbiguousAtStart, isAmbiguousAtStart]
  | index parent key span =>
      rw [regrouped, opensLikeStatement, opensLikeStatement_groupedIf,
        opensLikeStatement_regrouped parent, isAmbiguousAtStart, ← decide_not]
      simp only [Nat.not_lt]
  | call callee arguments span =>
      rw [regrouped, opensLikeStatement, opensLikeStatement_groupedIf,
        opensLikeStatement_regrouped callee, isAmbiguousAtStart, ← decide_not]
      simp only [Nat.not_lt]
  | unary operator operand span =>
      rw [regrouped]
      split <;> rfl
  | binary left operator right span =>
      rw [regrouped, opensLikeStatement, opensLikeStatement_groupedIf,
        opensLikeStatement_regrouped left, isAmbiguousAtStart, ← decide_not]
      simp only [Nat.not_lt]
  | assign target value span =>
      have lowest := target.assignment_le_precedence
      rw [regrouped, opensLikeStatement, opensLikeStatement_regrouped target, isAmbiguousAtStart,
        decide_eq_true lowest, Bool.true_and]
  | _ => rfl

end Expression

mutual

@[simp] theorem Statement.endsOpen_regrouped (statement : Statement) :
    statement.regrouped.endsOpen = statement.endsOpen := by
  cases statement with
  | conditional condition consequent alternate span =>
      simp [Statement.regrouped, Statement.endsOpen, Branch.alternateEndsOpen_regrouped alternate]
  | _ => rfl

@[simp] theorem Branch.endsOpen_regrouped (branch : Branch) :
    branch.regrouped.endsOpen = branch.endsOpen := by
  cases branch with
  | braced block => rfl
  | single statement =>
      simp [Branch.regrouped, Branch.endsOpen, Statement.endsOpen_regrouped statement]

@[simp] theorem Branch.alternateEndsOpen_regrouped (branch : Option Branch) :
    Branch.alternateEndsOpen (Branch.regroupedOption branch) = Branch.alternateEndsOpen branch := by
  cases branch with
  | none => rfl
  | some branch =>
      simp [Branch.regroupedOption, Branch.alternateEndsOpen, Branch.endsOpen_regrouped branch]

end

/-- Regrouping keeps the name of a function. -/
theorem FunctionDef.name_regrouped (definition : FunctionDef) :
    definition.regrouped.name = definition.name := by
  cases definition
  rfl

/-- Regrouping keeps the number of declared names. -/
theorem Declarator.regroupedAll_ne_nil {items : List Declarator} (nonempty : items ≠ []) :
    Declarator.regroupedAll items ≠ [] := by
  cases items with
  | nil => exact absurd rfl nonempty
  | cons first rest =>
      cases first
      exact List.cons_ne_nil _ _

section

variable {good : Lexeme → Prop}

/-- Parentheses around an expression keep its shape. -/
theorem Expression.wellShaped_groupedIf {condition : Bool} {expression : Expression}
    (wellShaped : expression.WellShaped) : (expression.groupedIf condition).WellShaped := by
  cases condition <;> exact wellShaped

mutual

/-- With the parentheses that it needs, a formed expression is well shaped. -/
theorem Expression.wellShaped_regrouped (expression : Expression)
    (formed : expression.Formed good) : expression.regrouped.WellShaped := by
  cases expression with
  | array items span => exact Expression.allWellShaped_regrouped items formed
  | object members span => exact Member.allWellShaped_regrouped members formed
  | function definition => exact FunctionDef.wellShaped_regrouped definition formed
  | group inner span => exact Expression.wellShaped_regrouped inner formed
  | property parent name span =>
      have wellShaped := Expression.wellShaped_regrouped parent formed.1
      refine ⟨?_, Expression.wellShaped_groupedIf wellShaped⟩
      by_cases isBare : parent.isBareInteger = true
      · rw [isBare, Bool.true_or]
        exact Nat.le_of_ble_eq_true rfl
      · rw [Bool.of_not_eq_true isBare, Bool.false_or]
        exact parent.le_precedence_groupedIf _ (by decide)
  | index parent key span =>
      have wellShaped := Expression.wellShaped_regrouped parent formed.1
      exact ⟨parent.le_precedence_groupedIf _ (by decide),
        Expression.wellShaped_groupedIf wellShaped, Expression.wellShaped_regrouped key formed.2⟩
  | call callee arguments span =>
      have wellShaped := Expression.wellShaped_regrouped callee formed.1
      exact ⟨callee.le_precedence_groupedIf _ (by decide),
        Expression.wellShaped_groupedIf wellShaped,
        Expression.allWellShaped_regrouped arguments formed.2⟩
  | unary operator operand span =>
      have wellShaped := Expression.wellShaped_regrouped operand formed
      rw [Expression.regrouped]
      split
      · exact trivial
      · rename_i notUndefined
        refine ⟨operand.le_precedence_groupedIf _ (by decide), ?_,
          Expression.wellShaped_groupedIf wellShaped⟩
        rintro ⟨isVoid, isZero⟩
        by_cases looser : operand.precedence < Precedence.unary
        · rw [decide_eq_true looser] at isZero
          cases isZero
        · rw [decide_eq_false looser, Expression.groupedIf_false,
            Expression.isBareZero_regrouped] at isZero
          exact notUndefined ⟨isVoid, isZero⟩
  | binary left operator right span =>
      have small : operator.precedence + 1 ≤ .primary :=
        Nat.le_trans operator.precedence_lt_unary (by decide)
      exact ⟨left.le_precedence_groupedIf _ (Nat.le_of_succ_le small),
        right.le_precedence_groupedIf _ small,
        Expression.wellShaped_groupedIf (Expression.wellShaped_regrouped left formed.1),
        Expression.wellShaped_groupedIf (Expression.wellShaped_regrouped right formed.2)⟩
  | assign target value span =>
      refine ⟨?_, Expression.wellShaped_regrouped target formed.2.1,
        Expression.wellShaped_regrouped value formed.2.2⟩
      rw [Expression.isTarget_regrouped]
      exact formed.1
  | _ => exact trivial

/-- Regrouping gives formed expressions their shape. -/
theorem Expression.allWellShaped_regrouped (items : List Expression)
    (formed : Expression.AllFormed good items) :
    Expression.AllWellShaped (Expression.regroupedAll items) := by
  cases items with
  | nil => exact trivial
  | cons first rest =>
      exact ⟨Expression.wellShaped_regrouped first formed.1,
        Expression.allWellShaped_regrouped rest formed.2⟩

/-- Regrouping gives formed members their shape. -/
theorem Member.allWellShaped_regrouped (members : List Member)
    (formed : Member.AllFormed good members) :
    Member.AllWellShaped (Member.regroupedAll members) := by
  cases members with
  | nil => exact trivial
  | cons first rest =>
      cases first with
      | mk key value span =>
          exact ⟨Expression.wellShaped_regrouped value formed.2.1,
            Member.allWellShaped_regrouped rest formed.2.2⟩

/-- Regrouping gives a formed function its shape. -/
theorem FunctionDef.wellShaped_regrouped (definition : FunctionDef)
    (formed : definition.Formed good) : definition.regrouped.WellShaped := by
  cases definition with
  | mk name parameters body span => exact Block.wellShaped_regrouped body formed.2.2

/-- Regrouping gives a formed block its shape. -/
theorem Block.wellShaped_regrouped (block : Block) (formed : block.Formed good) :
    block.regrouped.WellShaped := by
  cases block with
  | mk items span => exact Statement.allWellShaped_regrouped items formed

/-- Regrouping gives a formed statement its shape. -/
theorem Statement.wellShaped_regrouped (statement : Statement) (formed : statement.Formed good) :
    statement.regrouped.WellShaped := by
  cases statement with
  | expression value span =>
      refine ⟨?_, Expression.wellShaped_groupedIf (Expression.wellShaped_regrouped value formed)⟩
      rw [Expression.opensLikeStatement_groupedIf, Expression.opensLikeStatement_regrouped,
        Bool.not_and_self]
  | declaration word items span =>
      exact ⟨Declarator.regroupedAll_ne_nil formed.1,
        Declarator.allWellShaped_regrouped items formed.2⟩
  | function definition =>
      refine ⟨?_, FunctionDef.wellShaped_regrouped definition formed.2⟩
      rw [FunctionDef.name_regrouped]
      exact formed.1
  | conditional condition consequent alternate span =>
      obtain ⟨formedCondition, formedBranch, closed, formedAlternate⟩ := formed
      refine ⟨Expression.wellShaped_regrouped condition formedCondition,
        Branch.wellShaped_regrouped consequent formedBranch, ?_,
        Branch.alternateWellShaped_regrouped alternate formedAlternate⟩
      intro hasAlternate
      rw [Branch.endsOpen_regrouped]
      apply closed
      rintro rfl
      exact hasAlternate rfl
  | returning value span =>
      cases value with
      | none => exact trivial
      | some value => exact Expression.wellShaped_regrouped value formed
  | block inner => exact Block.wellShaped_regrouped inner formed
  | empty span => exact trivial

/-- Regrouping gives formed statements their shape. -/
theorem Statement.allWellShaped_regrouped (items : List Statement)
    (formed : Statement.AllFormed good items) :
    Statement.AllWellShaped (Statement.regroupedAll items) := by
  cases items with
  | nil => exact trivial
  | cons first rest =>
      exact ⟨Statement.wellShaped_regrouped first formed.1,
        Statement.allWellShaped_regrouped rest formed.2⟩

/-- Regrouping gives formed declared names their shape. -/
theorem Declarator.allWellShaped_regrouped (items : List Declarator)
    (formed : Declarator.AllFormed good items) :
    Declarator.AllWellShaped (Declarator.regroupedAll items) := by
  cases items with
  | nil => exact trivial
  | cons first rest =>
      cases first with
      | mk name value span =>
          cases value with
          | none => exact Declarator.allWellShaped_regrouped rest formed.2
          | some value =>
              exact ⟨Expression.wellShaped_regrouped value formed.2.1,
                Declarator.allWellShaped_regrouped rest formed.2.2⟩

/-- Regrouping gives a formed branch its shape. -/
theorem Branch.wellShaped_regrouped (branch : Branch) (formed : branch.Formed good) :
    branch.regrouped.WellShaped := by
  cases branch with
  | braced block => exact Block.wellShaped_regrouped block formed
  | single statement =>
      refine ⟨?_, Statement.wellShaped_regrouped statement formed.2⟩
      intro inner isBlock
      cases statement with
      | block inner' => exact formed.1 inner' rfl
      | _ => cases isBlock

/-- Regrouping gives a formed second branch its shape. -/
theorem Branch.alternateWellShaped_regrouped (branch : Option Branch)
    (formed : Branch.AlternateFormed good branch) :
    Branch.AlternateWellShaped (Branch.regroupedOption branch) := by
  cases branch with
  | none => exact trivial
  | some branch => exact Branch.wellShaped_regrouped branch formed

end

/-- What can be printed is well shaped as soon as its parentheses are added. -/
theorem Script.wellShaped_regrouped {script : Script} (formed : script.Formed good) :
    script.regrouped.WellShaped :=
  Statement.allWellShaped_regrouped script.items formed

end

/-- A bare zero has no parentheses to erase. -/
theorem Expression.isBareZero_erased {expression : Expression}
    (isZero : expression.isBareZero = true) : expression.erased.isBareZero = true := by
  obtain ⟨span, rfl⟩ := Expression.isBareZero_iff.mp isZero
  rfl

/-- Erasure changes no semicolon. -/
theorem Statement.needsSemicolon_erased (statement : Statement) :
    statement.erased.needsSemicolon = statement.needsSemicolon := by
  cases statement <;> rfl

mutual

/-- Regrouping adds nothing but parentheses to an expression. -/
theorem Expression.erased_regrouped (expression : Expression) :
    expression.regrouped.erased = expression.erased := by
  cases expression with
  | array items span =>
      simp [Expression.regrouped, Expression.erased, Expression.erasedAll_regroupedAll items]
  | object members span =>
      simp [Expression.regrouped, Expression.erased, Member.erasedAll_regroupedAll members]
  | function definition =>
      simp [Expression.regrouped, Expression.erased, FunctionDef.erased_regrouped definition]
  | group inner span =>
      simp [Expression.regrouped, Expression.erased, Expression.erased_regrouped inner]
  | property parent name span =>
      rw [Expression.regrouped, Expression.erased, Expression.erased_groupedIf,
        Expression.erased_regrouped parent, Expression.erased]
  | index parent key span =>
      rw [Expression.regrouped, Expression.erased, Expression.erased_groupedIf,
        Expression.erased_regrouped parent, Expression.erased_regrouped key, Expression.erased]
  | call callee arguments span =>
      rw [Expression.regrouped, Expression.erased, Expression.erased_groupedIf,
        Expression.erased_regrouped callee, Expression.erasedAll_regroupedAll arguments,
        Expression.erased]
  | unary operator operand span =>
      rw [Expression.regrouped, Expression.erased]
      split
      · rename_i isUndefined
        rw [if_pos ⟨isUndefined.1, Expression.isBareZero_erased isUndefined.2⟩, Expression.erased]
      · rw [Expression.erased, Expression.erased_groupedIf, Expression.erased_regrouped operand]
  | binary left operator right span =>
      rw [Expression.regrouped, Expression.erased, Expression.erased_groupedIf,
        Expression.erased_groupedIf, Expression.erased_regrouped left,
        Expression.erased_regrouped right, Expression.erased]
  | assign target value span =>
      rw [Expression.regrouped, Expression.erased, Expression.erased_regrouped target,
        Expression.erased_regrouped value, Expression.erased]
  | _ => rfl

/-- Regrouping adds nothing but parentheses to a list of expressions. -/
theorem Expression.erasedAll_regroupedAll (items : List Expression) :
    Expression.erasedAll (Expression.regroupedAll items) = Expression.erasedAll items := by
  cases items with
  | nil => rfl
  | cons first rest =>
      simp [Expression.regroupedAll, Expression.erasedAll, Expression.erased_regrouped first,
        Expression.erasedAll_regroupedAll rest]

/-- Regrouping adds nothing but parentheses to an object. -/
theorem Member.erasedAll_regroupedAll (members : List Member) :
    Member.erasedAll (Member.regroupedAll members) = Member.erasedAll members := by
  cases members with
  | nil => rfl
  | cons first rest =>
      cases first with
      | mk key value span =>
          simp [Member.regroupedAll, Member.erasedAll, Expression.erased_regrouped value,
            Member.erasedAll_regroupedAll rest]

/-- Regrouping adds nothing but parentheses to a function. -/
theorem FunctionDef.erased_regrouped (definition : FunctionDef) :
    definition.regrouped.erased = definition.erased := by
  cases definition with
  | mk name parameters body span =>
      simp [FunctionDef.regrouped, FunctionDef.erased, Block.erased_regrouped body]

/-- Regrouping adds nothing but parentheses to a block. -/
theorem Block.erased_regrouped (block : Block) : block.regrouped.erased = block.erased := by
  cases block with
  | mk items span => simp [Block.regrouped, Block.erased, Statement.erasedAll_regroupedAll items]

/-- Regrouping adds nothing but parentheses to a statement. -/
theorem Statement.erased_regrouped (statement : Statement) :
    statement.regrouped.erased = statement.erased := by
  cases statement with
  | expression value span =>
      rw [Statement.regrouped, Statement.erased, Expression.erased_groupedIf,
        Expression.erased_regrouped value, Statement.erased]
  | declaration word items span =>
      simp [Statement.regrouped, Statement.erased, Declarator.erasedAll_regroupedAll items]
  | function definition =>
      simp [Statement.regrouped, Statement.erased, FunctionDef.erased_regrouped definition]
  | conditional condition consequent alternate span =>
      simp [Statement.regrouped, Statement.erased, Expression.erased_regrouped condition,
        Branch.erased_regrouped consequent, Branch.erasedOption_regroupedOption alternate]
  | returning value span =>
      simp [Statement.regrouped, Statement.erased, Expression.erasedOption_regroupedOption value]
  | block inner => simp [Statement.regrouped, Statement.erased, Block.erased_regrouped inner]
  | empty span => rfl

/-- Regrouping adds nothing but parentheses to a list of statements. -/
theorem Statement.erasedAll_regroupedAll (items : List Statement) :
    Statement.erasedAll (Statement.regroupedAll items) = Statement.erasedAll items := by
  cases items with
  | nil => rfl
  | cons first rest =>
      simp [Statement.regroupedAll, Statement.erasedAll, Statement.erased_regrouped first,
        Statement.erasedAll_regroupedAll rest]

/-- Regrouping adds nothing but parentheses to a declaration. -/
theorem Declarator.erasedAll_regroupedAll (items : List Declarator) :
    Declarator.erasedAll (Declarator.regroupedAll items) = Declarator.erasedAll items := by
  cases items with
  | nil => rfl
  | cons first rest =>
      cases first with
      | mk name value span =>
          simp [Declarator.regroupedAll, Declarator.erasedAll,
            Expression.erasedOption_regroupedOption value, Declarator.erasedAll_regroupedAll rest]

/-- Regrouping adds no expression where there is none. -/
theorem Expression.erasedOption_regroupedOption (value : Option Expression) :
    Expression.erasedOption (Expression.regroupedOption value) = Expression.erasedOption value := by
  cases value with
  | none => rfl
  | some value =>
      simp [Expression.regroupedOption, Expression.erasedOption, Expression.erased_regrouped value]

/-- Regrouping adds nothing but parentheses to a branch. -/
theorem Branch.erased_regrouped (branch : Branch) : branch.regrouped.erased = branch.erased := by
  cases branch with
  | braced block => simp [Branch.regrouped, Branch.erased, Block.erased_regrouped block]
  | single statement =>
      simp [Branch.regrouped, Branch.erased, Statement.erased_regrouped statement]

/-- Regrouping adds no branch where there is none. -/
theorem Branch.erasedOption_regroupedOption (branch : Option Branch) :
    Branch.erasedOption (Branch.regroupedOption branch) = Branch.erasedOption branch := by
  cases branch with
  | none => rfl
  | some branch =>
      simp [Branch.regroupedOption, Branch.erasedOption, Branch.erased_regrouped branch]

end

/-- The parentheses that are added do not change what the script means. -/
theorem Script.erased_regrouped (script : Script) : script.regrouped.erased = script.erased := by
  rw [Script.regrouped, Script.erased, Script.erased, Statement.erasedAll_regroupedAll]

end ScriptStrip
