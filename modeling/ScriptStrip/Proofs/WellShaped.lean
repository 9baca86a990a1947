import ScriptStrip.Parser.Grammar
import ScriptStrip.Proofs.Placeless
/-
This file says which trees can come from a source text. The shape of a tree does not depend on the
places that its nodes were read from.
-/

namespace ScriptStrip

/-- A disjunction binds least of the binary operators. -/
theorem BinaryOperator.logicalOr_le_precedence (operator : BinaryOperator) :
    .logicalOr ≤ operator.precedence := by
  cases operator <;> decide

/-- Binary operators bind less tightly than unary ones. -/
theorem BinaryOperator.precedence_lt_unary (operator : BinaryOperator) :
    operator.precedence < .unary := by
  cases operator <;> decide

/-- Binary operators bind less tightly than the access to a property. -/
theorem BinaryOperator.precedence_lt_member (operator : BinaryOperator) :
    operator.precedence < .member :=
  Nat.lt_trans operator.precedence_lt_unary (by decide)

/-- The operand on which `void` gives the undefined value. -/
def Expression.isBareZero : Expression → Bool
  | .number "0" _ => true
  | _ => false

/-- The first token of the expression is an opening brace or the word `function`. -/
def Expression.opensLikeStatement : Expression → Bool
  | .object .. | .function .. => true
  | .property first _ _ | .index first _ _ | .call first _ _ | .binary first _ _ _
  | .assign first _ _ => first.opensLikeStatement
  | _ => false

mutual

/-- The statement ends in a condition that could still be given a second branch. -/
def Statement.endsOpen : Statement → Bool
  | .conditional _ _ alternate _ => Branch.alternateEndsOpen alternate
  | _ => false

/-- A braced branch is closed by its brace. -/
def Branch.endsOpen : Branch → Bool
  | .braced _ => false
  | .single statement => statement.endsOpen

/-- A conditional without a second branch can be given one. -/
def Branch.alternateEndsOpen : Option Branch → Bool
  | none => true
  | some branch => branch.endsOpen

end

/-- A variable, a property and a property with a computed name can be assigned to. -/
inductive Expression.IsTarget : Expression → Prop
  | reference {name : String} {span : Span} : IsTarget (.reference name span)
  | property {parent : Expression} {name : String} {span : Span} :
      IsTarget (.property parent name span)
  | index {parent key : Expression} {span : Span} : IsTarget (.index parent key span)

/-- The parser lets these be assigned to and nothing else. -/
theorem Grammar.isTarget_iff {expression : Expression} :
    isTarget expression = true ↔ expression.IsTarget := by
  constructor
  · intro targets
    unfold isTarget at targets
    split at targets
    · exact .reference
    · exact .property
    · exact .index
    · cases targets
  · rintro (_ | _ | _) <;> rfl

mutual

/-- The parts of an expression bind as tightly as their places ask. -/
def Expression.WellShaped : Expression → Prop
  | .array items _ => Expression.AllWellShaped items
  | .object members _ => Member.AllWellShaped members
  | .function definition => definition.WellShaped
  | .group inner _ => inner.WellShaped
  | .property parent _ _ => .member ≤ parent.precedence ∧ parent.WellShaped
  | .index parent key _ => .member ≤ parent.precedence ∧ parent.WellShaped ∧ key.WellShaped
  | .call callee arguments _ =>
      .member ≤ callee.precedence ∧ callee.WellShaped ∧ Expression.AllWellShaped arguments
  | .unary operator operand _ =>
      .unary ≤ operand.precedence ∧ ¬ (operator = .void ∧ operand.isBareZero = true) ∧
        operand.WellShaped
  | .binary left operator right _ =>
      operator.precedence ≤ left.precedence ∧ operator.precedence < right.precedence ∧
        left.WellShaped ∧ right.WellShaped
  | .assign target value _ =>
      target.IsTarget ∧ target.WellShaped ∧ value.WellShaped
  | _ => True

/-- Each expression of the list is well shaped. -/
def Expression.AllWellShaped : List Expression → Prop
  | [] => True
  | first :: rest => first.WellShaped ∧ Expression.AllWellShaped rest

/-- The values of an object are well shaped. -/
def Member.AllWellShaped : List Member → Prop
  | [] => True
  | ⟨_, value, _⟩ :: rest => value.WellShaped ∧ Member.AllWellShaped rest

/-- The body of a function is well shaped. -/
def FunctionDef.WellShaped : FunctionDef → Prop
  | ⟨_, _, body, _⟩ => body.WellShaped

/-- The statements of a block are well shaped. -/
def Block.WellShaped : Block → Prop
  | ⟨items, _⟩ => Statement.AllWellShaped items

/-- A statement must not open like another one, and a branch in front of another must be closed.
-/
def Statement.WellShaped : Statement → Prop
  | .expression value _ => value.opensLikeStatement = false ∧ value.WellShaped
  | .declaration _ items _ => items ≠ [] ∧ Declarator.AllWellShaped items
  | .function definition => definition.name ≠ none ∧ definition.WellShaped
  | .conditional condition consequent alternate _ =>
      condition.WellShaped ∧ consequent.WellShaped ∧
        (alternate ≠ none → consequent.endsOpen = false) ∧ Branch.AlternateWellShaped alternate
  | .returning none _ => True
  | .returning (some value) _ => value.WellShaped
  | .block inner => inner.WellShaped
  | .empty _ => True

/-- Each statement of the list is well shaped. -/
def Statement.AllWellShaped : List Statement → Prop
  | [] => True
  | first :: rest => first.WellShaped ∧ Statement.AllWellShaped rest

/-- The initial values are well shaped. -/
def Declarator.AllWellShaped : List Declarator → Prop
  | [] => True
  | ⟨_, none, _⟩ :: rest => Declarator.AllWellShaped rest
  | ⟨_, some value, _⟩ :: rest => value.WellShaped ∧ Declarator.AllWellShaped rest

/-- A block that stands as a branch is not a single statement. -/
def Branch.WellShaped : Branch → Prop
  | .braced block => block.WellShaped
  | .single statement => (∀ inner, statement ≠ .block inner) ∧ statement.WellShaped

/-- A missing branch has no shape to ask for. -/
def Branch.AlternateWellShaped : Option Branch → Prop
  | none => True
  | some branch => branch.WellShaped

end

/-- The statements of a script are well shaped. -/
def Script.WellShaped (script : Script) : Prop := Statement.AllWellShaped script.items

/-- A list is well shaped if each item is. -/
theorem Expression.allWellShaped_iff {items : List Expression} :
    Expression.AllWellShaped items ↔ ∀ item ∈ items, item.WellShaped := by
  induction items with
  | nil => simp [Expression.AllWellShaped]
  | cons first rest inductionHypothesis =>
      rw [Expression.AllWellShaped, inductionHypothesis, List.forall_mem_cons]

/-- The members are well shaped if each value is. -/
theorem Member.allWellShaped_iff {members : List Member} :
    Member.AllWellShaped members ↔ ∀ member ∈ members, member.value.WellShaped := by
  induction members with
  | nil => simp [Member.AllWellShaped]
  | cons first rest inductionHypothesis =>
      cases first
      rw [Member.AllWellShaped, inductionHypothesis, List.forall_mem_cons]

/-- Declared names are well shaped if each initial value is. -/
theorem Declarator.allWellShaped_cons_iff {first : Declarator} {rest : List Declarator} :
    Declarator.AllWellShaped (first :: rest) ↔
      (∀ value, first.value = some value → value.WellShaped) ∧ Declarator.AllWellShaped rest := by
  rcases first with ⟨name, _ | value, span⟩ <;> simp [Declarator.AllWellShaped]

@[simp] theorem Expression.precedence_placeless (expression : Expression) :
    expression.placeless.precedence = expression.precedence := by
  cases expression <;> rfl

@[simp] theorem Expression.isTarget_placeless (expression : Expression) :
    expression.placeless.IsTarget ↔ expression.IsTarget := by
  rw [← Grammar.isTarget_iff, ← Grammar.isTarget_iff]
  cases expression <;> rfl

/-- A bare zero is written with a single digit. -/
theorem Expression.isBareZero_iff {expression : Expression} :
    expression.isBareZero = true ↔ ∃ span, expression = .number "0" span := by
  unfold Expression.isBareZero
  split
  · simp
  · rename_i other
    simp only [Bool.false_eq_true, false_iff]
    rintro ⟨span, rfl⟩
    exact other span rfl

@[simp] theorem Expression.isBareZero_placeless (expression : Expression) :
    expression.placeless.isBareZero = expression.isBareZero := by
  cases expression <;> try rfl
  case number digits span =>
    rw [Bool.eq_iff_iff, Expression.isBareZero_iff, Expression.isBareZero_iff]
    simp [Expression.placeless]

@[simp] theorem Expression.opensLikeStatement_placeless (expression : Expression) :
    expression.placeless.opensLikeStatement = expression.opensLikeStatement := by
  cases expression with
  | property first name span => exact Expression.opensLikeStatement_placeless first
  | index first key span => exact Expression.opensLikeStatement_placeless first
  | call first arguments span => exact Expression.opensLikeStatement_placeless first
  | binary first operator right span => exact Expression.opensLikeStatement_placeless first
  | assign first value span => exact Expression.opensLikeStatement_placeless first
  | _ => rfl

mutual

@[simp] theorem Statement.endsOpen_placeless (statement : Statement) :
    statement.placeless.endsOpen = statement.endsOpen := by
  cases statement with
  | conditional condition consequent alternate span =>
      simp [Statement.placeless, Statement.endsOpen, Branch.alternateEndsOpen_placeless alternate]
  | _ => rfl

@[simp] theorem Branch.endsOpen_placeless (branch : Branch) :
    branch.placeless.endsOpen = branch.endsOpen := by
  cases branch with
  | braced block => rfl
  | single statement =>
      simp [Branch.placeless, Branch.endsOpen, Statement.endsOpen_placeless statement]

@[simp] theorem Branch.alternateEndsOpen_placeless (branch : Option Branch) :
    Branch.alternateEndsOpen (Branch.placelessOption branch) = Branch.alternateEndsOpen branch := by
  cases branch with
  | none => rfl
  | some branch =>
      simp [Branch.placelessOption, Branch.alternateEndsOpen, Branch.endsOpen_placeless branch]

end

/-- A declaration without places has as many names. -/
theorem Declarator.placelessAll_eq_nil_iff {items : List Declarator} :
    Declarator.placelessAll items = [] ↔ items = [] := by
  rw [Declarator.placelessAll_eq_map, List.map_eq_nil_iff]

/-- A branch is missing with or without places. -/
theorem Branch.placelessOption_eq_none_iff {branch : Option Branch} :
    Branch.placelessOption branch = none ↔ branch = none := by
  cases branch <;> simp [Branch.placelessOption]

mutual

/-- The shape of an expression does not depend on places. -/
theorem Expression.wellShaped_placeless (expression : Expression) :
    expression.placeless.WellShaped ↔ expression.WellShaped := by
  cases expression with
  | array items span =>
      simp only [Expression.placeless, Expression.WellShaped]
      exact Expression.allWellShaped_placeless items
  | object members span =>
      simp only [Expression.placeless, Expression.WellShaped]
      exact Member.allWellShaped_placeless members
  | function definition =>
      simp only [Expression.placeless, Expression.WellShaped]
      exact FunctionDef.wellShaped_placeless definition
  | group inner span =>
      simp only [Expression.placeless, Expression.WellShaped]
      exact Expression.wellShaped_placeless inner
  | property parent name span =>
      simp [Expression.placeless, Expression.WellShaped, Expression.wellShaped_placeless parent]
  | index parent key span =>
      simp [Expression.placeless, Expression.WellShaped, Expression.wellShaped_placeless parent,
        Expression.wellShaped_placeless key]
  | call callee arguments span =>
      simp [Expression.placeless, Expression.WellShaped, Expression.wellShaped_placeless callee,
        Expression.allWellShaped_placeless arguments]
  | unary operator operand span =>
      simp [Expression.placeless, Expression.WellShaped, Expression.wellShaped_placeless operand]
  | binary left operator right span =>
      simp [Expression.placeless, Expression.WellShaped, Expression.wellShaped_placeless left,
        Expression.wellShaped_placeless right]
  | assign target value span =>
      simp [Expression.placeless, Expression.WellShaped, Expression.wellShaped_placeless target,
        Expression.wellShaped_placeless value]
  | _ => simp [Expression.placeless, Expression.WellShaped]

/-- The shape of a list of expressions does not depend on places. -/
theorem Expression.allWellShaped_placeless (items : List Expression) :
    Expression.AllWellShaped (Expression.placelessAll items) ↔ Expression.AllWellShaped items := by
  cases items with
  | nil => rw [Expression.placelessAll]
  | cons first rest =>
      simp [Expression.placelessAll, Expression.AllWellShaped,
        Expression.wellShaped_placeless first, Expression.allWellShaped_placeless rest]

/-- The shape of an object does not depend on places. -/
theorem Member.allWellShaped_placeless (members : List Member) :
    Member.AllWellShaped (Member.placelessAll members) ↔ Member.AllWellShaped members := by
  cases members with
  | nil => rw [Member.placelessAll]
  | cons first rest =>
      cases first with
      | mk key value span =>
          simp [Member.placelessAll, Member.AllWellShaped, Expression.wellShaped_placeless value,
            Member.allWellShaped_placeless rest]

/-- The shape of a function does not depend on places. -/
theorem FunctionDef.wellShaped_placeless (definition : FunctionDef) :
    definition.placeless.WellShaped ↔ definition.WellShaped := by
  cases definition with
  | mk name parameters body span =>
      simp [FunctionDef.placeless, FunctionDef.WellShaped, Block.wellShaped_placeless body]

/-- The shape of a block does not depend on places. -/
theorem Block.wellShaped_placeless (block : Block) :
    block.placeless.WellShaped ↔ block.WellShaped := by
  cases block with
  | mk items span =>
      simp [Block.placeless, Block.WellShaped, Statement.allWellShaped_placeless items]

/-- The shape of a statement does not depend on places. -/
theorem Statement.wellShaped_placeless (statement : Statement) :
    statement.placeless.WellShaped ↔ statement.WellShaped := by
  cases statement with
  | expression value span =>
      simp [Statement.placeless, Statement.WellShaped, Expression.wellShaped_placeless value]
  | declaration word items span =>
      simp [Statement.placeless, Statement.WellShaped, Declarator.allWellShaped_placeless items,
        Declarator.placelessAll_eq_nil_iff]
  | function definition =>
      have sameName : definition.placeless.name = definition.name := by
        cases definition
        rfl
      simp [Statement.placeless, Statement.WellShaped, sameName,
        FunctionDef.wellShaped_placeless definition]
  | conditional condition consequent alternate span =>
      simp [Statement.placeless, Statement.WellShaped, Expression.wellShaped_placeless condition,
        Branch.wellShaped_placeless consequent, Branch.alternateWellShaped_placeless alternate,
        Branch.placelessOption_eq_none_iff]
  | returning value span =>
      cases value with
      | none => simp [Statement.placeless, Statement.WellShaped, Expression.placelessOption]
      | some value =>
          simp [Statement.placeless, Statement.WellShaped, Expression.placelessOption,
            Expression.wellShaped_placeless value]
  | block inner =>
      simp [Statement.placeless, Statement.WellShaped, Block.wellShaped_placeless inner]
  | empty span => simp [Statement.placeless, Statement.WellShaped]

/-- The shape of a list of statements does not depend on places. -/
theorem Statement.allWellShaped_placeless (items : List Statement) :
    Statement.AllWellShaped (Statement.placelessAll items) ↔ Statement.AllWellShaped items := by
  cases items with
  | nil => rw [Statement.placelessAll]
  | cons first rest =>
      simp [Statement.placelessAll, Statement.AllWellShaped,
        Statement.wellShaped_placeless first, Statement.allWellShaped_placeless rest]

/-- The shape of a declaration does not depend on places. -/
theorem Declarator.allWellShaped_placeless (items : List Declarator) :
    Declarator.AllWellShaped (Declarator.placelessAll items) ↔ Declarator.AllWellShaped items := by
  cases items with
  | nil => rw [Declarator.placelessAll]
  | cons first rest =>
      cases first with
      | mk name value span =>
          cases value with
          | none =>
              simp [Declarator.placelessAll, Declarator.AllWellShaped,
                Expression.placelessOption, Declarator.allWellShaped_placeless rest]
          | some value =>
              simp [Declarator.placelessAll, Declarator.AllWellShaped,
                Expression.placelessOption, Expression.wellShaped_placeless value,
                Declarator.allWellShaped_placeless rest]

/-- The shape of a branch does not depend on places. -/
theorem Branch.wellShaped_placeless (branch : Branch) :
    branch.placeless.WellShaped ↔ branch.WellShaped := by
  cases branch with
  | braced block =>
      simp [Branch.placeless, Branch.WellShaped, Block.wellShaped_placeless block]
  | single statement =>
      have sameKind : (∀ inner, statement.placeless ≠ .block inner) ↔
          ∀ inner, statement ≠ .block inner := by
        cases statement <;> simp [Statement.placeless]
      simp only [Branch.placeless, Branch.WellShaped]
      rw [sameKind, Statement.wellShaped_placeless statement]

/-- The shape of a second branch does not depend on places. -/
theorem Branch.alternateWellShaped_placeless (branch : Option Branch) :
    Branch.AlternateWellShaped (Branch.placelessOption branch) ↔
      Branch.AlternateWellShaped branch := by
  cases branch with
  | none => rw [Branch.placelessOption]
  | some branch =>
      simp [Branch.placelessOption, Branch.AlternateWellShaped, Branch.wellShaped_placeless branch]

end

/-- Scripts that differ in their places only are well shaped together. -/
theorem Script.WellShaped.of_placeless {script other : Script} (wellShaped : script.WellShaped)
    (equal : script.placeless = other.placeless) : other.WellShaped := by
  have sameItems := congrArg Script.items equal
  simp only [Script.placeless] at sameItems
  rw [Script.WellShaped, ← Statement.allWellShaped_placeless, ← sameItems,
    Statement.allWellShaped_placeless]
  exact wellShaped

end ScriptStrip
