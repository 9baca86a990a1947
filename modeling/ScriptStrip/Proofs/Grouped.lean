import ScriptStrip.Proofs.Erased
/-
This file says where a tree has all the parentheses that its order of evaluation asks for. It asks
nothing else of the shape of the tree.
-/

namespace ScriptStrip

mutual

/-- No part binds looser than its place asks for, and no statement starts like another one. -/
def Expression.Grouped : Expression → Prop
  | .array items _ => Expression.AllGrouped items
  | .object members _ => Member.AllGrouped members
  | .function definition => definition.Grouped
  | .group inner _ => inner.Grouped
  | .property parent _ _ => .member ≤ parent.precedence ∧ parent.Grouped
  | .index parent key _ => .member ≤ parent.precedence ∧ parent.Grouped ∧ key.Grouped
  | .call callee arguments _ =>
      .member ≤ callee.precedence ∧ callee.Grouped ∧ Expression.AllGrouped arguments
  | .unary _ operand _ => .unary ≤ operand.precedence ∧ operand.Grouped
  | .binary left operator right _ =>
      operator.precedence ≤ left.precedence ∧ operator.precedence < right.precedence ∧
        left.Grouped ∧ right.Grouped
  | .assign target value _ => target.Grouped ∧ value.Grouped
  | _ => True

/-- Each expression of the list has the parentheses that it needs. -/
def Expression.AllGrouped : List Expression → Prop
  | [] => True
  | first :: rest => first.Grouped ∧ Expression.AllGrouped rest

/-- An absent expression needs no parentheses. -/
def Expression.OptionGrouped : Option Expression → Prop
  | none => True
  | some value => value.Grouped

/-- The values of an object have the parentheses that they need. -/
def Member.AllGrouped : List Member → Prop
  | [] => True
  | ⟨_, value, _⟩ :: rest => value.Grouped ∧ Member.AllGrouped rest

/-- The body of a function has the parentheses that it needs. -/
def FunctionDef.Grouped : FunctionDef → Prop
  | ⟨_, _, body, _⟩ => body.Grouped

/-- The statements of a block have the parentheses that they need. -/
def Block.Grouped : Block → Prop
  | ⟨items, _⟩ => Statement.AllGrouped items

/-- An expression that is a statement must not open like another statement. -/
def Statement.Grouped : Statement → Prop
  | .expression value _ => value.opensLikeStatement = false ∧ value.Grouped
  | .declaration _ items _ => Declarator.AllGrouped items
  | .function definition => definition.Grouped
  | .conditional condition consequent alternate _ =>
      condition.Grouped ∧ consequent.Grouped ∧ Branch.AlternateGrouped alternate
  | .returning value _ => Expression.OptionGrouped value
  | .block inner => inner.Grouped
  | .empty _ => True

/-- Each statement of the list has the parentheses that it needs. -/
def Statement.AllGrouped : List Statement → Prop
  | [] => True
  | first :: rest => first.Grouped ∧ Statement.AllGrouped rest

/-- The initial values have the parentheses that they need. -/
def Declarator.AllGrouped : List Declarator → Prop
  | [] => True
  | ⟨_, value, _⟩ :: rest => Expression.OptionGrouped value ∧ Declarator.AllGrouped rest

/-- A branch has the parentheses that its block or statement needs. -/
def Branch.Grouped : Branch → Prop
  | .braced block => block.Grouped
  | .single statement => statement.Grouped

/-- A missing branch needs no parentheses. -/
def Branch.AlternateGrouped : Option Branch → Prop
  | none => True
  | some branch => branch.Grouped

end

namespace Expression

/-- The number of parentheses around the expression. -/
def groups : Expression → Nat
  | group inner _ => inner.groups + 1
  | _ => 0

/-- Erasure takes the outer parentheses off anyway. -/
theorem erased_ungrouped (expression : Expression) :
    expression.ungrouped.erased = expression.erased := by
  cases expression with
  | group inner span =>
      rw [ungrouped, erased]
      exact erased_ungrouped inner
  | _ => rfl

/-- Both expressions are of the same kind, and their parts are the same apart from parentheses. The
undefined value may be written as what it is. -/
inductive Matches : Expression → Expression → Prop
  | number {digits : String} {span span' : Span} :
      Matches (.number digits span) (.number digits span')
  | string {content : String} {quote quote' : Quote} {span span' : Span} :
      Matches (.string content quote span) (.string content quote' span')
  | boolean {value : Bool} {span span' : Span} :
      Matches (.boolean value span) (.boolean value span')
  | null {span span' : Span} : Matches (.null span) (.null span')
  | undefined {span span' : Span} : Matches (.undefined span) (.undefined span')
  | array {items items' : List Expression} {span span' : Span}
      (same : sameList (erasedAll items) (erasedAll items') = true) :
      Matches (.array items span) (.array items' span')
  | object {members members' : List Member} {span span' : Span}
      (same : Member.sameList (Member.erasedAll members) (Member.erasedAll members') = true) :
      Matches (.object members span) (.object members' span')
  | function {definition definition' : FunctionDef}
      (same : definition.erased.same definition'.erased = true) :
      Matches (.function definition) (.function definition')
  | reference {name : String} {span span' : Span} :
      Matches (.reference name span) (.reference name span')
  | property {parent parent' : Expression} {name : String} {span span' : Span}
      (same : parent.erased.same parent'.erased = true) :
      Matches (.property parent name span) (.property parent' name span')
  | index {parent parent' key key' : Expression} {span span' : Span}
      (same : parent.erased.same parent'.erased = true)
      (sameKey : key.erased.same key'.erased = true) :
      Matches (.index parent key span) (.index parent' key' span')
  | call {callee callee' : Expression} {arguments arguments' : List Expression} {span span' : Span}
      (same : callee.erased.same callee'.erased = true)
      (sameArguments : sameList (erasedAll arguments) (erasedAll arguments') = true) :
      Matches (.call callee arguments span) (.call callee' arguments' span')
  | unary {operator : UnaryOperator} {operand operand' : Expression} {span span' : Span}
      (same : operand.erased.same operand'.erased = true) :
      Matches (.unary operator operand span) (.unary operator operand' span')
  | binary {left left' right right' : Expression} {operator : BinaryOperator} {span span' : Span}
      (sameLeft : left.erased.same left'.erased = true)
      (sameRight : right.erased.same right'.erased = true) :
      Matches (.binary left operator right span) (.binary left' operator right' span')
  | assign {target target' value value' : Expression} {span span' : Span}
      (sameTarget : target.erased.same target'.erased = true)
      (sameValue : value.erased.same value'.erased = true) :
      Matches (.assign target value span) (.assign target' value' span')
  | undefinedAsZero {operand : Expression} {span span' : Span}
      (isZero : operand.erased.isBareZero = true) :
      Matches (.undefined span) (.unary .void operand span')
  | zeroAsUndefined {operand : Expression} {span span' : Span}
      (isZero : operand.erased.isBareZero = true) :
      Matches (.unary .void operand span) (.undefined span')

/-- Either the operator gives the undefined value, or it stays. -/
theorem erased_unary_cases (operator : UnaryOperator) (operand : Expression) (span : Span) :
    (operator = .void ∧ operand.erased.isBareZero = true ∧
        (unary operator operand span).erased = .undefined span) ∨
      (unary operator operand span).erased = .unary operator operand.erased span := by
  rw [erased]
  split
  · rename_i isZero
    exact .inl ⟨isZero.1, isZero.2, rfl⟩
  · exact .inr rfl

/-- Unary expressions match if they are erased to the same. -/
theorem matches_unary_of_same {operator : UnaryOperator} {operand second : Expression} {span : Span}
    (notGroup : ∀ inner span, second ≠ .group inner span)
    (same : (unary operator operand span).erased.same second.erased = true) :
    Matches (unary operator operand span) second := by
  rcases erased_unary_cases operator operand span with ⟨rfl, isZero, isErased⟩ | isErased
  · rw [isErased] at same
    cases second with
    | group inner span => exact absurd rfl (notGroup inner span)
    | undefined span => exact .zeroAsUndefined isZero
    | unary operator' operand' span' =>
        rcases erased_unary_cases operator' operand' span' with ⟨rfl, isZero', _⟩ | isErased'
        · obtain ⟨_, isNumber⟩ := isBareZero_iff.mp isZero
          obtain ⟨_, isNumber'⟩ := isBareZero_iff.mp isZero'
          exact .unary (by simp [isNumber, isNumber', Expression.same])
        · simp [isErased', Expression.same] at same
    | _ => simp [erased, Expression.same] at same
  · rw [isErased] at same
    cases second with
    | group inner span => exact absurd rfl (notGroup inner span)
    | unary operator' operand' span' =>
        rcases erased_unary_cases operator' operand' span' with ⟨_, _, isErased'⟩ | isErased'
        · simp [isErased', Expression.same] at same
        · rw [isErased', Expression.same, Bool.and_eq_true, beq_iff_eq] at same
          obtain ⟨rfl, sameOperand⟩ := same
          exact .unary sameOperand
    | _ => simp [erased, Expression.same] at same

/-- Expressions that mean the same match up to parentheses around them. -/
theorem matches_of_same {first second : Expression}
    (notGroup : ∀ inner span, first ≠ .group inner span)
    (notGroup' : ∀ inner span, second ≠ .group inner span)
    (same : first.erased.same second.erased = true) : Matches first second := by
  cases first with
  | group inner span => exact absurd rfl (notGroup inner span)
  | unary operator operand span => exact matches_unary_of_same notGroup' same
  | _ =>
      cases second with
      | group inner span => exact absurd rfl (notGroup' inner span)
      | unary operator operand span =>
          rcases erased_unary_cases operator operand span with ⟨rfl, isZero, isErased⟩ | isErased
          all_goals
            rw [isErased] at same
            first
            | exact .undefinedAsZero isZero
            | simp [erased, Expression.same] at same
      | _ =>
          simp only [erased, Expression.same, Bool.and_eq_true, beq_iff_eq, Bool.false_eq_true,
            and_assoc] at same
          -- What is left are two expressions of one kind with the parts that they share.
          try
            first
            | exact .null
            | exact .undefined
            | (subst same; constructor)
            | (constructor; exact same)
            | (obtain ⟨sameFirst, rfl⟩ := same; exact .property sameFirst)
            | (obtain ⟨sameFirst, rfl, sameSecond⟩ := same; exact .binary sameFirst sameSecond)
            | (constructor; exact same.1; exact same.2)

end Expression

namespace Statement

/-- Both statements are of the same kind, and their parts are the same apart from parentheses. -/
inductive Matches : Statement → Statement → Prop
  | expression {value value' : Expression} {span span' : Span}
      (same : value.erased.same value'.erased = true) :
      Matches (.expression value span) (.expression value' span')
  | declaration {word : DeclarationWord} {items items' : List Declarator} {span span' : Span}
      (same : Declarator.sameList (Declarator.erasedAll items) (Declarator.erasedAll items') = true) :
      Matches (.declaration word items span) (.declaration word items' span')
  | function {definition definition' : FunctionDef}
      (same : definition.erased.same definition'.erased = true) :
      Matches (.function definition) (.function definition')
  | conditional {condition condition' : Expression} {consequent consequent' : Branch}
      {alternate alternate' : Option Branch} {span span' : Span}
      (same : condition.erased.same condition'.erased = true)
      (sameConsequent : consequent.erased.same consequent'.erased = true)
      (sameAlternate :
        Branch.sameOption (Branch.erasedOption alternate) (Branch.erasedOption alternate') = true) :
      Matches (.conditional condition consequent alternate span)
        (.conditional condition' consequent' alternate' span')
  | returningNothing {span span' : Span} : Matches (.returning none span) (.returning none span')
  | returning {value value' : Expression} {span span' : Span}
      (same : value.erased.same value'.erased = true) :
      Matches (.returning (some value) span) (.returning (some value') span')
  | block {inner inner' : Block} (same : inner.erased.same inner'.erased = true) :
      Matches (.block inner) (.block inner')
  | empty {span span' : Span} : Matches (.empty span) (.empty span')

/-- Statements match if they are erased to the same. -/
theorem matches_of_same {first second : Statement}
    (same : first.erased.same second.erased = true) : Matches first second := by
  cases first <;> cases second <;>
    simp only [erased, Statement.same, Bool.and_eq_true, beq_iff_eq, Bool.false_eq_true,
      and_assoc] at same
  case expression.expression => exact .expression same
  case declaration.declaration =>
    obtain ⟨rfl, sameItems⟩ := same
    exact .declaration sameItems
  case function.function => exact .function same
  case conditional.conditional => exact .conditional same.1 same.2.1 same.2.2
  case returning.returning value _ value' _ =>
    cases value <;> cases value' <;>
      simp only [Expression.erasedOption, Expression.sameOption, Bool.false_eq_true] at same
    · exact .returningNothing
    · exact .returning same
  case block.block => exact .block same
  case empty.empty => exact .empty

/-- Statements that match need a semicolon alike. -/
theorem Matches.needsSemicolon {first second : Statement} (isMatch : Matches first second) :
    first.needsSemicolon = second.needsSemicolon := by
  cases isMatch <;> rfl

end Statement

end ScriptStrip
