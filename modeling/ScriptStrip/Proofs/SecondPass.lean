import Mathlib
import ScriptStrip.Parser.Grammar
import ScriptStrip.Proofs.Leftover
import ScriptStrip.Proofs.Placeless
import ScriptStrip.Proofs.ReductionWalk
/-
This file says for which scripts a second pass has nothing left to do. A pass that does nothing
leaves the tree as it is, so it is enough to count.
-/

namespace ScriptStrip

mutual

/-- No expression that a pass keeps here is overlooked. -/
def Expression.Steady (configuration : Configuration) (expression : Expression) : Prop :=
  match _found : configuration.finding? expression with
  | none => ¬ expression.ungrouped.IsOverlooked configuration ∧
      expression.SteadyParts configuration
  | some (.asserted (some argument)) => argument.Steady configuration
  | some _ => True
termination_by (sizeOf expression, 1)
decreasing_by
  · exact Prod.Lex.right _ Nat.zero_lt_one
  · exact Prod.Lex.left _ _ (Configuration.sizeOf_asserted_lt _found)

/-- The parts of an expression are steady, one by one. -/
def Expression.SteadyParts (configuration : Configuration) (expression : Expression) : Prop :=
  match expression with
  | .array items _ => Expression.SteadyAll configuration items
  | .object members _ => Member.SteadyAll configuration members
  | .function definition => definition.Steady configuration
  | .group inner _ => inner.Steady configuration
  | .property parent _ _ => parent.Steady configuration
  | .index parent key _ => parent.Steady configuration ∧ key.Steady configuration
  | .call callee arguments _ =>
      callee.Steady configuration ∧ Expression.SteadyAll configuration arguments
  | .unary _ operand _ => operand.Steady configuration
  | .binary left _ right _ => left.Steady configuration ∧ right.Steady configuration
  | .assign target value _ => target.SteadyParts configuration ∧ value.Steady configuration
  | _ => True
termination_by (sizeOf expression, 0)

/-- Each expression of the list is steady. -/
def Expression.SteadyAll (configuration : Configuration) (items : List Expression) : Prop :=
  match items with
  | [] => True
  | first :: rest => first.Steady configuration ∧ Expression.SteadyAll configuration rest
termination_by (sizeOf items, 0)

/-- The values of an object are steady. -/
def Member.SteadyAll (configuration : Configuration) (members : List Member) : Prop :=
  match members with
  | [] => True
  | ⟨_, value, _⟩ :: rest => value.Steady configuration ∧ Member.SteadyAll configuration rest
termination_by (sizeOf members, 0)

/-- A function is steady if its body is. -/
def FunctionDef.Steady (configuration : Configuration) (definition : FunctionDef) : Prop :=
  match definition with
  | ⟨_, _, body, _⟩ => body.Steady configuration
termination_by (sizeOf definition, 0)

/-- A block is steady if its statements are. -/
def Block.Steady (configuration : Configuration) (block : Block) : Prop :=
  match block with
  | ⟨items, _⟩ => Statement.SteadyAll configuration items
termination_by (sizeOf block, 0)

/-- A statement is steady if its parts are. -/
def Statement.Steady (configuration : Configuration) (statement : Statement) : Prop :=
  match statement with
  | .expression value _ => value.Steady configuration
  | .declaration _ items _ => Declarator.SteadyAll configuration items
  | .function definition => definition.Steady configuration
  | .conditional condition consequent alternate _ =>
      condition.Steady configuration ∧ consequent.Steady configuration ∧
        Branch.SteadyOption configuration alternate
  | .returning value _ => Expression.SteadyOption configuration value
  | .block inner => inner.Steady configuration
  | .empty _ => True
termination_by (sizeOf statement, 0)

/-- An absent expression is steady. -/
def Expression.SteadyOption (configuration : Configuration) (value : Option Expression) : Prop :=
  match value with
  | none => True
  | some value => value.Steady configuration
termination_by (sizeOf value, 0)

/-- Each statement of the list is steady. -/
def Statement.SteadyAll (configuration : Configuration) (items : List Statement) : Prop :=
  match items with
  | [] => True
  | first :: rest => first.Steady configuration ∧ Statement.SteadyAll configuration rest
termination_by (sizeOf items, 0)

/-- The initial values are steady. -/
def Declarator.SteadyAll (configuration : Configuration) (items : List Declarator) : Prop :=
  match items with
  | [] => True
  | ⟨_, value, _⟩ :: rest =>
      Expression.SteadyOption configuration value ∧ Declarator.SteadyAll configuration rest
termination_by (sizeOf items, 0)

/-- A branch is steady if its block or statement is. -/
def Branch.Steady (configuration : Configuration) (branch : Branch) : Prop :=
  match branch with
  | .braced block => block.Steady configuration
  | .single statement => statement.Steady configuration
termination_by (sizeOf branch, 0)

/-- A missing branch is steady. -/
def Branch.SteadyOption (configuration : Configuration) (branch : Option Branch) : Prop :=
  match branch with
  | none => True
  | some branch => branch.Steady configuration
termination_by (sizeOf branch, 0)

end

/-- No expression that a pass keeps is overlooked. -/
def Script.Steady (configuration : Configuration) (script : Script) : Prop :=
  Statement.SteadyAll configuration script.items

/-- Where something is found, something is counted. -/
theorem Expression.counts_reduced_of_finding {configuration : Configuration}
    {expression : Expression} {finding : Configuration.Finding}
    (found : configuration.finding? expression = some finding) :
    (expression.reduced configuration).counts ≠ 0 := by
  rw [Expression.reduced_eq, found]
  rcases finding with _ | (_ | argument) | value
  all_goals
    intro nothing
    have := congrArg Statistics.total nothing
    simp [Statistics.total] at this

/-- An expression is left as it is if nothing is done to it. -/
theorem Expression.finding?_eq_none_of_counts {configuration : Configuration}
    {expression : Expression} (nothing : (expression.reduced configuration).counts = 0) :
    configuration.finding? expression = none := by
  cases found : configuration.finding? expression with
  | none => rfl
  | some finding => exact absurd nothing (Expression.counts_reduced_of_finding found)

mutual

/-- If nothing is counted, an expression is left as it is. -/
theorem Expression.reduced_of_counts (configuration : Configuration) (expression : Expression)
    (nothing : (expression.reduced configuration).counts = 0) :
    (expression.reduced configuration).value = .filled expression := by
  have notFound := Expression.finding?_eq_none_of_counts nothing
  rw [Expression.reduced_eq, notFound] at nothing ⊢
  rw [Counted.counts_map] at nothing
  rw [Counted.value_map, Expression.reducedParts_of_counts configuration expression nothing]
termination_by (sizeOf expression, 1)

/-- If nothing is counted, the parts of an expression are left as they are. -/
theorem Expression.reducedParts_of_counts (configuration : Configuration)
    (expression : Expression) (nothing : (expression.reducedParts configuration).counts = 0) :
    (expression.reducedParts configuration).value = expression := by
  cases expression with
  | array items span =>
      simp only [Expression.reducedParts, Counted.value_bind, Counted.value_pure, Counted.counts_bind,
        Counted.counts_pure, add_zero] at nothing ⊢
      rw [Expression.reducedAll_of_counts configuration items nothing]
  | object members span =>
      simp only [Expression.reducedParts, Counted.value_bind, Counted.value_pure, Counted.counts_bind,
        Counted.counts_pure, add_zero] at nothing ⊢
      rw [Member.reducedAll_of_counts configuration members nothing]
  | function definition =>
      simp only [Expression.reducedParts, Counted.value_bind, Counted.value_pure, Counted.counts_bind,
        Counted.counts_pure, add_zero] at nothing ⊢
      rw [FunctionDef.reduced_of_counts configuration definition nothing]
  | group inner span =>
      simp only [Expression.reducedParts, Counted.value_bind, Counted.value_pure, Counted.counts_bind,
        Counted.counts_pure, add_zero] at nothing ⊢
      rw [Expression.reduced_of_counts configuration inner nothing, Slot.expression]
  | property parent name span =>
      simp only [Expression.reducedParts, Counted.value_bind, Counted.value_pure, Counted.counts_bind,
        Counted.counts_pure, add_zero] at nothing ⊢
      rw [Expression.reduced_of_counts configuration parent nothing, Slot.expression]
  | index parent key span =>
      simp only [Expression.reducedParts, Counted.value_bind, Counted.value_pure, Counted.counts_bind,
        Counted.counts_pure, add_zero, Statistics.add_eq_zero_iff] at nothing ⊢
      rw [Expression.reduced_of_counts configuration parent nothing.1,
        Expression.reduced_of_counts configuration key nothing.2, Slot.expression, Slot.expression]
  | call callee arguments span =>
      simp only [Expression.reducedParts, Counted.value_bind, Counted.value_pure, Counted.counts_bind,
        Counted.counts_pure, add_zero, Statistics.add_eq_zero_iff] at nothing ⊢
      rw [Expression.reduced_of_counts configuration callee nothing.1,
        Expression.reducedAll_of_counts configuration arguments nothing.2, Slot.expression]
  | unary operator operand span =>
      simp only [Expression.reducedParts, Counted.value_bind, Counted.value_pure, Counted.counts_bind,
        Counted.counts_pure, add_zero] at nothing ⊢
      rw [Expression.reduced_of_counts configuration operand nothing, Slot.expression]
  | binary left operator right span =>
      simp only [Expression.reducedParts, Counted.value_bind, Counted.value_pure, Counted.counts_bind,
        Counted.counts_pure, add_zero, Statistics.add_eq_zero_iff] at nothing ⊢
      rw [Expression.reduced_of_counts configuration left nothing.1,
        Expression.reduced_of_counts configuration right nothing.2, Slot.expression, Slot.expression]
  | assign target value span =>
      simp only [Expression.reducedParts, Counted.value_bind, Counted.value_pure, Counted.counts_bind,
        Counted.counts_pure, add_zero, Statistics.add_eq_zero_iff] at nothing ⊢
      rw [Expression.reducedParts_of_counts configuration target nothing.1,
        Expression.reduced_of_counts configuration value nothing.2, Slot.expression]
  | _ => simp only [Expression.reducedParts, Counted.value_pure]
termination_by (sizeOf expression, 0)

/-- If nothing is counted, a list of expressions is left as it is. -/
theorem Expression.reducedAll_of_counts (configuration : Configuration) (items : List Expression)
    (nothing : (Expression.reducedAll configuration items).counts = 0) :
    (Expression.reducedAll configuration items).value = items := by
  cases items with
  | nil => rw [Expression.reducedAll, Counted.value_pure]
  | cons first rest =>
      simp only [Expression.reducedAll, Counted.value_bind, Counted.value_pure, Counted.counts_bind,
        Counted.counts_pure, add_zero, Statistics.add_eq_zero_iff] at nothing ⊢
      rw [Expression.reduced_of_counts configuration first nothing.1,
        Expression.reducedAll_of_counts configuration rest nothing.2, Slot.expression]
termination_by (sizeOf items, 0)

/-- If nothing is counted, an object is left as it is. -/
theorem Member.reducedAll_of_counts (configuration : Configuration) (members : List Member)
    (nothing : (Member.reducedAll configuration members).counts = 0) :
    (Member.reducedAll configuration members).value = members := by
  cases members with
  | nil => rw [Member.reducedAll, Counted.value_pure]
  | cons first rest =>
      cases first with
      | mk key value span =>
          simp only [Member.reducedAll, Counted.value_bind, Counted.value_pure,
            Counted.counts_bind, Counted.counts_pure, add_zero,
            Statistics.add_eq_zero_iff] at nothing ⊢
          rw [Expression.reduced_of_counts configuration value nothing.1,
            Member.reducedAll_of_counts configuration rest nothing.2, Slot.expression]
termination_by (sizeOf members, 0)

/-- If nothing is counted, a function is left as it is. -/
theorem FunctionDef.reduced_of_counts (configuration : Configuration) (definition : FunctionDef)
    (nothing : (definition.reduced configuration).counts = 0) :
    (definition.reduced configuration).value = definition := by
  cases definition with
  | mk name parameters body span =>
      simp only [FunctionDef.reduced, Counted.value_bind, Counted.value_pure, Counted.counts_bind,
        Counted.counts_pure, add_zero] at nothing ⊢
      rw [Block.reduced_of_counts configuration body nothing]
termination_by (sizeOf definition, 0)

/-- If nothing is counted, a block is left as it is. -/
theorem Block.reduced_of_counts (configuration : Configuration) (block : Block)
    (nothing : (block.reduced configuration).counts = 0) :
    (block.reduced configuration).value = block := by
  cases block with
  | mk items span =>
      simp only [Block.reduced, Counted.value_bind, Counted.value_pure, Counted.counts_bind,
        Counted.counts_pure, add_zero] at nothing ⊢
      rw [Statement.reducedAll_of_counts configuration items nothing]
termination_by (sizeOf block, 0)

/-- If nothing is counted, a statement is kept as it is. -/
theorem Statement.reduced_of_counts (configuration : Configuration) (statement : Statement)
    (nothing : (statement.reduced configuration).counts = 0) :
    (statement.reduced configuration).value = some statement := by
  cases statement with
  | expression value span =>
      rw [Statement.reduced, Counted.counts_bind, Statistics.add_eq_zero_iff] at nothing
      rw [Statement.reduced, Counted.value_bind,
        Expression.reduced_of_counts configuration value nothing.1]
      rfl
  | declaration word items span =>
      simp only [Statement.reduced, Counted.value_bind, Counted.value_pure, Counted.counts_bind,
        Counted.counts_pure, add_zero] at nothing ⊢
      rw [Declarator.reducedAll_of_counts configuration items nothing]
  | function definition =>
      simp only [Statement.reduced, Counted.value_bind, Counted.value_pure, Counted.counts_bind,
        Counted.counts_pure, add_zero] at nothing ⊢
      rw [FunctionDef.reduced_of_counts configuration definition nothing]
  | conditional condition consequent alternate span =>
      simp only [Statement.reduced, Counted.value_bind, Counted.value_pure, Counted.counts_bind,
        Counted.counts_pure, add_zero, Statistics.add_eq_zero_iff] at nothing ⊢
      rw [Expression.reduced_of_counts configuration condition nothing.1,
        Branch.reduced_of_counts configuration consequent nothing.2.1,
        Branch.reducedOption_of_counts configuration alternate nothing.2.2, Slot.expression]
  | returning value span =>
      simp only [Statement.reduced, Counted.value_bind, Counted.value_pure, Counted.counts_bind,
        Counted.counts_pure, add_zero] at nothing ⊢
      rw [Expression.reducedOption_of_counts configuration value nothing]
  | block inner =>
      simp only [Statement.reduced, Counted.value_bind, Counted.value_pure, Counted.counts_bind,
        Counted.counts_pure, add_zero] at nothing ⊢
      rw [Block.reduced_of_counts configuration inner nothing]
  | empty span => rw [Statement.reduced, Counted.value_pure]
termination_by (sizeOf statement, 0)

/-- If nothing is counted, an expression that may be absent is left as it is. -/
theorem Expression.reducedOption_of_counts (configuration : Configuration)
    (value : Option Expression)
    (nothing : (Expression.reducedOption configuration value).counts = 0) :
    (Expression.reducedOption configuration value).value = value := by
  cases value with
  | none => rw [Expression.reducedOption, Counted.value_pure]
  | some value =>
      simp only [Expression.reducedOption, Counted.value_bind, Counted.value_pure, Counted.counts_bind,
        Counted.counts_pure, add_zero] at nothing ⊢
      rw [Expression.reduced_of_counts configuration value nothing, Slot.expression]
termination_by (sizeOf value, 0)

/-- If nothing is counted, a list of statements is left as it is. -/
theorem Statement.reducedAll_of_counts (configuration : Configuration) (items : List Statement)
    (nothing : (Statement.reducedAll configuration items).counts = 0) :
    (Statement.reducedAll configuration items).value = items := by
  cases items with
  | nil => rw [Statement.reducedAll, Counted.value_pure]
  | cons first rest =>
      simp only [Statement.reducedAll, Counted.value_bind, Counted.value_pure, Counted.counts_bind,
        Counted.counts_pure, add_zero, Statistics.add_eq_zero_iff] at nothing ⊢
      rw [Statement.reduced_of_counts configuration first nothing.1,
        Statement.reducedAll_of_counts configuration rest nothing.2]
      rfl
termination_by (sizeOf items, 0)

/-- If nothing is counted, a declared name is left as it is. -/
theorem Declarator.reduced_of_counts (configuration : Configuration) (item : Declarator)
    (nothing : (item.reduced configuration).counts = 0) :
    (item.reduced configuration).value = item := by
  cases item with
  | mk name value span =>
      cases value with
      | none => rw [Declarator.reduced, Counted.value_pure]
      | some value =>
          rw [Declarator.reduced, Counted.counts_bind, Statistics.add_eq_zero_iff] at nothing
          rw [Declarator.reduced, Counted.value_bind,
            Expression.reduced_of_counts configuration value nothing.1]
          rfl
termination_by (sizeOf item, 0)

/-- If nothing is counted, a declaration is left as it is. -/
theorem Declarator.reducedAll_of_counts (configuration : Configuration) (items : List Declarator)
    (nothing : (Declarator.reducedAll configuration items).counts = 0) :
    (Declarator.reducedAll configuration items).value = items := by
  cases items with
  | nil => rw [Declarator.reducedAll, Counted.value_pure]
  | cons first rest =>
      simp only [Declarator.reducedAll, Counted.value_bind, Counted.value_pure,
        Counted.counts_bind, Counted.counts_pure, add_zero, Statistics.add_eq_zero_iff] at nothing ⊢
      rw [Declarator.reduced_of_counts configuration first nothing.1,
        Declarator.reducedAll_of_counts configuration rest nothing.2]
termination_by (sizeOf items, 0)

/-- If nothing is counted, a branch is left as it is. -/
theorem Branch.reduced_of_counts (configuration : Configuration) (branch : Branch)
    (nothing : (branch.reduced configuration).counts = 0) :
    (branch.reduced configuration).value = branch := by
  cases branch with
  | braced block =>
      simp only [Branch.reduced, Counted.value_bind, Counted.value_pure, Counted.counts_bind,
        Counted.counts_pure, add_zero] at nothing ⊢
      rw [Block.reduced_of_counts configuration block nothing]
  | single statement =>
      rw [Branch.reduced, Counted.counts_bind, Statistics.add_eq_zero_iff] at nothing
      rw [Branch.reduced, Counted.value_bind,
        Statement.reduced_of_counts configuration statement nothing.1]
      rfl
termination_by (sizeOf branch, 0)

/-- If nothing is counted, a branch that may be missing is left as it is. -/
theorem Branch.reducedOption_of_counts (configuration : Configuration) (branch : Option Branch)
    (nothing : (Branch.reducedOption configuration branch).counts = 0) :
    (Branch.reducedOption configuration branch).value = branch := by
  cases branch with
  | none => rw [Branch.reducedOption, Counted.value_pure]
  | some branch =>
      simp only [Branch.reducedOption, Counted.value_bind, Counted.value_pure, Counted.counts_bind,
        Counted.counts_pure, add_zero] at nothing ⊢
      rw [Branch.reduced_of_counts configuration branch nothing]
termination_by (sizeOf branch, 0)

end

/-! The counts of the nodes that can lose a part. -/

/-- A statement counts what its expression counts, whether it is kept or dropped. -/
theorem Statement.counts_reduced_expression (configuration : Configuration) (value : Expression)
    (span : Span) : ((Statement.expression value span).reduced configuration).counts =
      (value.reduced configuration).counts := by
  rw [Statement.reduced, Counted.counts_bind]
  cases (value.reduced configuration).value <;> exact add_zero _

/-- A declared name counts what its initial value counts. -/
theorem Declarator.counts_reduced_some (configuration : Configuration) (name : String)
    (value : Expression) (span : Span) :
    ((Declarator.mk name (some value) span).reduced configuration).counts =
      (value.reduced configuration).counts := by
  rw [Declarator.reduced, Counted.counts_bind]
  cases (value.reduced configuration).value <;> exact add_zero _

/-- A branch counts what its statement counts. -/
theorem Branch.counts_reduced_single (configuration : Configuration) (statement : Statement) :
    ((Branch.single statement).reduced configuration).counts =
      (statement.reduced configuration).counts := by
  rw [Branch.reduced, Counted.counts_bind]
  cases (statement.reduced configuration).value <;> exact add_zero _

/-- The counts of joined lists are added. -/
theorem Statement.counts_reducedAll_append (configuration : Configuration)
    (first second : List Statement) :
    (Statement.reducedAll configuration (first ++ second)).counts =
      (Statement.reducedAll configuration first).counts +
        (Statement.reducedAll configuration second).counts := by
  induction first with
  | nil => simp [Statement.reducedAll]
  | cons statement rest inductionHypothesis =>
      simp [Statement.reducedAll, inductionHypothesis, add_assoc]

/-- A list of one statement counts what the statement counts. -/
theorem Statement.counts_reducedAll_singleton (configuration : Configuration)
    (statement : Statement) : (Statement.reducedAll configuration [statement]).counts =
      (statement.reduced configuration).counts := by
  simp [Statement.reducedAll]

/-- Where a call or a flag is replaced, nothing is left for a second pass. -/
theorem Expression.steady_of_finding {configuration : Configuration} {expression : Expression}
    {finding : Configuration.Finding} (found : configuration.finding? expression = some finding)
    (other : ∀ argument, finding ≠ .asserted (some argument)) :
    expression.Steady configuration := by
  rw [Expression.Steady]
  split
  · rename_i notFound
    cases found.symm.trans notFound
  · rename_i argument asserted
    exact absurd (Option.some.inj (found.symm.trans asserted)) (other argument)
  · trivial

/-- An assertion is steady exactly if its argument is. -/
theorem Expression.steady_of_asserted {configuration : Configuration}
    {expression argument : Expression}
    (found : configuration.finding? expression = some (.asserted (some argument))) :
    expression.Steady configuration ↔ argument.Steady configuration := by
  rw [Expression.Steady]
  split
  · rename_i notFound
    cases found.symm.trans notFound
  · rename_i other asserted
    cases found.symm.trans asserted
    rfl
  · rename_i finding other asserted
    exact absurd asserted (found ▸ fun same => other argument (Option.some.inj same).symm)

/-- Where nothing is found, it is the parts and what they become that decide. -/
theorem Expression.steady_of_notFound {configuration : Configuration} {expression : Expression}
    (notFound : configuration.finding? expression = none) :
    expression.Steady configuration ↔ ¬ expression.ungrouped.IsOverlooked configuration ∧
      expression.SteadyParts configuration := by
  rw [Expression.Steady]
  split
  · rfl
  · rename_i argument asserted
    cases notFound.symm.trans asserted
  · rename_i finding other found
    cases notFound.symm.trans found

/-- The value in place of a call is left alone by the next pass. -/
theorem Expression.counts_reduced_undefined (configuration : Configuration) (span : Span) :
    ((Expression.undefined span).reduced configuration).counts = 0 := by
  rw [Expression.reduced_eq, Configuration.finding?_of_other (by rintro _ _ _ ⟨⟩)
    (by rintro _ _ _ ⟨⟩)]
  simp

/-- The value in place of a flag is left alone by the next pass. -/
theorem Expression.counts_reduced_boolean (configuration : Configuration) (value : Bool)
    (span : Span) : ((Expression.boolean value span).reduced configuration).counts = 0 := by
  rw [Expression.reduced_eq, Configuration.finding?_of_other (by rintro _ _ _ ⟨⟩)
    (by rintro _ _ _ ⟨⟩)]
  simp

mutual

/-- A second pass has nothing to do exactly where no kept expression is overlooked. -/
theorem Expression.counts_reduced_reduced (configuration : Configuration)
    (expression : Expression) :
    ((expression.reduced configuration).value.expression.reduced configuration).counts = 0 ↔
      expression.Steady configuration := by
  cases reason : configuration.finding? expression with
  | none =>
      rw [Expression.steady_of_notFound reason,
        ← Expression.finding?_reducedParts_eq_none_iff reason,
        ← Expression.counts_reducedParts_reducedParts configuration expression]
      rw [Expression.reduced_eq configuration expression, reason]
      simp only [Counted.value_map, Slot.expression]
      constructor
      · intro nothing
        have notFound := Expression.finding?_eq_none_of_counts nothing
        rw [Expression.reduced_eq, notFound, Counted.counts_map] at nothing
        exact ⟨notFound, nothing⟩
      · rintro ⟨notFound, nothing⟩
        rw [Expression.reduced_eq, notFound, Counted.counts_map, nothing]
  | some finding =>
      rw [Expression.reduced_eq configuration expression, reason]
      rcases finding with _ | (_ | argument) | value
      · refine iff_of_true ?_ (Expression.steady_of_finding reason (by simp))
        exact Expression.counts_reduced_undefined configuration _
      · refine iff_of_true ?_ (Expression.steady_of_finding reason (by simp))
        exact Expression.counts_reduced_undefined configuration _
      · have lower := Configuration.sizeOf_asserted_lt reason
        rw [Expression.steady_of_asserted reason]
        exact Expression.counts_reduced_reduced configuration argument
      · refine iff_of_true ?_ (Expression.steady_of_finding reason (by simp))
        exact Expression.counts_reduced_boolean configuration _ _
termination_by (sizeOf expression, 1)

/-- A second pass over the parts counts nothing exactly if they are steady. -/
theorem Expression.counts_reducedParts_reducedParts (configuration : Configuration)
    (expression : Expression) :
    ((expression.reducedParts configuration).value.reducedParts configuration).counts = 0 ↔
      expression.SteadyParts configuration := by
  cases expression with
  | array items span =>
      simp only [Expression.reducedParts, Expression.SteadyParts, Counted.value_bind,
        Counted.value_pure, Counted.counts_bind, Counted.counts_pure, add_zero]
      exact Expression.counts_reducedAll_reducedAll configuration items
  | object members span =>
      simp only [Expression.reducedParts, Expression.SteadyParts, Counted.value_bind,
        Counted.value_pure, Counted.counts_bind, Counted.counts_pure, add_zero]
      exact Member.counts_reducedAll_reducedAll configuration members
  | function definition =>
      simp only [Expression.reducedParts, Expression.SteadyParts, Counted.value_bind,
        Counted.value_pure, Counted.counts_bind, Counted.counts_pure, add_zero]
      exact FunctionDef.counts_reduced_reduced configuration definition
  | group inner span =>
      simp only [Expression.reducedParts, Expression.SteadyParts, Counted.value_bind,
        Counted.value_pure, Counted.counts_bind, Counted.counts_pure, add_zero]
      exact Expression.counts_reduced_reduced configuration inner
  | property parent name span =>
      simp only [Expression.reducedParts, Expression.SteadyParts, Counted.value_bind,
        Counted.value_pure, Counted.counts_bind, Counted.counts_pure, add_zero]
      exact Expression.counts_reduced_reduced configuration parent
  | index parent key span =>
      simp only [Expression.reducedParts, Expression.SteadyParts, Counted.value_bind,
        Counted.value_pure, Counted.counts_bind, Counted.counts_pure, add_zero,
        Statistics.add_eq_zero_iff]
      rw [Expression.counts_reduced_reduced configuration parent,
        Expression.counts_reduced_reduced configuration key]
  | call callee arguments span =>
      simp only [Expression.reducedParts, Expression.SteadyParts, Counted.value_bind,
        Counted.value_pure, Counted.counts_bind, Counted.counts_pure, add_zero,
        Statistics.add_eq_zero_iff]
      rw [Expression.counts_reduced_reduced configuration callee,
        Expression.counts_reducedAll_reducedAll configuration arguments]
  | unary operator operand span =>
      simp only [Expression.reducedParts, Expression.SteadyParts, Counted.value_bind,
        Counted.value_pure, Counted.counts_bind, Counted.counts_pure, add_zero]
      exact Expression.counts_reduced_reduced configuration operand
  | binary left operator right span =>
      simp only [Expression.reducedParts, Expression.SteadyParts, Counted.value_bind,
        Counted.value_pure, Counted.counts_bind, Counted.counts_pure, add_zero,
        Statistics.add_eq_zero_iff]
      rw [Expression.counts_reduced_reduced configuration left,
        Expression.counts_reduced_reduced configuration right]
  | assign target value span =>
      simp only [Expression.reducedParts, Expression.SteadyParts, Counted.value_bind,
        Counted.value_pure, Counted.counts_bind, Counted.counts_pure, add_zero,
        Statistics.add_eq_zero_iff]
      rw [Expression.counts_reducedParts_reducedParts configuration target,
        Expression.counts_reduced_reduced configuration value]
  | _ => simp [Expression.reducedParts, Expression.SteadyParts]
termination_by (sizeOf expression, 0)

/-- A second pass over a list of expressions counts nothing exactly if it is steady. -/
theorem Expression.counts_reducedAll_reducedAll (configuration : Configuration)
    (items : List Expression) :
    (Expression.reducedAll configuration
      (Expression.reducedAll configuration items).value).counts = 0 ↔
        Expression.SteadyAll configuration items := by
  cases items with
  | nil => simp [Expression.reducedAll, Expression.SteadyAll]
  | cons first rest =>
      simp only [Expression.reducedAll, Expression.SteadyAll, Counted.value_bind,
        Counted.value_pure, Counted.counts_bind, Counted.counts_pure, add_zero,
        Statistics.add_eq_zero_iff]
      rw [Expression.counts_reduced_reduced configuration first,
        Expression.counts_reducedAll_reducedAll configuration rest]
termination_by (sizeOf items, 0)

/-- A second pass over an object counts nothing exactly if it is steady. -/
theorem Member.counts_reducedAll_reducedAll (configuration : Configuration)
    (members : List Member) :
    (Member.reducedAll configuration (Member.reducedAll configuration members).value).counts = 0 ↔
      Member.SteadyAll configuration members := by
  cases members with
  | nil => simp [Member.reducedAll, Member.SteadyAll]
  | cons first rest =>
      cases first with
      | mk key value span =>
          simp only [Member.reducedAll, Member.SteadyAll, Counted.value_bind,
            Counted.value_pure, Counted.counts_bind, Counted.counts_pure, add_zero,
            Statistics.add_eq_zero_iff]
          rw [Expression.counts_reduced_reduced configuration value,
            Member.counts_reducedAll_reducedAll configuration rest]
termination_by (sizeOf members, 0)

/-- A second pass over a function counts nothing exactly if it is steady. -/
theorem FunctionDef.counts_reduced_reduced (configuration : Configuration)
    (definition : FunctionDef) :
    ((definition.reduced configuration).value.reduced configuration).counts = 0 ↔
      definition.Steady configuration := by
  cases definition with
  | mk name parameters body span =>
      simp only [FunctionDef.reduced, FunctionDef.Steady, Counted.value_bind,
        Counted.value_pure, Counted.counts_bind, Counted.counts_pure, add_zero]
      exact Block.counts_reduced_reduced configuration body
termination_by (sizeOf definition, 0)

/-- A second pass over a block counts nothing exactly if it is steady. -/
theorem Block.counts_reduced_reduced (configuration : Configuration) (block : Block) :
    ((block.reduced configuration).value.reduced configuration).counts = 0 ↔
      block.Steady configuration := by
  cases block with
  | mk items span =>
      simp only [Block.reduced, Block.Steady, Counted.value_bind,
        Counted.value_pure, Counted.counts_bind, Counted.counts_pure, add_zero]
      exact Statement.counts_reducedAll_reducedAll configuration items
termination_by (sizeOf block, 0)

/-- A statement that is dropped leaves nothing for a second pass. -/
theorem Statement.counts_reduced_reduced (configuration : Configuration) (statement : Statement) :
    (Statement.reducedAll configuration (statement.reduced configuration).value.toList).counts = 0 ↔
      statement.Steady configuration := by
  cases statement with
  | expression value span =>
      rw [Statement.Steady, ← Expression.counts_reduced_reduced configuration value,
        Statement.reduced, Counted.value_bind]
      cases (value.reduced configuration).value with
      | filled kept =>
          rw [Counted.value_pure, Option.toList_some, Statement.counts_reducedAll_singleton,
            Statement.counts_reduced_expression, Slot.expression]
      | vacant span' =>
          refine iff_of_true ?_ (Expression.counts_reduced_undefined configuration _)
          rw [Counted.value_pure, Option.toList_none, Statement.reducedAll, Counted.counts_pure]
  | declaration word items span =>
      rw [Statement.Steady, ← Declarator.counts_reducedAll_reducedAll configuration items]
      simp [Statement.reducedAll, Statement.reduced]
  | function definition =>
      rw [Statement.Steady, ← FunctionDef.counts_reduced_reduced configuration definition]
      simp [Statement.reducedAll, Statement.reduced]
  | conditional condition consequent alternate span =>
      rw [Statement.Steady, ← Expression.counts_reduced_reduced configuration condition,
        ← Branch.counts_reduced_reduced configuration consequent,
        ← Branch.counts_reducedOption_reducedOption configuration alternate]
      simp [Statement.reducedAll, Statement.reduced, Statistics.add_eq_zero_iff]
  | returning value span =>
      rw [Statement.Steady, ← Expression.counts_reducedOption_reducedOption configuration value]
      simp [Statement.reducedAll, Statement.reduced]
  | block inner =>
      rw [Statement.Steady, ← Block.counts_reduced_reduced configuration inner]
      simp [Statement.reducedAll, Statement.reduced]
  | empty span => simp [Statement.reducedAll, Statement.reduced, Statement.Steady]
termination_by (sizeOf statement, 0)

/-- A second pass over an optional expression counts nothing exactly if it is steady. -/
theorem Expression.counts_reducedOption_reducedOption (configuration : Configuration)
    (value : Option Expression) :
    (Expression.reducedOption configuration
      (Expression.reducedOption configuration value).value).counts = 0 ↔
        Expression.SteadyOption configuration value := by
  cases value with
  | none => simp [Expression.reducedOption, Expression.SteadyOption]
  | some value =>
      simp only [Expression.reducedOption, Expression.SteadyOption, Counted.value_bind,
        Counted.value_pure, Counted.counts_bind, Counted.counts_pure, add_zero]
      exact Expression.counts_reduced_reduced configuration value
termination_by (sizeOf value, 0)

/-- A second pass over a list of statements counts nothing exactly if it is steady. -/
theorem Statement.counts_reducedAll_reducedAll (configuration : Configuration)
    (items : List Statement) :
    (Statement.reducedAll configuration
      (Statement.reducedAll configuration items).value).counts = 0 ↔
        Statement.SteadyAll configuration items := by
  cases items with
  | nil => simp [Statement.reducedAll, Statement.SteadyAll]
  | cons first rest =>
      rw [Statement.reducedAll, Statement.SteadyAll]
      simp only [Counted.value_bind, Counted.value_pure]
      rw [Statement.counts_reducedAll_append, Statistics.add_eq_zero_iff,
        Statement.counts_reduced_reduced configuration first,
        Statement.counts_reducedAll_reducedAll configuration rest]
termination_by (sizeOf items, 0)

/-- A second pass over a declared name counts nothing exactly if its value is steady. -/
theorem Declarator.counts_reduced_reduced (configuration : Configuration) (item : Declarator) :
    ((item.reduced configuration).value.reduced configuration).counts = 0 ↔
      Expression.SteadyOption configuration item.value := by
  cases item with
  | mk name value span =>
      cases value with
      | none => simp [Declarator.reduced, Expression.SteadyOption]
      | some value =>
          rw [Expression.SteadyOption, ← Expression.counts_reduced_reduced configuration value,
            Declarator.reduced, Counted.value_bind]
          cases (value.reduced configuration).value with
          | filled kept => rw [Counted.value_pure, Declarator.counts_reduced_some, Slot.expression]
          | vacant span' =>
              refine iff_of_true ?_ (Expression.counts_reduced_undefined configuration _)
              rw [Counted.value_pure, Declarator.reduced, Counted.counts_pure]
termination_by (sizeOf item, 0)

/-- A second pass over a declaration counts nothing exactly if it is steady. -/
theorem Declarator.counts_reducedAll_reducedAll (configuration : Configuration)
    (items : List Declarator) :
    (Declarator.reducedAll configuration
      (Declarator.reducedAll configuration items).value).counts = 0 ↔
        Declarator.SteadyAll configuration items := by
  cases items with
  | nil => simp [Declarator.reducedAll, Declarator.SteadyAll]
  | cons first rest =>
      have ofFirst := Declarator.counts_reduced_reduced configuration first
      cases first with
      | mk name value span =>
          simp only [Declarator.reducedAll, Declarator.SteadyAll, Counted.value_bind,
            Counted.value_pure, Counted.counts_bind, Counted.counts_pure, add_zero,
            Statistics.add_eq_zero_iff]
          rw [ofFirst, Declarator.counts_reducedAll_reducedAll configuration rest]
termination_by (sizeOf items, 0)

/-- A second pass over a branch counts nothing exactly if it is steady. -/
theorem Branch.counts_reduced_reduced (configuration : Configuration) (branch : Branch) :
    ((branch.reduced configuration).value.reduced configuration).counts = 0 ↔
      branch.Steady configuration := by
  cases branch with
  | braced block =>
      simp only [Branch.reduced, Branch.Steady, Counted.value_bind,
        Counted.value_pure, Counted.counts_bind, Counted.counts_pure, add_zero]
      exact Block.counts_reduced_reduced configuration block
  | single statement =>
      rw [Branch.Steady, ← Statement.counts_reduced_reduced configuration statement,
        Branch.reduced, Counted.value_bind]
      cases (statement.reduced configuration).value with
      | some kept =>
          rw [Counted.value_pure, Branch.counts_reduced_single, Option.toList_some,
            Statement.counts_reducedAll_singleton]
      | none =>
          rw [Counted.value_pure, Branch.counts_reduced_single, Option.toList_none]
          simp [Statement.reducedAll, Statement.reduced]
termination_by (sizeOf branch, 0)

/-- A second pass over an optional branch counts nothing exactly if it is steady. -/
theorem Branch.counts_reducedOption_reducedOption (configuration : Configuration)
    (branch : Option Branch) :
    (Branch.reducedOption configuration
      (Branch.reducedOption configuration branch).value).counts = 0 ↔
        Branch.SteadyOption configuration branch := by
  cases branch with
  | none => simp [Branch.reducedOption, Branch.SteadyOption]
  | some branch =>
      simp only [Branch.reducedOption, Branch.SteadyOption, Counted.value_bind,
        Counted.value_pure, Counted.counts_bind, Counted.counts_pure, add_zero]
      exact Branch.counts_reduced_reduced configuration branch
termination_by (sizeOf branch, 0)

end

namespace Script

variable (script : Script) (configuration : Configuration)

/-- A second pass over a script counts nothing exactly if the script is steady. -/
theorem statistics_rewrite_rewrite_iff :
    ((script.rewrite configuration).1.rewrite configuration).2.statistics = {} ↔
      script.Steady configuration := by
  rw [statistics_rewrite, fst_rewrite]
  simp only [Script.reduced, Counted.value_bind, Counted.value_pure, Counted.counts_bind,
    Counted.counts_pure, add_zero]
  exact Statement.counts_reducedAll_reducedAll configuration script.items

/-- A pass that does nothing leaves the script as it was. -/
theorem fst_rewrite_of_statistics (nothing : (script.rewrite configuration).2.statistics = {}) :
    (script.rewrite configuration).1 = script := by
  rw [statistics_rewrite] at nothing
  rw [fst_rewrite]
  simp only [Script.reduced, Counted.value_bind, Counted.value_pure, Counted.counts_bind,
    Counted.counts_pure, add_zero] at nothing ⊢
  rw [Statement.reducedAll_of_counts configuration script.items nothing]

/-- A second pass does nothing and leaves the structure of the script exactly if the first pass
overlooked nothing. -/
theorem rewrite_rewrite_iff_steady :
    (((script.rewrite configuration).1.rewrite configuration).2.statistics = {} ∧
      ((script.rewrite configuration).1.rewrite configuration).1.same
        (script.rewrite configuration).1 = true) ↔
      script.Steady configuration := by
  rw [statistics_rewrite_rewrite_iff, and_iff_left_iff_imp]
  intro steady
  rw [fst_rewrite_of_statistics _ _ ((statistics_rewrite_rewrite_iff _ _).mpr steady)]
  exact same_refl _

/-- The argument of an assertion can take its place in a chain that is stripped. -/
theorem exists_parse_rewrite_rewrite_ne : ∃ script,
    Script.parse "log.dev.assert(log).dev.fine(1);" = .ok script ∧
      (script.rewrite .production).2.statistics = { folded := 1 } ∧
      ((script.rewrite .production).1.rewrite .production).2.statistics = { removed := 1 } ∧
      ((script.rewrite .production).1.rewrite .production).1.same
        (script.rewrite .production).1 = false := by
  refine ⟨⟨[.expression (.call (.property (.property (.call (.property (.property
    (.reference "log" ⟨0, 3⟩) "dev" ⟨0, 7⟩) "assert" ⟨0, 14⟩) [.reference "log" ⟨15, 18⟩] ⟨0, 19⟩)
    "dev" ⟨0, 23⟩) "fine" ⟨0, 28⟩) [.number "1" ⟨29, 30⟩] ⟨0, 31⟩) ⟨0, 31⟩], ⟨0, 32⟩⟩,
    ?_, ?_, ?_, ?_⟩
  all_goals cbv

end Script

end ScriptStrip
