import ScriptStrip.Proofs.Gist
import ScriptStrip.Proofs.Keeping
import ScriptStrip.Proofs.SecondPass
/-
This file shows that each act of a rewriting pass takes at least one node out of a script. A script
has finitely many nodes, so passes that are repeated come to an end.
-/

namespace ScriptStrip

mutual

/-- The number of expressions and statements in the expression, which is one of them. -/
def Expression.nodeCount : Expression → Nat
  | .array items _ => 1 + Expression.nodeCountAll items
  | .object members _ => 1 + Member.nodeCountAll members
  | .function definition => 1 + definition.nodeCount
  | .group inner _ => 1 + inner.nodeCount
  | .property parent _ _ => 1 + parent.nodeCount
  | .index parent key _ => 1 + parent.nodeCount + key.nodeCount
  | .call callee arguments _ => 1 + callee.nodeCount + Expression.nodeCountAll arguments
  | .unary _ operand _ => 1 + operand.nodeCount
  | .binary left _ right _ => 1 + left.nodeCount + right.nodeCount
  | .assign target value _ => 1 + target.nodeCount + value.nodeCount
  | _ => 1

/-- The nodes of a list of expressions are counted together. -/
def Expression.nodeCountAll : List Expression → Nat
  | [] => 0
  | first :: rest => first.nodeCount + Expression.nodeCountAll rest

/-- An absent expression has no nodes. -/
def Expression.nodeCountOption : Option Expression → Nat
  | none => 0
  | some value => value.nodeCount

/-- The nodes in the values of an object are counted together. -/
def Member.nodeCountAll : List Member → Nat
  | [] => 0
  | ⟨_, value, _⟩ :: rest => value.nodeCount + Member.nodeCountAll rest

/-- A function has the nodes of its body. -/
def FunctionDef.nodeCount : FunctionDef → Nat
  | ⟨_, _, body, _⟩ => body.nodeCount

/-- A block has the nodes of its statements. -/
def Block.nodeCount : Block → Nat
  | ⟨items, _⟩ => Statement.nodeCountAll items

/-- A statement is one node, and those of its parts. -/
def Statement.nodeCount : Statement → Nat
  | .expression value _ => 1 + value.nodeCount
  | .declaration _ items _ => 1 + Declarator.nodeCountAll items
  | .function definition => 1 + definition.nodeCount
  | .conditional condition consequent alternate _ =>
      1 + condition.nodeCount + consequent.nodeCount + Branch.nodeCountOption alternate
  | .returning value _ => 1 + Expression.nodeCountOption value
  | .block inner => 1 + inner.nodeCount
  | .empty _ => 1

/-- The nodes of a list of statements are counted together. -/
def Statement.nodeCountAll : List Statement → Nat
  | [] => 0
  | first :: rest => first.nodeCount + Statement.nodeCountAll rest

/-- The nodes in the initial values are counted together. -/
def Declarator.nodeCountAll : List Declarator → Nat
  | [] => 0
  | ⟨_, value, _⟩ :: rest => Expression.nodeCountOption value + Declarator.nodeCountAll rest

/-- A branch has the nodes of its block or statement. -/
def Branch.nodeCount : Branch → Nat
  | .braced block => block.nodeCount
  | .single statement => statement.nodeCount

/-- A missing branch has no nodes. -/
def Branch.nodeCountOption : Option Branch → Nat
  | none => 0
  | some branch => branch.nodeCount

end

/-- The number of expressions and statements in the script. -/
def Script.nodeCount (script : Script) : Nat := Statement.nodeCountAll script.items

mutual

/-- Places and quotes do not count in an expression. -/
theorem Expression.nodeCount_gist (expression : Expression) :
    expression.gist.nodeCount = expression.nodeCount := by
  cases expression with
  | array items span =>
      simp [Expression.gist, Expression.nodeCount, Expression.nodeCountAll_gistAll items]
  | object members span =>
      simp [Expression.gist, Expression.nodeCount, Member.nodeCountAll_gistAll members]
  | function definition =>
      simp [Expression.gist, Expression.nodeCount, FunctionDef.nodeCount_gist definition]
  | group inner span =>
      simp [Expression.gist, Expression.nodeCount, Expression.nodeCount_gist inner]
  | property parent name span =>
      simp [Expression.gist, Expression.nodeCount, Expression.nodeCount_gist parent]
  | index parent key span =>
      simp [Expression.gist, Expression.nodeCount, Expression.nodeCount_gist parent,
        Expression.nodeCount_gist key]
  | call callee arguments span =>
      simp [Expression.gist, Expression.nodeCount, Expression.nodeCount_gist callee,
        Expression.nodeCountAll_gistAll arguments]
  | unary operator operand span =>
      simp [Expression.gist, Expression.nodeCount, Expression.nodeCount_gist operand]
  | binary left operator right span =>
      simp [Expression.gist, Expression.nodeCount, Expression.nodeCount_gist left,
        Expression.nodeCount_gist right]
  | assign target value span =>
      simp [Expression.gist, Expression.nodeCount, Expression.nodeCount_gist target,
        Expression.nodeCount_gist value]
  | _ => rfl

/-- Places and quotes do not count in a list of expressions. -/
theorem Expression.nodeCountAll_gistAll (items : List Expression) :
    Expression.nodeCountAll (Expression.gistAll items) = Expression.nodeCountAll items := by
  cases items with
  | nil => rfl
  | cons first rest =>
      simp [Expression.gistAll, Expression.nodeCountAll, Expression.nodeCount_gist first,
        Expression.nodeCountAll_gistAll rest]

/-- Places and quotes do not count in an optional expression. -/
theorem Expression.nodeCountOption_gistOption (value : Option Expression) :
    Expression.nodeCountOption (Expression.gistOption value) =
      Expression.nodeCountOption value := by
  cases value with
  | none => rfl
  | some value => exact Expression.nodeCount_gist value

/-- Places and quotes do not count in an object. -/
theorem Member.nodeCountAll_gistAll (members : List Member) :
    Member.nodeCountAll (Member.gistAll members) = Member.nodeCountAll members := by
  cases members with
  | nil => rfl
  | cons first rest =>
      cases first with
      | mk key value span =>
          simp [Member.gistAll, Member.nodeCountAll, Expression.nodeCount_gist value,
            Member.nodeCountAll_gistAll rest]

/-- Places and quotes do not count in a function. -/
theorem FunctionDef.nodeCount_gist (definition : FunctionDef) :
    definition.gist.nodeCount = definition.nodeCount := by
  cases definition with
  | mk name parameters body span => exact Block.nodeCount_gist body

/-- Places and quotes do not count in a block. -/
theorem Block.nodeCount_gist (block : Block) : block.gist.nodeCount = block.nodeCount := by
  cases block with
  | mk items span => exact Statement.nodeCountAll_gistAll items

/-- Places and quotes do not count in a statement. -/
theorem Statement.nodeCount_gist (statement : Statement) :
    statement.gist.nodeCount = statement.nodeCount := by
  cases statement with
  | expression value span =>
      simp [Statement.gist, Statement.nodeCount, Expression.nodeCount_gist value]
  | declaration word items span =>
      simp [Statement.gist, Statement.nodeCount, Declarator.nodeCountAll_gistAll items]
  | function definition =>
      simp [Statement.gist, Statement.nodeCount, FunctionDef.nodeCount_gist definition]
  | conditional condition consequent alternate span =>
      simp [Statement.gist, Statement.nodeCount, Expression.nodeCount_gist condition,
        Branch.nodeCount_gist consequent, Branch.nodeCountOption_gistOption alternate]
  | returning value span =>
      simp [Statement.gist, Statement.nodeCount, Expression.nodeCountOption_gistOption value]
  | block inner => simp [Statement.gist, Statement.nodeCount, Block.nodeCount_gist inner]
  | empty span => rfl

/-- Places and quotes do not count in a list of statements. -/
theorem Statement.nodeCountAll_gistAll (items : List Statement) :
    Statement.nodeCountAll (Statement.gistAll items) = Statement.nodeCountAll items := by
  cases items with
  | nil => rfl
  | cons first rest =>
      simp [Statement.gistAll, Statement.nodeCountAll, Statement.nodeCount_gist first,
        Statement.nodeCountAll_gistAll rest]

/-- Places and quotes do not count in a declaration. -/
theorem Declarator.nodeCountAll_gistAll (items : List Declarator) :
    Declarator.nodeCountAll (Declarator.gistAll items) = Declarator.nodeCountAll items := by
  cases items with
  | nil => rfl
  | cons first rest =>
      cases first with
      | mk name value span =>
          simp [Declarator.gistAll, Declarator.nodeCountAll,
            Expression.nodeCountOption_gistOption value, Declarator.nodeCountAll_gistAll rest]

/-- Places and quotes do not count in a branch. -/
theorem Branch.nodeCount_gist (branch : Branch) : branch.gist.nodeCount = branch.nodeCount := by
  cases branch with
  | braced block => exact Block.nodeCount_gist block
  | single statement => exact Statement.nodeCount_gist statement

/-- Places and quotes do not count in an optional branch. -/
theorem Branch.nodeCountOption_gistOption (branch : Option Branch) :
    Branch.nodeCountOption (Branch.gistOption branch) = Branch.nodeCountOption branch := by
  cases branch with
  | none => rfl
  | some branch => exact Branch.nodeCount_gist branch

end

/-- Scripts with the same structure have the same number of nodes. -/
theorem Script.nodeCount_of_same {script other : Script} (same : script.same other = true) :
    script.nodeCount = other.nodeCount := by
  have sameItems := congrArg Script.items ((same_iff_gist script other).mp same)
  have sameCount := congrArg Statement.nodeCountAll sameItems
  simp only [Script.gist, Statement.nodeCountAll_gistAll] at sameCount
  exact sameCount

/-- Every expression is at least one node. -/
theorem Expression.nodeCount_pos (expression : Expression) : 0 < expression.nodeCount := by
  cases expression <;> simp only [Expression.nodeCount] <;> omega

/-- Taking parentheses off adds no node. -/
theorem Expression.nodeCount_ungrouped_le (expression : Expression) :
    expression.ungrouped.nodeCount ≤ expression.nodeCount := by
  fun_induction Expression.ungrouped expression with
  | case1 inner span inductionHypothesis =>
      rw [Expression.nodeCount]
      omega
  | case2 expression notGroup => exact Nat.le_refl _

namespace Configuration

variable {configuration : Configuration}

/-- A pass acts on nothing that has no node below it. -/
theorem two_le_nodeCount_of_finding {expression : Expression} {finding : Finding}
    (found : configuration.finding? expression = some finding) : 2 ≤ expression.nodeCount := by
  have whole := expression.nodeCount_ungrouped_le
  have finds := configuration.finds expression
  generalize isFinding : configuration.finding? expression = result at finds found
  cases finds with
  | @stripped callee arguments span shape strips =>
      have := callee.nodeCount_pos
      rw [shape, Expression.nodeCount] at whole
      omega
  | @asserted callee arguments span shape kept asserts =>
      have := callee.nodeCount_pos
      rw [shape, Expression.nodeCount] at whole
      omega
  | @flag parent name span flag shape production calls known =>
      have := parent.nodeCount_pos
      rw [shape, Expression.nodeCount] at whole
      omega
  | _ => cases found

/-- The argument of an assertion has fewer nodes than the call. -/
theorem nodeCount_asserted_lt {expression argument : Expression}
    (found : configuration.finding? expression = some (.asserted (some argument))) :
    argument.nodeCount < expression.nodeCount := by
  have whole := expression.nodeCount_ungrouped_le
  obtain ⟨callee, arguments, span, shape, _, _, isHead⟩ := exists_call_of_asserted found
  cases arguments with
  | nil => cases isHead
  | cons first rest =>
      cases isHead
      rw [shape, Expression.nodeCount, Expression.nodeCountAll] at whole
      omega

end Configuration

variable {configuration : Configuration}

mutual

/-- Each step that is counted takes at least one node from an expression. -/
theorem Expression.nodeCount_reduced (expression : Expression) :
    (expression.reduced configuration).value.expression.nodeCount +
      (expression.reduced configuration).counts.total ≤ expression.nodeCount := by
  rw [Expression.reduced_eq]
  cases found : configuration.finding? expression with
  | none =>
      simp only [Counted.value_map, Counted.counts_map, Slot.expression]
      exact Expression.nodeCount_reducedParts expression
  | some finding =>
      have atLeastTwo := Configuration.two_le_nodeCount_of_finding found
      cases finding with
      | stripped => exact atLeastTwo
      | flag value => exact atLeastTwo
      | asserted argument =>
          cases argument with
          | none => exact atLeastTwo
          | some argument =>
              have smaller := Configuration.sizeOf_asserted_lt found
              have fewer := Configuration.nodeCount_asserted_lt found
              have ofArgument := Expression.nodeCount_reduced argument
              simp only [Counted.value_bind, Counted.counts_bind, Counted.counts_doing,
                Statistics.total_add]
              have one : (Statistics.mk 0 1 0).total = 1 := rfl
              omega
termination_by (sizeOf expression, 1)

/-- Each step in the parts takes at least one node from the expression. -/
theorem Expression.nodeCount_reducedParts (expression : Expression) :
    (expression.reducedParts configuration).value.nodeCount +
      (expression.reducedParts configuration).counts.total ≤ expression.nodeCount := by
  cases expression with
  | array items span =>
      have ofItems := Expression.nodeCountAll_reducedAll items
      simp only [Expression.reducedParts, Expression.nodeCount, Counted.value_bind,
        Counted.counts_bind, Counted.value_pure, Counted.counts_pure, Statistics.total_add,
        Statistics.total_zero]
      omega
  | object members span =>
      have ofMembers := Member.nodeCountAll_reducedAll members
      simp only [Expression.reducedParts, Expression.nodeCount, Counted.value_bind,
        Counted.counts_bind, Counted.value_pure, Counted.counts_pure, Statistics.total_add,
        Statistics.total_zero]
      omega
  | function definition =>
      have ofDefinition := FunctionDef.nodeCount_reduced definition
      simp only [Expression.reducedParts, Expression.nodeCount, Counted.value_bind,
        Counted.counts_bind, Counted.value_pure, Counted.counts_pure, Statistics.total_add,
        Statistics.total_zero]
      omega
  | group inner span =>
      have ofInner := Expression.nodeCount_reduced inner
      simp only [Expression.reducedParts, Expression.nodeCount, Counted.value_bind,
        Counted.counts_bind, Counted.value_pure, Counted.counts_pure, Statistics.total_add,
        Statistics.total_zero]
      omega
  | property parent name span =>
      have ofParent := Expression.nodeCount_reduced parent
      simp only [Expression.reducedParts, Expression.nodeCount, Counted.value_bind,
        Counted.counts_bind, Counted.value_pure, Counted.counts_pure, Statistics.total_add,
        Statistics.total_zero]
      omega
  | index parent key span =>
      have ofParent := Expression.nodeCount_reduced parent
      have ofKey := Expression.nodeCount_reduced key
      simp only [Expression.reducedParts, Expression.nodeCount, Counted.value_bind,
        Counted.counts_bind, Counted.value_pure, Counted.counts_pure, Statistics.total_add,
        Statistics.total_zero]
      omega
  | call callee arguments span =>
      have ofCallee := Expression.nodeCount_reduced callee
      have ofArguments := Expression.nodeCountAll_reducedAll arguments
      simp only [Expression.reducedParts, Expression.nodeCount, Counted.value_bind,
        Counted.counts_bind, Counted.value_pure, Counted.counts_pure, Statistics.total_add,
        Statistics.total_zero]
      omega
  | unary operator operand span =>
      have ofOperand := Expression.nodeCount_reduced operand
      simp only [Expression.reducedParts, Expression.nodeCount, Counted.value_bind,
        Counted.counts_bind, Counted.value_pure, Counted.counts_pure, Statistics.total_add,
        Statistics.total_zero]
      omega
  | binary left operator right span =>
      have ofLeft := Expression.nodeCount_reduced left
      have ofRight := Expression.nodeCount_reduced right
      simp only [Expression.reducedParts, Expression.nodeCount, Counted.value_bind,
        Counted.counts_bind, Counted.value_pure, Counted.counts_pure, Statistics.total_add,
        Statistics.total_zero]
      omega
  | assign target value span =>
      have ofTarget := Expression.nodeCount_reducedParts target
      have ofValue := Expression.nodeCount_reduced value
      simp only [Expression.reducedParts, Expression.nodeCount, Counted.value_bind,
        Counted.counts_bind, Counted.value_pure, Counted.counts_pure, Statistics.total_add,
        Statistics.total_zero]
      omega
  | _ => simp [Expression.reducedParts, Expression.nodeCount]
termination_by (sizeOf expression, 0)

/-- Each step in the items takes at least one node from the list. -/
theorem Expression.nodeCountAll_reducedAll (items : List Expression) :
    Expression.nodeCountAll (Expression.reducedAll configuration items).value +
      (Expression.reducedAll configuration items).counts.total ≤ Expression.nodeCountAll items := by
  cases items with
  | nil => simp [Expression.reducedAll, Expression.nodeCountAll]
  | cons first rest =>
      have ofFirst := Expression.nodeCount_reduced first
      have ofRest := Expression.nodeCountAll_reducedAll rest
      simp only [Expression.reducedAll, Expression.nodeCountAll, Counted.value_bind,
        Counted.counts_bind, Counted.value_pure, Counted.counts_pure, Statistics.total_add,
        Statistics.total_zero]
      omega
termination_by (sizeOf items, 0)

/-- Each step in the members takes at least one node from the object. -/
theorem Member.nodeCountAll_reducedAll (members : List Member) :
    Member.nodeCountAll (Member.reducedAll configuration members).value +
      (Member.reducedAll configuration members).counts.total ≤ Member.nodeCountAll members := by
  cases members with
  | nil => simp [Member.reducedAll, Member.nodeCountAll]
  | cons first rest =>
      cases first with
      | mk key value span =>
          have ofValue := Expression.nodeCount_reduced value
          have ofRest := Member.nodeCountAll_reducedAll rest
          simp only [Member.reducedAll, Member.nodeCountAll, Counted.value_bind,
            Counted.counts_bind, Counted.value_pure, Counted.counts_pure, Statistics.total_add,
            Statistics.total_zero]
          omega
termination_by (sizeOf members, 0)

/-- Each step takes at least one node from a function. -/
theorem FunctionDef.nodeCount_reduced (definition : FunctionDef) :
    (definition.reduced configuration).value.nodeCount +
      (definition.reduced configuration).counts.total ≤ definition.nodeCount := by
  cases definition with
  | mk name parameters body span =>
      have ofBody := Block.nodeCount_reduced body
      simp only [FunctionDef.reduced, FunctionDef.nodeCount, Counted.value_bind,
        Counted.counts_bind, Counted.value_pure, Counted.counts_pure, Statistics.total_add,
        Statistics.total_zero]
      omega
termination_by (sizeOf definition, 0)

/-- Each step takes at least one node from a block. -/
theorem Block.nodeCount_reduced (block : Block) :
    (block.reduced configuration).value.nodeCount +
      (block.reduced configuration).counts.total ≤ block.nodeCount := by
  cases block with
  | mk items span =>
      have ofItems := Statement.nodeCountAll_reducedAll items
      simp only [Block.reduced, Block.nodeCount, Counted.value_bind, Counted.counts_bind,
        Counted.value_pure, Counted.counts_pure, Statistics.total_add, Statistics.total_zero]
      omega
termination_by (sizeOf block, 0)

/-- There is room for an empty statement where nothing is left. -/
theorem Statement.nodeCount_reduced (statement : Statement) :
    (statement.reduced configuration).value.elim 1 Statement.nodeCount +
      (statement.reduced configuration).counts.total ≤ statement.nodeCount := by
  cases statement with
  | expression value span =>
      have ofValue := Expression.nodeCount_reduced value
      rw [Statement.reduced, Counted.value_bind, Counted.counts_bind]
      cases slot : (value.reduced configuration).value with
      | filled kept =>
          rw [slot, Slot.expression] at ofValue
          simp only [Counted.value_pure, Counted.counts_pure, Statistics.total_add,
            Statistics.total_zero, Option.elim_some, Statement.nodeCount]
          omega
      | vacant span' =>
          simp only [Counted.value_pure, Counted.counts_pure, Statistics.total_add,
            Statistics.total_zero, Option.elim_none, Statement.nodeCount]
          omega
  | declaration word items span =>
      have ofItems := Declarator.nodeCountAll_reducedAll items
      simp only [Statement.reduced, Counted.value_bind, Counted.counts_bind, Counted.value_pure,
        Counted.counts_pure, Statistics.total_add, Statistics.total_zero, Option.elim_some,
        Statement.nodeCount]
      omega
  | function definition =>
      have ofDefinition := FunctionDef.nodeCount_reduced definition
      simp only [Statement.reduced, Counted.value_bind, Counted.counts_bind, Counted.value_pure,
        Counted.counts_pure, Statistics.total_add, Statistics.total_zero, Option.elim_some,
        Statement.nodeCount]
      omega
  | conditional condition consequent alternate span =>
      have ofCondition := Expression.nodeCount_reduced condition
      have ofConsequent := Branch.nodeCount_reduced consequent
      have ofAlternate := Branch.nodeCountOption_reducedOption alternate
      simp only [Statement.reduced, Counted.value_bind, Counted.counts_bind, Counted.value_pure,
        Counted.counts_pure, Statistics.total_add, Statistics.total_zero, Option.elim_some,
        Statement.nodeCount]
      omega
  | returning value span =>
      have ofValue := Expression.nodeCountOption_reducedOption value
      simp only [Statement.reduced, Counted.value_bind, Counted.counts_bind, Counted.value_pure,
        Counted.counts_pure, Statistics.total_add, Statistics.total_zero, Option.elim_some,
        Statement.nodeCount]
      omega
  | block inner =>
      have ofInner := Block.nodeCount_reduced inner
      simp only [Statement.reduced, Counted.value_bind, Counted.counts_bind, Counted.value_pure,
        Counted.counts_pure, Statistics.total_add, Statistics.total_zero, Option.elim_some,
        Statement.nodeCount]
      omega
  | empty span => simp [Statement.reduced, Statement.nodeCount]
termination_by (sizeOf statement, 0)

/-- Each step takes at least one node from an optional expression. -/
theorem Expression.nodeCountOption_reducedOption (value : Option Expression) :
    Expression.nodeCountOption (Expression.reducedOption configuration value).value +
      (Expression.reducedOption configuration value).counts.total ≤
        Expression.nodeCountOption value := by
  cases value with
  | none => simp [Expression.reducedOption, Expression.nodeCountOption]
  | some value =>
      have ofValue := Expression.nodeCount_reduced value
      simp only [Expression.reducedOption, Expression.nodeCountOption, Counted.value_bind,
        Counted.counts_bind, Counted.value_pure, Counted.counts_pure, Statistics.total_add,
        Statistics.total_zero]
      omega
termination_by (sizeOf value, 0)

/-- Each step in the statements, dropped or kept, takes at least one node. -/
theorem Statement.nodeCountAll_reducedAll (items : List Statement) :
    Statement.nodeCountAll (Statement.reducedAll configuration items).value +
      (Statement.reducedAll configuration items).counts.total ≤ Statement.nodeCountAll items := by
  cases items with
  | nil => simp [Statement.reducedAll, Statement.nodeCountAll]
  | cons first rest =>
      have ofFirst := Statement.nodeCount_reduced first
      have ofRest := Statement.nodeCountAll_reducedAll rest
      simp only [Statement.reducedAll, Counted.value_bind, Counted.counts_bind, Counted.value_pure,
        Counted.counts_pure, Statistics.total_add, Statistics.total_zero, Statement.nodeCountAll]
      cases left : (first.reduced configuration).value with
      | none =>
          rw [left, Option.elim_none] at ofFirst
          rw [Option.toList_none, List.nil_append]
          omega
      | some kept =>
          rw [left, Option.elim_some] at ofFirst
          rw [Option.toList_some, List.singleton_append, Statement.nodeCountAll]
          omega
termination_by (sizeOf items, 0)

/-- Each step in the initial values takes at least one node. -/
theorem Declarator.nodeCountAll_reducedAll (items : List Declarator) :
    Declarator.nodeCountAll (Declarator.reducedAll configuration items).value +
      (Declarator.reducedAll configuration items).counts.total ≤
        Declarator.nodeCountAll items := by
  cases items with
  | nil => simp [Declarator.reducedAll, Declarator.nodeCountAll]
  | cons first rest =>
      have ofRest := Declarator.nodeCountAll_reducedAll rest
      cases first with
      | mk name value span =>
          cases value with
          | none =>
              simp only [Declarator.reducedAll, Declarator.reduced, Declarator.nodeCountAll,
                Counted.value_bind, Counted.counts_bind, Counted.value_pure, Counted.counts_pure,
                Statistics.total_add, Statistics.total_zero]
              omega
          | some value =>
              have ofValue := Expression.nodeCount_reduced value
              simp only [Declarator.reducedAll, Declarator.reduced, Counted.value_bind,
                Counted.counts_bind, Counted.value_pure, Counted.counts_pure,
                Statistics.total_add, Statistics.total_zero, Declarator.nodeCountAll,
                Expression.nodeCountOption]
              cases slot : (value.reduced configuration).value with
              | filled kept =>
                  rw [slot, Slot.expression] at ofValue
                  simp only [Counted.value_pure, Counted.counts_pure, Statistics.total_zero,
                    Declarator.nodeCountAll, Expression.nodeCountOption]
                  omega
              | vacant span' =>
                  simp only [Counted.value_pure, Counted.counts_pure, Statistics.total_zero,
                    Declarator.nodeCountAll, Expression.nodeCountOption]
                  omega
termination_by (sizeOf items, 0)

/-- Each step takes at least one node from a branch. -/
theorem Branch.nodeCount_reduced (branch : Branch) :
    (branch.reduced configuration).value.nodeCount +
      (branch.reduced configuration).counts.total ≤ branch.nodeCount := by
  cases branch with
  | braced block =>
      have ofBlock := Block.nodeCount_reduced block
      simp only [Branch.reduced, Branch.nodeCount, Counted.value_bind, Counted.counts_bind,
        Counted.value_pure, Counted.counts_pure, Statistics.total_add, Statistics.total_zero]
      omega
  | single statement =>
      have ofStatement := Statement.nodeCount_reduced statement
      rw [Branch.reduced, Counted.value_bind, Counted.counts_bind]
      cases left : (statement.reduced configuration).value with
      | none =>
          rw [left, Option.elim_none] at ofStatement
          simp only [Counted.value_pure, Counted.counts_pure, Statistics.total_add,
            Statistics.total_zero, Branch.nodeCount, Statement.nodeCount]
          omega
      | some kept =>
          rw [left, Option.elim_some] at ofStatement
          simp only [Counted.value_pure, Counted.counts_pure, Statistics.total_add,
            Statistics.total_zero, Branch.nodeCount]
          omega
termination_by (sizeOf branch, 0)

/-- Each step takes at least one node from an optional branch. -/
theorem Branch.nodeCountOption_reducedOption (branch : Option Branch) :
    Branch.nodeCountOption (Branch.reducedOption configuration branch).value +
      (Branch.reducedOption configuration branch).counts.total ≤ Branch.nodeCountOption branch := by
  cases branch with
  | none => simp [Branch.reducedOption, Branch.nodeCountOption]
  | some branch =>
      have ofBranch := Branch.nodeCount_reduced branch
      simp only [Branch.reducedOption, Branch.nodeCountOption, Counted.value_bind,
        Counted.counts_bind, Counted.value_pure, Counted.counts_pure, Statistics.total_add,
        Statistics.total_zero]
      omega
termination_by (sizeOf branch, 0)

end

namespace Script

variable (script : Script) (configuration : Configuration)

/-- A pass that acts takes away at least as many nodes as it acts times. -/
theorem nodeCount_rewrite :
    (script.rewrite configuration).1.nodeCount +
      (script.rewrite configuration).2.statistics.total ≤ script.nodeCount := by
  have ofItems : _ + (Statement.reducedAll configuration script.items).counts.total ≤ _ :=
    Statement.nodeCountAll_reducedAll script.items
  rw [fst_rewrite, statistics_rewrite]
  simpa [Script.reduced, nodeCount] using ofItems

/-- Nothing changes if and only if nothing is counted. -/
theorem total_rewrite_eq_zero_iff :
    (script.rewrite configuration).2.statistics.total = 0 ↔
      (script.rewrite configuration).1.same script = true := by
  constructor
  · intro nothing
    rw [fst_rewrite_of_statistics _ _ (Statistics.total_eq_zero_iff.mp nothing)]
    exact script.same_refl
  · intro same
    have fewer := script.nodeCount_rewrite configuration
    rw [nodeCount_of_same same] at fewer
    omega

/-- The walk is not cut short: more levels than the script has change nothing. -/
theorem rewrite_of_height_le {levels : Nat} (enough : script.height ≤ levels) :
    ((configuration.rewriter.itemsWithin levels [.script] script.span script.items).run {}).1 =
        (script.rewrite configuration).1.items ∧
      ((configuration.rewriter.itemsWithin levels [.script] script.span
        script.items).run {}).2.statistics = (script.rewrite configuration).2.statistics := by
  have lower : Statement.heightList script.items < levels := Nat.lt_of_lt_of_le
    (Nat.lt_succ_self _) enough
  obtain ⟨sameItems, sameCounts⟩ :=
    (configuration.walksTo levels).items [.script] script.span script.items lower {}
  rw [fst_rewrite, statistics_rewrite]
  refine ⟨sameItems, sameCounts.trans ?_⟩
  rw [Script.reduced, Counted.counts_bind, Counted.counts_pure, add_zero]
  exact zero_add _

/-- The script behind so many passes. -/
def afterPasses : Nat → Script
  | 0 => script
  | passes + 1 => ((afterPasses passes).rewrite configuration).1

/-- Each pass that acts takes away a node. -/
theorem nodeCount_afterPasses {passes : Nat} (busy : ∀ earlier < passes,
      ((script.afterPasses configuration earlier).rewrite configuration).2.statistics ≠ {}) :
    (script.afterPasses configuration passes).nodeCount + passes ≤ script.nodeCount := by
  induction passes with
  | zero => exact Nat.le_refl _
  | succ passes inductionHypothesis =>
      have before := inductionHypothesis fun earlier isEarlier =>
        busy earlier (Nat.lt_succ_of_lt isEarlier)
      have fewer := (script.afterPasses configuration passes).nodeCount_rewrite configuration
      have acts := mt Statistics.total_eq_zero_iff.mp (busy passes (Nat.lt_succ_self passes))
      rw [afterPasses]
      omega

/-- There is a quiet pass behind as many passes as the script has nodes. -/
theorem exists_afterPasses_statistics : ∃ passes ≤ script.nodeCount,
    ((script.afterPasses configuration passes).rewrite configuration).2.statistics = {} := by
  by_contra none
  have tooFew : _ + (script.nodeCount + 1) ≤ script.nodeCount :=
    script.nodeCount_afterPasses configuration fun earlier isEarlier quiet =>
      none ⟨earlier, Nat.le_of_lt_succ isEarlier, quiet⟩
  omega

/-- Once a pass does nothing, no further pass does anything. -/
theorem afterPasses_of_statistics {passes further : Nat}
    (quiet : ((script.afterPasses configuration passes).rewrite configuration).2.statistics = {})
    (later : passes ≤ further) :
    script.afterPasses configuration further = script.afterPasses configuration passes := by
  induction further, later using Nat.le_induction with
  | base => rfl
  | succ further later inductionHypothesis =>
      rw [afterPasses, inductionHypothesis]
      exact fst_rewrite_of_statistics _ _ quiet

/-- A pass ends and counts what it does, which is what it logs. It does something exactly if it
changes the script, and each act takes a node away. So there are no more passes that change
anything than the script has nodes. -/
theorem rewrite_converges :
    (∀ levels, script.height ≤ levels →
      ((configuration.rewriter.itemsWithin levels [.script] script.span script.items).run {}).1 =
          (script.rewrite configuration).1.items ∧
        ((configuration.rewriter.itemsWithin levels [.script] script.span
          script.items).run {}).2.statistics = (script.rewrite configuration).2.statistics) ∧
    ((script.rewrite configuration).2.statistics.total = 0 ↔
      (script.rewrite configuration).1.same script = true) ∧
    (script.rewrite configuration).1.nodeCount +
      (script.rewrite configuration).2.statistics.total ≤ script.nodeCount ∧
    (script.rewrite configuration).2.log.countP Event.isRewriting =
      (script.rewrite configuration).2.statistics.total ∧
    ∃ passes ≤ script.nodeCount, ∀ further, passes ≤ further →
      script.afterPasses configuration further = script.afterPasses configuration passes ∧
        ((script.afterPasses configuration further).rewrite configuration).2.statistics = {} := by
  refine ⟨fun levels => script.rewrite_of_height_le configuration,
    script.total_rewrite_eq_zero_iff configuration, script.nodeCount_rewrite configuration,
    script.tellsAll_rewrite configuration, ?_⟩
  obtain ⟨passes, few, quiet⟩ := script.exists_afterPasses_statistics configuration
  refine ⟨passes, few, fun further later => ?_⟩
  have settled := script.afterPasses_of_statistics configuration quiet later
  exact ⟨settled, by rw [settled, quiet]⟩

end Script

end ScriptStrip
