import ScriptStrip.Proofs.Findings
import ScriptStrip.Proofs.Yields
/-
This file shows that a rewriting pass does what the recursion over the tree says. The pass offers
the expression of a statement twice, so the proof is about what two offers make of it together.
-/

namespace ScriptStrip

/-- The parts of an expression that is left are still to be looked at. -/
def Slot.reducedParts (configuration : Configuration) : Slot → Counted Slot
  | .vacant span => return .vacant span
  | .filled expression => .filled <$> expression.reducedParts configuration

/-- Every expression has a height. -/
theorem Expression.height_pos (expression : Expression) : 0 < expression.height := by
  cases expression <;> simp [Expression.height]

/-- Taking parentheses off makes no tree higher. -/
theorem Expression.height_ungrouped (expression : Expression) :
    expression.ungrouped.height ≤ expression.height := by
  fun_induction Expression.ungrouped expression with
  | case1 inner span inductionHypothesis =>
      rw [Expression.height]
      omega
  | case2 expression notGroup => exact Nat.le_refl _

/-- No item is higher than its list. -/
theorem Expression.height_le_heightList {items : List Expression} {item : Expression}
    (inside : item ∈ items) : item.height ≤ Expression.heightList items := by
  induction items with
  | nil => cases inside
  | cons first rest inductionHypothesis =>
      rw [Expression.heightList]
      rcases List.mem_cons.mp inside with rfl | inRest
      · exact Nat.le_max_left _ _
      · exact Nat.le_trans (inductionHypothesis inRest) (Nat.le_max_right _ _)

/-- No value is higher than its object. -/
theorem Member.height_le_heightList {members : List Member} {member : Member}
    (inside : member ∈ members) : member.value.height ≤ Member.heightList members := by
  induction members with
  | nil => cases inside
  | cons first rest inductionHypothesis =>
      obtain ⟨key, value, span⟩ := first
      rw [Member.heightList]
      rcases List.mem_cons.mp inside with rfl | inRest
      · exact Nat.le_max_left _ _
      · exact Nat.le_trans (inductionHypothesis inRest) (Nat.le_max_right _ _)

namespace Configuration

variable {configuration : Configuration}

/-- The argument of an assertion lies below the call. -/
theorem height_asserted {expression argument : Expression}
    (found : configuration.finding? expression = some (.asserted (some argument))) :
    argument.height < expression.height := by
  have lower := expression.height_ungrouped
  unfold finding? at found
  split at found
  · rename_i callee arguments span shape
    unfold callFinding? at found
    split at found
    · cases found
    · split at found
      · cases found
      · split at found
        · cases arguments with
          | nil => cases found
          | cons first rest =>
              cases found
              rw [shape, Expression.height, Expression.heightList] at lower
              omega
        · cases found
  · split at found
    · obtain ⟨flag, _, absurd⟩ := Option.map_eq_some_iff.mp found
      cases absurd
    · cases found
  · cases found

/-- What is left of an expression as a whole has its parts rewritten next, and as a whole it is
not acted on again. -/
theorem yields_settle (configuration : Configuration) (expression : Expression) :
    ∃ settled, Yields (configuration.settle expression) settled ∧
      expression.reduced configuration = settled >>= Slot.reducedParts configuration ∧
      ∀ kept, settled.value = .filled kept →
        configuration.finding? kept = none ∧ kept.height ≤ expression.height := by
  fun_induction settle configuration expression with
  | case1 expression notFound =>
      refine ⟨pure (.filled expression), Yields.pure _, ?_, ?_⟩
      · rw [Expression.reduced_eq, notFound, pure_bind]
        rfl
      · rintro kept ⟨⟩
        exact ⟨notFound, Nat.le_refl _⟩
  | case2 expression found =>
      refine ⟨_, Yields.afterNote expression .stripped (Yields.pure _), ?_, ?_⟩
      · rw [Expression.reduced_eq, found]
        rfl
      · rintro kept ⟨⟩
  | case3 expression value found =>
      refine ⟨_, Yields.afterNote expression (.flag value) (Yields.pure _), ?_, ?_⟩
      · rw [Expression.reduced_eq, found, bind_assoc, pure_bind, Slot.reducedParts,
          Expression.reducedParts_boolean]
        rfl
      · rintro kept ⟨⟩
        exact ⟨rfl, expression.height_pos⟩
  | case4 expression found =>
      refine ⟨_, Yields.afterNote expression (.asserted none) (Yields.pure _), ?_, ?_⟩
      · rw [Expression.reduced_eq, found]
        rfl
      · rintro kept ⟨⟩
  -- An assertion settles its argument in its own place.
  | case5 expression argument found inductionHypothesis =>
      obtain ⟨settled, yields, whole, each⟩ := inductionHypothesis
      refine ⟨_, Yields.afterNote expression (.asserted (some argument)) yields, ?_, ?_⟩
      · rw [Expression.reduced_eq, found, bind_assoc]
        simp only [whole]
        rfl
      · intro kept isKept
        obtain ⟨notFound, lower⟩ := each kept isKept
        exact ⟨notFound, Nat.le_trans lower (Nat.le_of_lt (height_asserted found))⟩

end Configuration

namespace Yields

variable {Value Result : Type} {configuration : Configuration}
  {part : Expression → StateM Report Expression} {function : FunctionDef → StateM Report FunctionDef}

/-- A place that needs an expression is filled with the undefined value if nothing is left. -/
theorem bindSlot {action : StateM Report Expression} {slot : Counted Slot}
    {next : Expression → StateM Report Result} {following : Slot → Counted Result}
    (first : Yields action (Slot.expression <$> slot))
    (second : Yields (next slot.value.expression) (following slot.value)) :
    Yields (action >>= next) (slot >>= following) := by
  have sameFollowing : slot >>= following =
      (Slot.expression <$> slot) >>= fun _ => following slot.value := by
    apply Counted.ext
    · rfl
    · rw [Counted.counts_bind, Counted.counts_bind, Counted.counts_map]
  rw [sameFollowing]
  exact first.bind second

/-- A round over items reduces each of them. -/
theorem reducedAll {items : List Expression}
    (each : ∀ item ∈ items, Yields (part item) (Slot.expression <$> item.reduced configuration)) :
    Yields (items.mapM part) (Expression.reducedAll configuration items) := by
  induction items with
  | nil =>
      rw [Expression.reducedAll]
      exact Yields.pure []
  | cons first rest inductionHypothesis =>
      rw [List.mapM_cons, Expression.reducedAll]
      refine (each first List.mem_cons_self).bindSlot ?_
      refine Yields.bind ?_ (Yields.pure _)
      exact inductionHypothesis fun item inside => each item (List.mem_cons_of_mem _ inside)

/-- A round over members reduces each value. -/
theorem reducedMembers {members : List Member} (each : ∀ member ∈ members,
      Yields (part member.value) (Slot.expression <$> member.value.reduced configuration)) :
    Yields (members.mapM fun member => do return { member with value := ← part member.value })
      (Member.reducedAll configuration members) := by
  induction members with
  | nil =>
      rw [Member.reducedAll]
      exact Yields.pure []
  | cons first rest inductionHypothesis =>
      obtain ⟨key, value, span⟩ := first
      rw [List.mapM_cons, Member.reducedAll, bind_assoc]
      refine (each ⟨key, value, span⟩ List.mem_cons_self).bindSlot ?_
      rw [pure_bind]
      refine Yields.bind ?_ (Yields.pure _)
      exact inductionHypothesis fun member inside => each member (List.mem_cons_of_mem _ inside)

/-- An action that yields what is left of everything below an expression yields what is left of
the parts of the expression. -/
theorem reducedParts (configuration : Configuration) (expression : Expression)
    (parts : ∀ child, child.height < expression.height →
      Yields (part child) (Slot.expression <$> child.reduced configuration))
    (functions : ∀ definition, definition.height < expression.height →
      Yields (function definition) (definition.reduced configuration)) :
    Yields (expression.traverse part function) (expression.reducedParts configuration) := by
  cases expression with
  | array items span =>
      rw [Expression.traverse, Expression.reducedParts]
      refine Yields.bind (Yields.reducedAll fun item inside => parts item ?_) (Yields.pure _)
      have := Expression.height_le_heightList inside
      rw [Expression.height]
      omega
  | object members span =>
      rw [Expression.traverse, Expression.reducedParts]
      refine Yields.bind (Yields.reducedMembers fun member inside => parts member.value ?_)
        (Yields.pure _)
      have := Member.height_le_heightList inside
      rw [Expression.height]
      omega
  | function definition =>
      rw [Expression.traverse, Expression.reducedParts]
      refine (functions definition ?_).bind (Yields.pure _)
      simp [Expression.height]
  | group inner span =>
      rw [Expression.traverse, Expression.reducedParts]
      refine (parts inner ?_).bindSlot (Yields.pure _)
      simp [Expression.height]
  | property parent name span =>
      rw [Expression.traverse, Expression.reducedParts]
      refine (parts parent ?_).bindSlot (Yields.pure _)
      simp [Expression.height]
  | index parent key span =>
      rw [Expression.traverse, Expression.reducedParts]
      refine (parts parent ?_).bindSlot ((parts key ?_).bindSlot (Yields.pure _))
      all_goals
        rw [Expression.height]
        omega
  | call callee arguments span =>
      rw [Expression.traverse, Expression.reducedParts]
      refine (parts callee ?_).bindSlot
        (Yields.bind (Yields.reducedAll fun item inside => parts item ?_) (Yields.pure _))
      · rw [Expression.height]
        omega
      · have := Expression.height_le_heightList inside
        rw [Expression.height]
        omega
  | unary operator operand span =>
      rw [Expression.traverse, Expression.reducedParts]
      refine (parts operand ?_).bindSlot (Yields.pure _)
      simp [Expression.height]
  | binary left operator right span =>
      rw [Expression.traverse, Expression.reducedParts]
      refine (parts left ?_).bindSlot ((parts right ?_).bindSlot (Yields.pure _))
      all_goals
        rw [Expression.height]
        omega
  | assign target value span =>
      rw [Expression.traverse, Expression.reducedParts]
      refine Yields.bind (reducedParts configuration target (fun child lower => parts child ?_)
        (fun definition lower => functions definition ?_))
        ((parts value ?_).bindSlot (Yields.pure _))
      all_goals
        rw [Expression.height]
        omega
  | _ =>
      simp only [Expression.traverse, Expression.reducedParts]
      exact Yields.pure _

end Yields

/-- Declared names are reduced one by one. -/
theorem Declarator.reducedAll_eq_mapM (configuration : Configuration) (items : List Declarator) :
    Declarator.reducedAll configuration items = items.mapM (Declarator.reduced configuration) := by
  induction items with
  | nil => rw [Declarator.reducedAll, List.mapM_nil]
  | cons first rest inductionHypothesis =>
      rw [Declarator.reducedAll, List.mapM_cons, inductionHypothesis]

/-- Statements are reduced one by one, and some are dropped. -/
theorem Statement.reducedAll_eq_filterMapM (configuration : Configuration)
    (items : List Statement) : Statement.reducedAll configuration items =
      items.filterMapM (Statement.reduced configuration) := by
  induction items with
  | nil => rw [Statement.reducedAll, List.filterMapM_nil]
  | cons first rest inductionHypothesis =>
      rw [Statement.reducedAll, List.filterMapM_cons, inductionHypothesis]
      apply bind_congr
      intro kept
      cases kept <;> simp

/-- No initial value is higher than its declaration. -/
theorem Declarator.height_le_heightList {items : List Declarator} {item : Declarator}
    (inside : item ∈ items) :
    Expression.heightOption item.value ≤ Declarator.heightList items := by
  induction items with
  | nil => cases inside
  | cons first rest inductionHypothesis =>
      obtain ⟨name, value, span⟩ := first
      rw [Declarator.heightList]
      rcases List.mem_cons.mp inside with rfl | inRest
      · exact Nat.le_max_left _ _
      · exact Nat.le_trans (inductionHypothesis inRest) (Nat.le_max_right _ _)

/-- No statement is higher than its list. -/
theorem Statement.height_le_heightList {items : List Statement} {item : Statement}
    (inside : item ∈ items) : item.height ≤ Statement.heightList items := by
  induction items with
  | nil => cases inside
  | cons first rest inductionHypothesis =>
      rw [Statement.heightList]
      rcases List.mem_cons.mp inside with rfl | inRest
      · exact Nat.le_max_left _ _
      · exact Nat.le_trans (inductionHypothesis inRest) (Nat.le_max_right _ _)

/-- Every statement has a height. -/
theorem Statement.height_pos (statement : Statement) : 0 < statement.height := by
  cases statement <;> simp [Statement.height]

namespace Configuration

variable {configuration : Configuration} {levels : Nat}

/-- The walk leaves of trees of so many levels what the recursion leaves of them. -/
structure WalksTo (configuration : Configuration) (levels : Nat) : Prop where
  expressions : ∀ chain expression, expression.height ≤ levels →
    Yields (configuration.rewriter.expressionWithin levels chain expression)
      (Slot.expression <$> expression.reduced configuration)
  statements : ∀ chain statement, statement.height ≤ levels →
    KeptRounds configuration.rewriteItem?
      (configuration.rewriter.statementWithin levels chain) statement
      (statement.reduced configuration)
  items : ∀ chain span items, Statement.heightList items < levels →
    Yields (configuration.rewriter.itemsWithin levels chain span items)
      (Statement.reducedAll configuration items)

/-- The bodies of functions are walked through as lists of statements. -/
theorem WalksTo.functions (walks : configuration.WalksTo levels) (chain : ScopeChain)
    (definition : FunctionDef) (lower : definition.height ≤ levels) :
    Yields (do
        let items ← configuration.rewriter.itemsWithin levels
          (chain ++ [.function definition.span]) definition.body.span definition.body.items
        return { definition with body := { definition.body with items } })
      (definition.reduced configuration) := by
  obtain ⟨name, parameters, ⟨items, span⟩, whole⟩ := definition
  rw [FunctionDef.height, Block.height] at lower
  rw [FunctionDef.reduced, Block.reduced, bind_assoc]
  exact (walks.items _ _ _ lower).bind (Yields.pure _)

/-- A walk reaches the statements of a block. -/
theorem WalksTo.blocks (walks : configuration.WalksTo levels) (chain : ScopeChain) (block : Block)
    (lower : block.height ≤ levels) :
    Yields (do
        let items ← configuration.rewriter.itemsWithin levels (chain ++ [.block block.span])
          block.span block.items
        return { block with items })
      (block.reduced configuration) := by
  obtain ⟨items, span⟩ := block
  rw [Block.height] at lower
  rw [Block.reduced]
  exact (walks.items _ _ _ lower).bind (Yields.pure _)

/-- A walk with one level more reduces expressions that are one higher. -/
theorem WalksTo.expressions_succ (walks : configuration.WalksTo levels) (chain : ScopeChain)
    (expression : Expression) (lower : expression.height ≤ levels + 1) :
    Yields (configuration.rewriter.expressionWithin (levels + 1) chain expression)
      (Slot.expression <$> expression.reduced configuration) := by
  obtain ⟨⟨slot, counts⟩, yields, whole, each⟩ := yields_settle configuration expression
  rw [Visitor.expressionWithin]
  change Yields (configuration.rewriteExpression expression >>= _) _
  rw [rewriteExpression, bind_assoc, whole, map_bind]
  refine yields.bind ?_
  cases slot with
  | vacant span =>
      rw [pure_bind, Expression.traverse]
      · exact Yields.pure _
      all_goals simp
  | filled kept =>
      rw [pure_bind, Slot.reducedParts, ← comp_map]
      obtain ⟨_, keptLower⟩ := each kept rfl
      have parts := Yields.reducedParts configuration kept
        (fun child childLower => walks.expressions chain child (by omega))
        (fun definition definitionLower => walks.functions chain definition (by omega))
      exact parts.map id

/-- Only the parts of an expression are left to walk through if nothing is found at it. -/
theorem WalksTo.kept (walks : configuration.WalksTo levels) (chain : ScopeChain)
    {expression : Expression} (notFound : configuration.finding? expression = none)
    (lower : expression.height ≤ levels) :
    Yields (configuration.rewriter.expressionWithin levels chain expression)
      (expression.reducedParts configuration) := by
  have walked := walks.expressions chain expression lower
  rw [Expression.reduced_eq, notFound] at walked
  exact walked

/-- An initial value is offered with its declaration first and by itself afterwards. -/
theorem WalksTo.declarators (walks : configuration.WalksTo levels) (chain : ScopeChain)
    (item : Declarator) (lower : Expression.heightOption item.value ≤ levels) :
    TwoRounds configuration.rewriteDeclarator
      (fun item => do
        return { item with
          value := ← item.value.mapM (configuration.rewriter.expressionWithin levels chain) })
      item (item.reduced configuration) := by
  obtain ⟨name, value, span⟩ := item
  cases value with
  | none =>
      refine ⟨pure _, pure _, Yields.pure _, Yields.pure _, ?_⟩
      rw [Declarator.reduced]
      rfl
  | some value =>
      obtain ⟨⟨slot, counts⟩, yields, whole, each⟩ :=
        yields_settle configuration value
      cases slot with
      | vacant span' =>
          refine ⟨_, pure _, yields.bindTo (Yields.pure _), Yields.pure _, ?_⟩
          rw [Declarator.reduced, whole]
          apply Counted.ext
          · rfl
          · simp [Slot.reducedParts]
      | filled kept =>
          obtain ⟨notFound, keptLower⟩ := each kept rfl
          have walked := walks.kept chain notFound (Nat.le_trans keptLower lower)
          refine ⟨_, _, yields.bindTo (Yields.pure _), (walked.map some).bindTo (Yields.pure _), ?_⟩
          rw [Declarator.reduced, whole]
          apply Counted.ext
          · rfl
          · simp [Slot.reducedParts]

/-- The empty statement is left as it is. -/
theorem yields_empty (chain : ScopeChain) (span : Span) :
    Yields (configuration.rewriter.statementWithin levels chain (.empty span))
      (pure (.empty span)) := by
  cases levels with
  | zero => exact Yields.pure _
  | succ levels => exact Yields.pure _

/-- A single statement is offered with its branch first and by itself afterwards. -/
theorem WalksTo.branches (walks : configuration.WalksTo levels) (chain : ScopeChain)
    (branch : Branch) (lower : branch.height ≤ levels) :
    TwoRounds configuration.rewriteBranch
      (Branch.traverse
        (fun block => do
          let items ← configuration.rewriter.itemsWithin levels (chain ++ [.block block.span])
            block.span block.items
          return { block with items })
        (configuration.rewriter.statementWithin levels chain))
      branch (branch.reduced configuration) := by
  cases branch with
  | braced block =>
      refine ⟨pure (.braced block), _, Yields.pure _,
        (walks.blocks chain block lower).bindTo (Yields.pure _), ?_⟩
      rw [Branch.reduced]
      apply Counted.ext
      · rfl
      · simp
  | single statement =>
      have rounds := walks.statements chain statement lower
      rw [Branch.reduced]
      generalize statement.reduced configuration = result at rounds
      cases rounds with
      | dropped drops =>
          refine ⟨_, _, drops.bindTo (Yields.pure _),
            (yields_empty chain _).bindTo (Yields.pure _), ?_⟩
          apply Counted.ext
          · rfl
          · simp
      | kept keeps walks =>
          refine ⟨_, _, keeps.bindTo (Yields.pure _), walks.bindTo (Yields.pure _), ?_⟩
          apply Counted.ext
          · rfl
          · simp

/-- The statements of a list are offered first and walked through one by one afterwards. -/
theorem WalksTo.items_succ (walks : configuration.WalksTo levels) (chain : ScopeChain)
    (span : Span) (items : List Statement) (lower : Statement.heightList items ≤ levels) :
    Yields (configuration.rewriter.itemsWithin (levels + 1) chain span items)
      (Statement.reducedAll configuration items) := by
  have rounds := KeptRounds.filterMapM fun item inside =>
    walks.statements chain item (Nat.le_trans (Statement.height_le_heightList inside) lower)
  rw [← Statement.reducedAll_eq_filterMapM] at rounds
  rw [Visitor.itemsWithin]
  change Yields (configuration.rewriteItems chain items >>= _) _
  rw [rewriteItems, bind_assoc]
  exact Yields.afterRecord _ rounds.yields

/-- A walk reaches an optional expression. -/
theorem WalksTo.options (walks : configuration.WalksTo levels) (chain : ScopeChain)
    (value : Option Expression) (lower : Expression.heightOption value ≤ levels) :
    Yields (value.mapM (configuration.rewriter.expressionWithin levels chain))
      (Expression.reducedOption configuration value) := by
  cases value with
  | none =>
      rw [Expression.reducedOption]
      exact Yields.pure none
  | some value =>
      rw [Expression.reducedOption]
      have walked := (walks.expressions chain value lower).map some
      rwa [← comp_map] at walked

/-- The second branch can be missing. -/
theorem WalksTo.branchOptions (walks : configuration.WalksTo levels) (chain : ScopeChain)
    (branch : Option Branch) (lower : Branch.heightOption branch ≤ levels) :
    TwoRounds (Option.mapM configuration.rewriteBranch)
      (Option.mapM (Branch.traverse
        (fun block => do
          let items ← configuration.rewriter.itemsWithin levels (chain ++ [.block block.span])
            block.span block.items
          return { block with items })
        (configuration.rewriter.statementWithin levels chain)))
      branch (Branch.reducedOption configuration branch) := by
  cases branch with
  | none =>
      refine ⟨pure none, pure none, Yields.pure _, Yields.pure _, ?_⟩
      rw [Branch.reducedOption]
      rfl
  | some branch =>
      obtain ⟨offered, walked, offers, walks, whole⟩ := walks.branches chain branch lower
      refine ⟨some <$> offered, some <$> walked, offers.map some, walks.map some, ?_⟩
      rw [Branch.reducedOption, whole]
      apply Counted.ext
      · rfl
      · simp

/-- Nothing is left of a statement if nothing is left of its expression. -/
theorem WalksTo.expressionRounds (walks : configuration.WalksTo levels) (chain : ScopeChain)
    (value : Expression) (span : Span) (lower : value.height ≤ levels) :
    KeptRounds configuration.rewriteItem?
      (configuration.rewriter.statementWithin (levels + 1) chain) (.expression value span)
      ((Statement.expression value span).reduced configuration) := by
  obtain ⟨⟨slot, counts⟩, yields, whole, each⟩ := yields_settle configuration value
  cases slot with
  | vacant span' =>
      have drops : Yields (configuration.rewriteItem? (.expression value span)) _ :=
        yields.bindTo (Yields.pure _)
      refine KeptRounds.of_dropped drops ?_
      rw [Statement.reduced, whole]
      apply Counted.ext
      · rfl
      · simp [Slot.reducedParts]
  | filled kept =>
      obtain ⟨notFound, keptLower⟩ := each kept rfl
      have keeps : Yields (configuration.rewriteItem? (.expression value span)) _ :=
        yields.bindTo (Yields.pure _)
      have walked := (walks.kept chain notFound (Nat.le_trans keptLower lower)).map
        (Statement.expression · span)
      refine KeptRounds.of_kept keeps walked ?_
      rw [Statement.reduced, whole]
      apply Counted.ext
      · rfl
      · simp [Slot.reducedParts]

/-- The declarators are offered with the declaration and walked through one by one afterwards. -/
theorem WalksTo.declarationRounds (walks : configuration.WalksTo levels) (chain : ScopeChain)
    (word : DeclarationWord) (items : List Declarator) (span : Span)
    (lower : Declarator.heightList items ≤ levels) :
    KeptRounds configuration.rewriteItem?
      (configuration.rewriter.statementWithin (levels + 1) chain) (.declaration word items span)
      ((Statement.declaration word items span).reduced configuration) := by
  have rounds : TwoRounds _ _ items _ := TwoRounds.mapM fun item inside =>
    walks.declarators chain item (Nat.le_trans (Declarator.height_le_heightList inside) lower)
  obtain ⟨offered, walked, offers, walks, whole⟩ := rounds
  have keeps : Yields (configuration.rewriteItem? (.declaration word items span)) _ :=
    offers.bindTo (Yields.pure _)
  refine KeptRounds.of_kept keeps (walks.map (Statement.declaration word · span)) ?_
  rw [Statement.reduced, Declarator.reducedAll_eq_mapM, whole]
  apply Counted.ext
  · rfl
  · simp

/-- The branches are offered before the condition is read, and walked through behind it. -/
theorem WalksTo.conditionalRounds (walks : configuration.WalksTo levels) (chain : ScopeChain)
    (condition : Expression) (consequent : Branch) (alternate : Option Branch) (span : Span)
    (lower : (Statement.conditional condition consequent alternate span).height ≤ levels + 1) :
    KeptRounds configuration.rewriteItem?
      (configuration.rewriter.statementWithin (levels + 1) chain)
      (.conditional condition consequent alternate span)
      ((Statement.conditional condition consequent alternate span).reduced configuration) := by
  rw [Statement.height] at lower
  obtain ⟨offered, walked, offers, walksBranch, whole⟩ :=
    walks.branches chain consequent (by omega)
  obtain ⟨offered', walked', offers', walksBranch', whole'⟩ :=
    walks.branchOptions chain alternate (by omega)
  have read := walks.expressions chain condition (by omega)
  have both : Yields
      (configuration.rewriteStatement (.conditional condition consequent alternate span)) _ :=
    offers.bindTo (offers'.bindTo (Yields.pure _))
  have walks : Yields (configuration.rewriter.statementWithin (levels + 1) chain
      (.conditional condition consequent alternate span)) _ :=
    both.bindTo (read.bindTo (walksBranch.bindTo (walksBranch'.bindTo (Yields.pure _))))
  refine KeptRounds.of_kept (Yields.pure _) walks ?_
  rw [Statement.reduced, whole, whole']
  apply Counted.ext
  · rfl
  · -- Only the order in which the actions are counted differs.
    simp only [Counted.counts_bind, Counted.counts_pure, add_zero, zero_add]
    ac_rfl

/-- A statement that only a part of is read is left with what is left of that part. -/
theorem keptRounds_of_part {Part : Type} {chain : ScopeChain} {statement : Statement}
    {walk : StateM Report Part} {part : Counted Part} {whole : Part → Statement}
    (offers : Yields (configuration.rewriteItem? statement) (pure (some statement)))
    (isWalk : configuration.rewriter.statementWithin (levels + 1) chain statement =
      whole <$> walk)
    (walks : Yields walk part)
    (isReduced : statement.reduced configuration = do return some (whole (← part))) :
    KeptRounds configuration.rewriteItem?
      (configuration.rewriter.statementWithin (levels + 1) chain) statement
      (statement.reduced configuration) := by
  have walked := walks.map whole
  rw [← isWalk] at walked
  refine KeptRounds.of_kept offers walked ?_
  rw [isReduced]
  apply Counted.ext
  · rfl
  · simp

/-- The offers of a statement come to what the recursion makes of it. -/
theorem WalksTo.statements_succ (walks : configuration.WalksTo levels) (chain : ScopeChain)
    (statement : Statement) (lower : statement.height ≤ levels + 1) :
    KeptRounds configuration.rewriteItem?
      (configuration.rewriter.statementWithin (levels + 1) chain) statement
      (statement.reduced configuration) := by
  cases statement with
  | expression value span =>
      exact walks.expressionRounds chain value span (Nat.le_of_succ_le_succ lower)
  | declaration word items span =>
      exact walks.declarationRounds chain word items span (Nat.le_of_succ_le_succ lower)
  | function definition =>
      exact keptRounds_of_part (Yields.pure _) rfl
        (walks.functions chain definition (Nat.le_of_succ_le_succ lower))
        (Statement.reduced.eq_def _ _)
  | conditional condition consequent alternate span =>
      exact walks.conditionalRounds chain condition consequent alternate span lower
  | returning value span =>
      exact keptRounds_of_part (Yields.pure _) rfl
        (walks.options chain value (Nat.le_of_succ_le_succ lower)) (Statement.reduced.eq_def _ _)
  | block inner =>
      exact keptRounds_of_part (Yields.pure _) rfl
        (walks.blocks chain inner (Nat.le_of_succ_le_succ lower)) (Statement.reduced.eq_def _ _)
  | empty span =>
      refine KeptRounds.of_kept (Yields.pure _) (yields_empty chain span) ?_
      rw [Statement.reduced]
      rfl

/-- The walk down to any number of levels is the recursion on the trees that are no deeper. -/
theorem walksTo (configuration : Configuration) (levels : Nat) : configuration.WalksTo levels := by
  induction levels with
  | zero =>
      refine ⟨?_, ?_, ?_⟩
      · intro chain expression lower
        have := expression.height_pos
        omega
      · intro chain statement lower
        have := statement.height_pos
        omega
      · intro chain span items lower
        omega
  | succ levels inductionHypothesis =>
      refine ⟨?_, ?_, ?_⟩
      · exact inductionHypothesis.expressions_succ
      · exact inductionHypothesis.statements_succ
      · intro chain span items lower
        exact inductionHypothesis.items_succ chain span items (Nat.le_of_lt_succ lower)

end Configuration

namespace Script

variable (script : Script) (configuration : Configuration)

/-- The walk over a script does what the recursion says. -/
theorem yields_rewriter : Yields (configuration.rewriter.script script)
    (script.reduced configuration) := by
  have lower : Statement.heightList script.items < script.height := Nat.lt_succ_self _
  exact ((configuration.walksTo _).items _ _ _ lower).bind (Yields.pure _)

/-- The rewritten script is the reduced one. -/
theorem fst_rewrite : (script.rewrite configuration).1 = (script.reduced configuration).value :=
  (script.yields_rewriter configuration {}).1

/-- The statistics of a rewrite are the counts of the reduction. -/
theorem statistics_rewrite :
    (script.rewrite configuration).2.statistics = (script.reduced configuration).counts :=
  (script.yields_rewriter configuration {}).2.trans (zero_add _)

/-- A pass leaves exactly the script of the recursion and counts what the recursion counts. -/
theorem rewrite_eq_reduced :
    (script.rewrite configuration).1 = (script.reduced configuration).value ∧
      (script.rewrite configuration).2.statistics = (script.reduced configuration).counts :=
  ⟨script.fst_rewrite configuration, script.statistics_rewrite configuration⟩

end Script

end ScriptStrip
