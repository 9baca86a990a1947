import ScriptStrip.Proofs.Findings
import ScriptStrip.Proofs.Formed
import ScriptStrip.Proofs.ReductionWalk
/-
This file shows that a pass leaves a tree that can be printed, if it was given one.
-/

namespace ScriptStrip

variable {configuration : Configuration} {good : Lexeme → Prop}

/-- A target of an assignment stays a target when its parts are reduced. -/
theorem Expression.isTarget_reducedParts {expression : Expression}
    (targets : expression.IsTarget) : (expression.reducedParts configuration).value.IsTarget := by
  cases targets with
  | reference =>
      rw [Expression.reducedParts] <;> simp [Expression.IsTarget.reference]
  | property =>
      rw [Expression.reducedParts]
      exact .property
  | index =>
      rw [Expression.reducedParts]
      exact .index

/-- Reduction keeps the name of a function. -/
theorem FunctionDef.name_reduced (definition : FunctionDef) :
    (definition.reduced configuration).value.name = definition.name := by
  cases definition with
  | mk name parameters body span =>
      rw [FunctionDef.reduced]
      rfl

/-- A declaration keeps all its names, so it is never left empty. -/
theorem Declarator.reducedAll_ne_nil {items : List Declarator} (nonempty : items ≠ []) :
    (Declarator.reducedAll configuration items).value ≠ [] := by
  obtain ⟨first, rest, rfl⟩ := List.exists_cons_of_ne_nil nonempty
  simp [Declarator.reducedAll]

/-- A pass makes no block of another statement. -/
theorem Statement.ne_block_of_reduced {statement kept : Statement}
    (isKept : (statement.reduced configuration).value = some kept)
    (other : ∀ inner, statement ≠ .block inner) : ∀ inner, kept ≠ .block inner := by
  rintro inner rfl
  cases statement with
  | expression value span =>
      rw [Statement.reduced, Counted.value_bind] at isKept
      cases slot : (value.reduced configuration).value <;> simp [slot] at isKept
  | block inner' => exact other inner' rfl
  | _ => simp [Statement.reduced] at isKept

mutual

/-- A pass takes no second branch away. -/
theorem Statement.endsOpen_of_reduced (statement : Statement) {kept : Statement}
    (isKept : (statement.reduced configuration).value = some kept)
    (isOpen : kept.endsOpen = true) : statement.endsOpen = true := by
  cases statement with
  | expression value span =>
      rw [Statement.reduced, Counted.value_bind] at isKept
      cases slot : (value.reduced configuration).value with
      | filled value' =>
          simp only [slot, Counted.value_pure, Option.some.injEq] at isKept
          subst isKept
          cases isOpen
      | vacant span' => simp [slot] at isKept
  | conditional condition consequent alternate span =>
      simp only [Statement.reduced, Counted.value_bind, Counted.value_pure,
        Option.some.injEq] at isKept
      subst isKept
      exact Branch.alternateEndsOpen_of_reduced alternate isOpen
  | _ =>
      simp only [Statement.reduced, Counted.value_bind, Counted.value_pure,
        Option.some.injEq] at isKept
      subst isKept
      cases isOpen

/-- Reduction opens no branch at its end. -/
theorem Branch.endsOpen_of_reduced (branch : Branch)
    (isOpen : (branch.reduced configuration).value.endsOpen = true) : branch.endsOpen = true := by
  cases branch with
  | braced block =>
      simp [Branch.reduced, Branch.endsOpen] at isOpen
  | single statement =>
      rw [Branch.reduced, Counted.value_bind] at isOpen
      cases kept : (statement.reduced configuration).value with
      | none =>
          rw [kept] at isOpen
          cases isOpen
      | some statement' =>
          rw [kept] at isOpen
          exact Statement.endsOpen_of_reduced statement kept isOpen

/-- Reduction opens no second branch at its end. -/
theorem Branch.alternateEndsOpen_of_reduced (branch : Option Branch)
    (isOpen : Branch.alternateEndsOpen (Branch.reducedOption configuration branch).value = true) :
    Branch.alternateEndsOpen branch = true := by
  cases branch with
  | none => rfl
  | some branch =>
      simp only [Branch.reducedOption, Counted.value_bind, Counted.value_pure] at isOpen
      exact Branch.endsOpen_of_reduced branch isOpen

end

/-- A formed expression stays formed without its outer parentheses. -/
theorem Expression.formed_ungrouped {expression : Expression} (formed : expression.Formed good) :
    expression.ungrouped.Formed good := by
  fun_induction Expression.ungrouped expression with
  | case1 inner span inductionHypothesis => exact inductionHypothesis formed
  | case2 expression other => exact formed

/-- Each expression of a formed list is formed. -/
theorem Expression.AllFormed.of_mem {items : List Expression} {item : Expression}
    (formed : Expression.AllFormed good items) (inside : item ∈ items) : item.Formed good := by
  induction items with
  | nil => cases inside
  | cons first rest inductionHypothesis =>
      rcases List.mem_cons.mp inside with rfl | inRest
      · exact formed.1
      · exact inductionHypothesis formed.2 inRest

/-- The argument that takes the place of an assertion is formed like the assertion. -/
theorem Configuration.formed_of_asserted {expression argument : Expression}
    (found : configuration.finding? expression = some (.asserted (some argument)))
    (formed : expression.Formed good) : argument.Formed good := by
  obtain ⟨callee, arguments, span, shape, _, _, isHead⟩ :=
    Configuration.exists_call_of_asserted found
  have ungrouped := Expression.formed_ungrouped formed
  rw [shape] at ungrouped
  exact ungrouped.2.of_mem (List.mem_of_mem_head? isHead)

mutual

/-- Reduction keeps an expression formed, whatever takes its place. -/
theorem Expression.formed_reduced (expression : Expression) (formed : expression.Formed good) :
    (expression.reduced configuration).value.expression.Formed good := by
  rw [Expression.reduced_eq]
  cases found : configuration.finding? expression with
  | none => exact Expression.formed_reducedParts expression formed
  | some finding =>
      cases finding with
      | stripped => exact trivial
      | flag value => exact trivial
      | asserted argument =>
          cases argument with
          | none => exact trivial
          | some argument =>
              have smaller := Configuration.sizeOf_asserted_lt found
              exact Expression.formed_reduced argument (Configuration.formed_of_asserted found formed)
termination_by (sizeOf expression, 1)

/-- Reducing the parts of an expression keeps it formed. -/
theorem Expression.formed_reducedParts (expression : Expression) (formed : expression.Formed good) :
    (expression.reducedParts configuration).value.Formed good := by
  cases expression with
  | array items span =>
      rw [Expression.reducedParts]
      exact Expression.formed_reducedAll items formed
  | object members span =>
      rw [Expression.reducedParts]
      exact Member.formed_reducedAll members formed
  | function definition =>
      rw [Expression.reducedParts]
      exact FunctionDef.formed_reduced definition formed
  | group inner span =>
      rw [Expression.reducedParts]
      exact Expression.formed_reduced inner formed
  | property parent name span =>
      rw [Expression.reducedParts]
      exact ⟨Expression.formed_reduced parent formed.1, formed.2⟩
  | index parent key span =>
      rw [Expression.reducedParts]
      exact ⟨Expression.formed_reduced parent formed.1, Expression.formed_reduced key formed.2⟩
  | call callee arguments span =>
      rw [Expression.reducedParts]
      exact ⟨Expression.formed_reduced callee formed.1,
        Expression.formed_reducedAll arguments formed.2⟩
  | unary operator operand span =>
      rw [Expression.reducedParts]
      exact Expression.formed_reduced operand formed
  | binary left operator right span =>
      rw [Expression.reducedParts]
      exact ⟨Expression.formed_reduced left formed.1, Expression.formed_reduced right formed.2⟩
  | assign target value span =>
      rw [Expression.reducedParts]
      exact ⟨Expression.isTarget_reducedParts formed.1,
        Expression.formed_reducedParts target formed.2.1,
        Expression.formed_reduced value formed.2.2⟩
  | _ =>
      rw [Expression.reducedParts] <;> first | exact formed | simp
termination_by (sizeOf expression, 0)

/-- Reduction keeps lists of expressions formed. -/
theorem Expression.formed_reducedAll (items : List Expression)
    (formed : Expression.AllFormed good items) :
    Expression.AllFormed good (Expression.reducedAll configuration items).value := by
  cases items with
  | nil =>
      rw [Expression.reducedAll]
      exact trivial
  | cons first rest =>
      rw [Expression.reducedAll]
      exact ⟨Expression.formed_reduced first formed.1, Expression.formed_reducedAll rest formed.2⟩
termination_by (sizeOf items, 0)

/-- Reduction keeps the members of objects formed. -/
theorem Member.formed_reducedAll (members : List Member) (formed : Member.AllFormed good members) :
    Member.AllFormed good (Member.reducedAll configuration members).value := by
  cases members with
  | nil =>
      rw [Member.reducedAll]
      exact trivial
  | cons first rest =>
      cases first with
      | mk key value span =>
          rw [Member.reducedAll]
          exact ⟨formed.1, Expression.formed_reduced value formed.2.1,
            Member.formed_reducedAll rest formed.2.2⟩
termination_by (sizeOf members, 0)

/-- Reduction keeps functions formed. -/
theorem FunctionDef.formed_reduced (definition : FunctionDef) (formed : definition.Formed good) :
    (definition.reduced configuration).value.Formed good := by
  cases definition with
  | mk name parameters body span =>
      rw [FunctionDef.reduced]
      exact ⟨formed.1, formed.2.1, Block.formed_reduced body formed.2.2⟩
termination_by (sizeOf definition, 0)

/-- Reduction keeps blocks formed. -/
theorem Block.formed_reduced (block : Block) (formed : block.Formed good) :
    (block.reduced configuration).value.Formed good := by
  cases block with
  | mk items span =>
      rw [Block.reduced]
      exact Statement.formed_reducedAll items formed
termination_by (sizeOf block, 0)

/-- A statement that is kept stays formed. -/
theorem Statement.formed_reduced (statement : Statement) {kept : Statement}
    (isKept : (statement.reduced configuration).value = some kept)
    (formed : statement.Formed good) : kept.Formed good := by
  cases statement with
  | expression value span =>
      have formedValue := Expression.formed_reduced value formed
      rw [Statement.reduced, Counted.value_bind] at isKept
      cases slot : (value.reduced configuration).value with
      | filled value' =>
          rw [slot] at isKept formedValue
          obtain rfl := Option.some.inj isKept
          exact formedValue
      | vacant span' =>
          rw [slot] at isKept
          cases isKept
  | declaration word items span =>
      rw [Statement.reduced] at isKept
      obtain rfl := Option.some.inj isKept
      exact ⟨Declarator.reducedAll_ne_nil formed.1, Declarator.formed_reducedAll items formed.2⟩
  | function definition =>
      rw [Statement.reduced] at isKept
      obtain rfl := Option.some.inj isKept
      refine ⟨?_, FunctionDef.formed_reduced definition formed.2⟩
      have sameName : (definition.reduced configuration).value.name = definition.name :=
        definition.name_reduced
      rw [sameName]
      exact formed.1
  | conditional condition consequent alternate span =>
      rw [Statement.reduced] at isKept
      obtain rfl := Option.some.inj isKept
      obtain ⟨formedCondition, formedBranch, closed, formedAlternate⟩ := formed
      refine ⟨Expression.formed_reduced condition formedCondition,
        Branch.formed_reduced consequent formedBranch, ?_,
        Branch.formed_reducedOption alternate formedAlternate⟩
      intro hasAlternate
      have isThere : alternate ≠ none := by
        rintro rfl
        simp [Branch.reducedOption] at hasAlternate
      by_contra isOpen
      have wasOpen := Branch.endsOpen_of_reduced consequent (Bool.of_not_eq_false isOpen)
      rw [closed isThere] at wasOpen
      cases wasOpen
  | returning value span =>
      rw [Statement.reduced] at isKept
      obtain rfl := Option.some.inj isKept
      cases value with
      | none =>
          rw [Expression.reducedOption]
          exact trivial
      | some value =>
          rw [Expression.reducedOption]
          exact Expression.formed_reduced value formed
  | block inner =>
      rw [Statement.reduced] at isKept
      obtain rfl := Option.some.inj isKept
      exact Block.formed_reduced inner formed
  | empty span =>
      rw [Statement.reduced] at isKept
      obtain rfl := Option.some.inj isKept
      exact trivial
termination_by (sizeOf statement, 0)

/-- Reduction keeps lists of statements formed, with fewer of them. -/
theorem Statement.formed_reducedAll (items : List Statement)
    (formed : Statement.AllFormed good items) :
    Statement.AllFormed good (Statement.reducedAll configuration items).value := by
  cases items with
  | nil =>
      rw [Statement.reducedAll]
      exact trivial
  | cons first rest =>
      have formedRest := Statement.formed_reducedAll rest formed.2
      rw [Statement.reducedAll, Counted.value_bind, Counted.value_bind, Counted.value_pure]
      cases isKept : (first.reduced configuration).value with
      | none => exact formedRest
      | some kept => exact ⟨Statement.formed_reduced first isKept formed.1, formedRest⟩
termination_by (sizeOf items, 0)

/-- Reduction keeps declared names formed. -/
theorem Declarator.formed_reducedAll (items : List Declarator)
    (formed : Declarator.AllFormed good items) :
    Declarator.AllFormed good (Declarator.reducedAll configuration items).value := by
  cases items with
  | nil =>
      rw [Declarator.reducedAll]
      exact trivial
  | cons first rest =>
      rw [Declarator.reducedAll]
      cases first with
      | mk name value span =>
          cases value with
          | none =>
              rw [Declarator.reduced]
              exact ⟨formed.1, Declarator.formed_reducedAll rest formed.2⟩
          | some value =>
              have formedValue := Expression.formed_reduced value formed.2.1
              have formedRest := Declarator.formed_reducedAll rest formed.2.2
              rw [Declarator.reduced, Counted.value_bind, Counted.value_bind, Counted.value_pure,
                Counted.value_bind]
              cases slot : (value.reduced configuration).value with
              | filled value' =>
                  rw [slot] at formedValue
                  exact ⟨formed.1, formedValue, formedRest⟩
              | vacant span' => exact ⟨formed.1, formedRest⟩
termination_by (sizeOf items, 0)

/-- Reduction keeps branches formed. -/
theorem Branch.formed_reduced (branch : Branch) (formed : branch.Formed good) :
    (branch.reduced configuration).value.Formed good := by
  cases branch with
  | braced block =>
      rw [Branch.reduced]
      exact Block.formed_reduced block formed
  | single statement =>
      rw [Branch.reduced, Counted.value_bind]
      cases isKept : (statement.reduced configuration).value with
      | none => exact ⟨fun _ => Statement.noConfusion, trivial⟩
      | some kept =>
          exact ⟨Statement.ne_block_of_reduced isKept formed.1,
            Statement.formed_reduced statement isKept formed.2⟩
termination_by (sizeOf branch, 0)

/-- Reduction keeps second branches formed. -/
theorem Branch.formed_reducedOption (branch : Option Branch)
    (formed : Branch.AlternateFormed good branch) :
    Branch.AlternateFormed good (Branch.reducedOption configuration branch).value := by
  cases branch with
  | none =>
      rw [Branch.reducedOption]
      exact trivial
  | some branch =>
      rw [Branch.reducedOption]
      exact Branch.formed_reduced branch formed
termination_by (sizeOf branch, 0)

end

/-- A pass keeps a script formed. -/
theorem Script.formed_rewrite (script : Script) (configuration : Configuration)
    (formed : script.Formed good) : (script.rewrite configuration).1.Formed good := by
  rw [script.fst_rewrite]
  exact Statement.formed_reducedAll script.items formed

end ScriptStrip
