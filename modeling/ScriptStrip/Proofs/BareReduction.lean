import Mathlib
import ScriptStrip.Proofs.Bare
import ScriptStrip.Proofs.ParserSound
import ScriptStrip.Proofs.ReductionWalk
/-
This file shows that parentheses make no difference to a rewriting pass. Two scripts that differ in
nothing else are rewritten alike, and as often.
-/

namespace ScriptStrip

variable {configuration : Configuration}

/-- The slot as a comparison of structures sees it, without parentheses. -/
def Slot.core : Slot → Slot
  | .filled expression => .filled expression.bare.gist
  | .vacant _ => .vacant .null

/-- The core of a slot holds the bare gist of what the slot holds. -/
@[simp] theorem Slot.expression_core (slot : Slot) :
    slot.core.expression = slot.expression.bare.gist := by
  cases slot <;> rfl

namespace Expression

/-- Taking the outer parentheses off keeps the shape. -/
theorem WellShaped.ungrouped {expression : Expression} (wellShaped : expression.WellShaped) :
    expression.ungrouped.WellShaped := by
  fun_induction Expression.ungrouped expression with
  | case1 inner span inductionHypothesis => exact inductionHypothesis wellShaped
  | case2 expression notGroup => exact wellShaped

/-- The argument that takes the place of an assertion is shaped like any other. -/
theorem WellShaped.of_asserted {expression argument : Expression}
    (wellShaped : expression.WellShaped)
    (found : configuration.finding? expression = some (.asserted (some argument))) :
    argument.WellShaped := by
  obtain ⟨callee, arguments, span, shape, _, _, isHead⟩ :=
    Configuration.exists_call_of_asserted found
  have ungrouped := wellShaped.ungrouped
  rw [shape] at ungrouped
  exact allWellShaped_iff.mp ungrouped.2.2 argument (List.mem_of_mem_head? isHead)

end Expression

mutual

/-- Reducing the bare gist is taking the bare gist of what is reduced, with the same counts. -/
theorem Expression.reduced_gist_bare (expression : Expression)
    (wellShaped : expression.WellShaped) :
    expression.bare.gist.reduced configuration =
      Slot.core <$> expression.reduced configuration := by
  rw [Expression.reduced_eq, Expression.reduced_eq, Configuration.finding?_gist_bare]
  cases found : configuration.finding? expression with
  | none =>
      have parts := Expression.reducedParts_gist_bare expression wellShaped (by
        rintro inner span rfl
        exact found)
      simp [parts, Slot.core]
  | some finding =>
      cases finding with
      | stripped => simp [Configuration.Finding.core, Slot.core]
      | flag value =>
          simp [Configuration.Finding.core, Slot.core, Expression.bare, Expression.gist]
      | asserted argument =>
          cases argument with
          | none => simp [Configuration.Finding.core, Slot.core]
          | some argument =>
              have smaller := Configuration.sizeOf_asserted_lt found
              have ofArgument := Expression.reduced_gist_bare argument (wellShaped.of_asserted found)
              simp [Configuration.Finding.core, ofArgument]
termination_by (sizeOf expression, 1)

/-- Nothing may be found in parentheses, since the parts of the call that is in them would be
rewritten on the one side only. -/
theorem Expression.reducedParts_gist_bare (expression : Expression)
    (wellShaped : expression.WellShaped)
    (kept : ∀ inner span, expression = .group inner span → configuration.finding? inner = none) :
    expression.bare.gist.reducedParts configuration =
      (fun parts => parts.bare.gist) <$> expression.reducedParts configuration := by
  cases expression with
  | group inner span =>
      have found := kept inner span rfl
      have ofInner := Expression.reducedParts_gist_bare inner wellShaped (by
        rintro innermost span rfl
        exact found)
      simp only [Expression.bare, ofInner, Expression.reducedParts, Expression.reduced_eq, found]
      simp [Expression.bare, Slot.expression]
  | array items span =>
      have ofItems := Expression.reducedAll_gist_bare items wellShaped
      simp [Expression.bare, Expression.gist, Expression.reducedParts, ofItems]
  | object members span =>
      have ofMembers := Member.reducedAll_gist_bare members wellShaped
      simp [Expression.bare, Expression.gist, Expression.reducedParts, ofMembers]
  | function definition =>
      have ofDefinition := FunctionDef.reduced_gist_bare definition wellShaped
      simp [Expression.bare, Expression.gist, Expression.reducedParts, ofDefinition]
  | property parent name span =>
      have ofParent := Expression.reduced_gist_bare parent wellShaped.2
      simp [Expression.bare, Expression.gist, Expression.reducedParts, ofParent]
  | index parent key span =>
      have ofParent := Expression.reduced_gist_bare parent wellShaped.2.1
      have ofKey := Expression.reduced_gist_bare key wellShaped.2.2
      simp [Expression.bare, Expression.gist, Expression.reducedParts, ofParent, ofKey]
  | call callee arguments span =>
      have ofCallee := Expression.reduced_gist_bare callee wellShaped.2.1
      have ofArguments := Expression.reducedAll_gist_bare arguments wellShaped.2.2
      simp [Expression.bare, Expression.gist, Expression.reducedParts, ofCallee, ofArguments]
  | unary operator operand span =>
      have ofOperand := Expression.reduced_gist_bare operand wellShaped.2.2
      simp [Expression.bare, Expression.gist, Expression.reducedParts, ofOperand]
  | binary left operator right span =>
      have ofLeft := Expression.reduced_gist_bare left wellShaped.2.2.1
      have ofRight := Expression.reduced_gist_bare right wellShaped.2.2.2
      simp [Expression.bare, Expression.gist, Expression.reducedParts, ofLeft, ofRight]
  | assign target value span =>
      have ofTarget := Expression.reducedParts_gist_bare target wellShaped.2.1 (by
        rintro inner span rfl
        cases wellShaped.1)
      have ofValue := Expression.reduced_gist_bare value wellShaped.2.2
      simp [Expression.bare, Expression.gist, Expression.reducedParts, ofTarget, ofValue]
  | _ => simp [Expression.bare, Expression.gist, Expression.reducedParts]
termination_by (sizeOf expression, 0)

/-- The square commutes for lists of expressions. -/
theorem Expression.reducedAll_gist_bare (items : List Expression)
    (wellShaped : Expression.AllWellShaped items) :
    Expression.reducedAll configuration (Expression.gistAll (Expression.bareAll items)) =
      (fun items => Expression.gistAll (Expression.bareAll items)) <$>
        Expression.reducedAll configuration items := by
  cases items with
  | nil => simp [Expression.bareAll, Expression.gistAll, Expression.reducedAll]
  | cons first rest =>
      have ofFirst := Expression.reduced_gist_bare first wellShaped.1
      have ofRest := Expression.reducedAll_gist_bare rest wellShaped.2
      simp [Expression.bareAll, Expression.gistAll, Expression.reducedAll, ofFirst, ofRest]
termination_by (sizeOf items, 0)

/-- The square commutes for the members of objects. -/
theorem Member.reducedAll_gist_bare (members : List Member)
    (wellShaped : Member.AllWellShaped members) :
    Member.reducedAll configuration (Member.gistAll (Member.bareAll members)) =
      (fun members => Member.gistAll (Member.bareAll members)) <$>
        Member.reducedAll configuration members := by
  cases members with
  | nil => simp [Member.bareAll, Member.gistAll, Member.reducedAll]
  | cons first rest =>
      cases first with
      | mk key value span =>
          have ofValue := Expression.reduced_gist_bare value wellShaped.1
          have ofRest := Member.reducedAll_gist_bare rest wellShaped.2
          simp [Member.bareAll, Member.gistAll, Member.reducedAll, ofValue, ofRest]
termination_by (sizeOf members, 0)

/-- The square commutes for functions. -/
theorem FunctionDef.reduced_gist_bare (definition : FunctionDef)
    (wellShaped : definition.WellShaped) :
    definition.bare.gist.reduced configuration =
      (fun definition => definition.bare.gist) <$> definition.reduced configuration := by
  cases definition with
  | mk name parameters body span =>
      have ofBody := Block.reduced_gist_bare body wellShaped
      simp [FunctionDef.bare, FunctionDef.gist, FunctionDef.reduced, ofBody]
termination_by (sizeOf definition, 0)

/-- The square commutes for blocks. -/
theorem Block.reduced_gist_bare (block : Block) (wellShaped : block.WellShaped) :
    block.bare.gist.reduced configuration =
      (fun block => block.bare.gist) <$> block.reduced configuration := by
  cases block with
  | mk items span =>
      have ofItems := Statement.reducedAll_gist_bare items wellShaped
      simp [Block.bare, Block.gist, Block.reduced, ofItems]
termination_by (sizeOf block, 0)

/-- The square commutes for statements, and the same ones are dropped. -/
theorem Statement.reduced_gist_bare (statement : Statement) (wellShaped : statement.WellShaped) :
    statement.bare.gist.reduced configuration =
      Option.map (fun statement => statement.bare.gist) <$> statement.reduced configuration := by
  cases statement with
  | expression value span =>
      have ofValue := Expression.reduced_gist_bare value wellShaped.2
      simp only [Statement.bare, Statement.gist, Statement.reduced, ofValue, bind_map_left, map_bind]
      congr 1
      funext slot
      cases slot <;> rfl
  | declaration word items span =>
      have ofItems := Declarator.reducedAll_gist_bare items wellShaped.2
      simp [Statement.bare, Statement.gist, Statement.reduced, ofItems]
  | function definition =>
      have ofDefinition := FunctionDef.reduced_gist_bare definition wellShaped.2
      simp [Statement.bare, Statement.gist, Statement.reduced, ofDefinition]
  | conditional condition consequent alternate span =>
      obtain ⟨shapedCondition, shapedConsequent, _, shapedAlternate⟩ := wellShaped
      have ofCondition := Expression.reduced_gist_bare condition shapedCondition
      have ofConsequent := Branch.reduced_gist_bare consequent shapedConsequent
      have ofAlternate := Branch.reducedOption_gist_bare alternate shapedAlternate
      simp [Statement.bare, Statement.gist, Statement.reduced, ofCondition, ofConsequent,
        ofAlternate]
  | returning value span =>
      have ofValue := Expression.reducedOption_gist_bare value (by
        rintro value rfl
        exact wellShaped)
      simp [Statement.bare, Statement.gist, Statement.reduced, ofValue]
  | block inner =>
      have ofInner := Block.reduced_gist_bare inner wellShaped
      simp [Statement.bare, Statement.gist, Statement.reduced, ofInner]
  | empty span => simp [Statement.bare, Statement.gist, Statement.reduced]
termination_by (sizeOf statement, 0)

/-- The square commutes for expressions that may be absent. -/
theorem Expression.reducedOption_gist_bare (value : Option Expression)
    (wellShaped : ∀ expression, value = some expression → expression.WellShaped) :
    Expression.reducedOption configuration (Expression.gistOption (Expression.bareOption value)) =
      (fun value => Expression.gistOption (Expression.bareOption value)) <$>
        Expression.reducedOption configuration value := by
  cases value with
  | none => simp [Expression.bareOption, Expression.gistOption, Expression.reducedOption]
  | some value =>
      have ofValue := Expression.reduced_gist_bare value (wellShaped value rfl)
      simp [Expression.bareOption, Expression.gistOption, Expression.reducedOption, ofValue]
termination_by (sizeOf value, 0)

/-- The square commutes for lists of statements. -/
theorem Statement.reducedAll_gist_bare (items : List Statement)
    (wellShaped : Statement.AllWellShaped items) :
    Statement.reducedAll configuration (Statement.gistAll (Statement.bareAll items)) =
      (fun items => Statement.gistAll (Statement.bareAll items)) <$>
        Statement.reducedAll configuration items := by
  cases items with
  | nil => simp [Statement.bareAll, Statement.gistAll, Statement.reducedAll]
  | cons first rest =>
      have ofFirst := Statement.reduced_gist_bare first wellShaped.1
      have ofRest := Statement.reducedAll_gist_bare rest wellShaped.2
      simp only [Statement.bareAll, Statement.gistAll, Statement.reducedAll, ofFirst, ofRest,
        bind_map_left, map_bind, map_pure]
      congr 1
      funext left
      cases left <;> rfl
termination_by (sizeOf items, 0)

/-- The square commutes for declared names. -/
theorem Declarator.reducedAll_gist_bare (items : List Declarator)
    (wellShaped : Declarator.AllWellShaped items) :
    Declarator.reducedAll configuration (Declarator.gistAll (Declarator.bareAll items)) =
      (fun items => Declarator.gistAll (Declarator.bareAll items)) <$>
        Declarator.reducedAll configuration items := by
  cases items with
  | nil => simp [Declarator.bareAll, Declarator.gistAll, Declarator.reducedAll]
  | cons first rest =>
      cases first with
      | mk name value span =>
          cases value with
          | none =>
              have ofRest := Declarator.reducedAll_gist_bare rest wellShaped
              simp [Declarator.bareAll, Declarator.gistAll, Declarator.reducedAll,
                Declarator.reduced, Expression.bareOption, Expression.gistOption, ofRest]
          | some value =>
              have ofValue := Expression.reduced_gist_bare value wellShaped.1
              have ofRest := Declarator.reducedAll_gist_bare rest wellShaped.2
              simp only [Declarator.bareAll, Declarator.gistAll, Declarator.reducedAll,
                Declarator.reduced, Expression.bareOption, Expression.gistOption, ofValue, ofRest,
                bind_assoc, bind_map_left, map_bind, map_pure]
              congr 1
              funext slot
              cases slot <;> rfl
termination_by (sizeOf items, 0)

/-- The square commutes for branches. -/
theorem Branch.reduced_gist_bare (branch : Branch) (wellShaped : branch.WellShaped) :
    branch.bare.gist.reduced configuration =
      (fun branch => branch.bare.gist) <$> branch.reduced configuration := by
  cases branch with
  | braced block =>
      have ofBlock := Block.reduced_gist_bare block wellShaped
      simp [Branch.bare, Branch.gist, Branch.reduced, ofBlock]
  | single statement =>
      have ofStatement := Statement.reduced_gist_bare statement wellShaped.2
      simp only [Branch.bare, Branch.gist, Branch.reduced, ofStatement, bind_map_left, map_bind]
      congr 1
      funext left
      cases left with
      | none => simp [Branch.bare, Branch.gist, Statement.bare, Statement.gist, Statement.span_gist]
      | some left => rfl
termination_by (sizeOf branch, 0)

/-- The square commutes for branches that may be missing. -/
theorem Branch.reducedOption_gist_bare (branch : Option Branch)
    (wellShaped : Branch.AlternateWellShaped branch) :
    Branch.reducedOption configuration (Branch.gistOption (Branch.bareOption branch)) =
      (fun branch => Branch.gistOption (Branch.bareOption branch)) <$>
        Branch.reducedOption configuration branch := by
  cases branch with
  | none => simp [Branch.bareOption, Branch.gistOption, Branch.reducedOption]
  | some branch =>
      have ofBranch := Branch.reduced_gist_bare branch wellShaped
      simp [Branch.bareOption, Branch.gistOption, Branch.reducedOption, ofBranch]
termination_by (sizeOf branch, 0)

end

namespace Script

/-- The square commutes for scripts. -/
theorem reduced_gist_bare (script : Script) (wellShaped : script.WellShaped) :
    script.bare.gist.reduced configuration =
      (fun script => script.bare.gist) <$> script.reduced configuration := by
  have ofItems : Statement.reducedAll configuration _ = _ :=
    Statement.reducedAll_gist_bare script.items wellShaped
  simp [Script.bare, Script.gist, Script.reduced, ofItems]

/-- Every script that is read has the shape of its grammar. -/
theorem wellShaped_of_parse {source : String} {script : Script}
    (accepted : parse source = .ok script) : script.WellShaped := by
  obtain ⟨stream, rest, scanned, reads⟩ := parse_eq_ok_iff.mp accepted
  exact (spelledBy_of_reads reads).1

/-- Scripts that differ only in parentheses are rewritten as often, and what a pass leaves of them
differs only in parentheses. -/
theorem rewrite_of_same_bare {source other : String} {first second : Script}
    (accepted : parse source = .ok first) (acceptedOther : parse other = .ok second)
    (same : first.bare.same second.bare = true) (configuration : Configuration) :
    (first.rewrite configuration).2.statistics = (second.rewrite configuration).2.statistics ∧
      (first.rewrite configuration).1.bare.same (second.rewrite configuration).1.bare = true := by
  have reduced : (fun script : Script => script.bare.gist) <$> first.reduced configuration =
      (fun script : Script => script.bare.gist) <$> second.reduced configuration := by
    rw [← reduced_gist_bare first (wellShaped_of_parse accepted),
      ← reduced_gist_bare second (wellShaped_of_parse acceptedOther), (same_iff_gist _ _).mp same]
  rw [statistics_rewrite, statistics_rewrite, fst_rewrite, fst_rewrite, same_iff_gist]
  have sameCounts := congrArg Counted.counts reduced
  rw [Counted.counts_map, Counted.counts_map] at sameCounts
  exact ⟨sameCounts, congrArg Counted.value reduced⟩

/-- Parentheses can be around a call, its callee, an object in it, an argument or a flag. -/
theorem rewrite_of_same_bare_groups : ∃ first second,
    parse "(((log).dev.fine)(1));x=(dev.assert)((a));y=(($mode).getMode(('q'))).test" = .ok first ∧
      parse "log.dev.fine(1);x=dev.assert(a);y=$mode.getMode(\"q\").test" = .ok second ∧
      first.same second = false ∧
      (first.rewrite .production).2.statistics = ⟨1, 1, 1⟩ ∧
      (first.rewrite .production).2.statistics = (second.rewrite .production).2.statistics ∧
      (first.rewrite .production).1.bare.same (second.rewrite .production).1.bare = true := by
  obtain ⟨first, second, accepted, acceptedOther, different, same, counts⟩ : ∃ first second,
      parse "(((log).dev.fine)(1));x=(dev.assert)((a));y=(($mode).getMode(('q'))).test" =
          .ok first ∧
        parse "log.dev.fine(1);x=dev.assert(a);y=$mode.getMode(\"q\").test" = .ok second ∧
        first.same second = false ∧ first.bare.same second.bare = true ∧
        (first.rewrite .production).2.statistics = ⟨1, 1, 1⟩ :=
    ⟨_, _, by cbv, by cbv, by cbv, by cbv, by cbv⟩
  exact ⟨first, second, accepted, acceptedOther, different, counts,
    rewrite_of_same_bare accepted acceptedOther same .production⟩

end Script

end ScriptStrip
