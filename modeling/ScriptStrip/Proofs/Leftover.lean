import ScriptStrip.Proofs.Findings
/-
This file says on a tree as it was read what a pass leaves of its expressions. A pass decides about
a node before it looks at the parts, so what the parts become can turn the node into a shape that
the pass would have acted on.
-/

namespace ScriptStrip

/-- A pass leaves the chain of names where the expression was. -/
inductive Expression.BecomesChain (configuration : Configuration) :
    Expression → List String → Prop where
  | reference (name : String) (span : Span) :
      BecomesChain configuration (.reference name span) [name]
  | property {parent : Expression} {names : List String} (name : String) (span : Span)
      (chain : BecomesChain configuration parent names) :
      BecomesChain configuration (.property parent name span) (names ++ [name])
  | group {inner : Expression} {names : List String} (span : Span)
      (chain : BecomesChain configuration inner names) :
      BecomesChain configuration (.group inner span) names
  /-- The argument takes the place of the assertion. -/
  | asserted {callee argument : Expression} {rest : List Expression} {names : List String}
      (span : Span) (kept : ¬ configuration.StripsCallee callee) (asserts : callee.IsAssertion)
      (chain : BecomesChain configuration argument names) :
      BecomesChain configuration (.call callee (argument :: rest) span) names

/-- A pass leaves an expression that can be left out. -/
inductive Expression.BecomesPlain (configuration : Configuration) : Expression → Prop where
  | literal {expression : Expression} (plain : expression.IsPlain) :
      BecomesPlain configuration expression
  | property {parent : Expression} (name : String) (span : Span)
      (plain : BecomesPlain configuration parent) :
      BecomesPlain configuration (.property parent name span)
  | flag {parent : Expression} {name : String} {flag : ModeFlag} (span : Span)
      (production : configuration.isProduction = true) (calls : configuration.CallsMode parent)
      (known : ModeFlag.ofName? name = some flag) :
      BecomesPlain configuration (.property parent name span)
  | group {inner : Expression} (span : Span) (plain : BecomesPlain configuration inner) :
      BecomesPlain configuration (.group inner span)
  | stripped {callee : Expression} (arguments : List Expression) (span : Span)
      (strips : configuration.StripsCallee callee) :
      BecomesPlain configuration (.call callee arguments span)
  | emptied {callee : Expression} (span : Span) (asserts : callee.IsAssertion) :
      BecomesPlain configuration (.call callee [] span)
  | asserted {callee argument : Expression} {rest : List Expression} (span : Span)
      (asserts : callee.IsAssertion) (plain : BecomesPlain configuration argument) :
      BecomesPlain configuration (.call callee (argument :: rest) span)

/-- A pass leaves a call of `getMode` of the mode accessor. -/
inductive Expression.BecomesModeCall (configuration : Configuration) : Expression → Prop where
  | call {callee : Expression} {arguments : List Expression} (span : Span)
      (kept : ¬ configuration.StripsCallee callee) (other : ¬ callee.IsAssertion)
      (chain : callee.BecomesChain configuration [configuration.modeAccessor, "getMode"])
      (plain : ∀ argument ∈ arguments, argument.BecomesPlain configuration) :
      BecomesModeCall configuration (.call callee arguments span)
  | group {inner : Expression} (span : Span) (calls : BecomesModeCall configuration inner) :
      BecomesModeCall configuration (.group inner span)
  | asserted {callee argument : Expression} {rest : List Expression} (span : Span)
      (kept : ¬ configuration.StripsCallee callee) (asserts : callee.IsAssertion)
      (calls : BecomesModeCall configuration argument) :
      BecomesModeCall configuration (.call callee (argument :: rest) span)

/-- A pass does not act on the expression, but once its parts are rewritten there would be a
reason to. -/
inductive Expression.IsOverlooked (configuration : Configuration) : Expression → Prop where
  | stripped {callee : Expression} {names suffix : List String} (arguments : List Expression)
      (span : Span) (chain : callee.BecomesChain configuration names)
      (configured : suffix ∈ configuration.suffixes) (ending : suffix <:+ names) :
      IsOverlooked configuration (.call callee arguments span)
  | asserted {callee : Expression} {names : List String} (arguments : List Expression)
      (span : Span) (chain : callee.BecomesChain configuration names)
      (ending : ["dev", "assert"] <:+ names) :
      IsOverlooked configuration (.call callee arguments span)
  | flag {parent : Expression} {name : String} {flag : ModeFlag} (span : Span)
      (production : configuration.isProduction = true)
      (calls : parent.BecomesModeCall configuration) (known : ModeFlag.ofName? name = some flag) :
      IsOverlooked configuration (.property parent name span)

namespace Expression

variable {configuration : Configuration} {expression : Expression} {names : List String}

/-- The chain of a property ends in its name. -/
theorem isChain_property_iff {parent : Expression} {name : String} {span : Span} :
    (Expression.property parent name span).IsChain names ↔
      ∃ front, parent.IsChain front ∧ names = front ++ [name] := by
  constructor
  · rintro (_ | ⟨_, _, chain⟩ | _)
    exact ⟨_, chain, rfl⟩
  · rintro ⟨front, chain, rfl⟩
    exact .property name span chain

/-- What becomes a chain of a property ends in its name. -/
theorem becomesChain_property_iff {parent : Expression} {name : String} {span : Span} :
    (Expression.property parent name span).BecomesChain configuration names ↔
      ∃ front, parent.BecomesChain configuration front ∧ names = front ++ [name] := by
  constructor
  · rintro (_ | ⟨_, _, chain⟩ | _ | _)
    exact ⟨_, chain, rfl⟩
  · rintro ⟨front, chain, rfl⟩
    exact .property name span chain

/-- Parentheses do not change the chain. -/
theorem isChain_group_iff {inner : Expression} {span : Span} :
    (Expression.group inner span).IsChain names ↔ inner.IsChain names := by
  constructor
  · rintro (_ | _ | ⟨_, chain⟩)
    exact chain
  · exact .group span

/-- Parentheses do not change what becomes a chain. -/
theorem becomesChain_group_iff {inner : Expression} {span : Span} :
    (Expression.group inner span).BecomesChain configuration names ↔
      inner.BecomesChain configuration names := by
  constructor
  · rintro (_ | _ | ⟨_, chain⟩ | _)
    exact chain
  · exact .group span

/-- Outer parentheses may be taken off what becomes a chain. -/
theorem becomesChain_ungrouped_iff :
    expression.ungrouped.BecomesChain configuration names ↔
      expression.BecomesChain configuration names := by
  fun_induction Expression.ungrouped expression with
  | case1 inner span inductionHypothesis => rw [inductionHypothesis, becomesChain_group_iff]
  | case2 expression notGroup => rfl

/-- Outer parentheses may be taken off a chain. -/
theorem isChain_ungrouped_iff : expression.ungrouped.IsChain names ↔ expression.IsChain names := by
  fun_induction Expression.ungrouped expression with
  | case1 inner span inductionHypothesis => rw [inductionHypothesis, isChain_group_iff]
  | case2 expression notGroup => rfl

/-- An expression is no more than one chain. -/
theorem IsChain.unique {names' : List String} (chain : expression.IsChain names)
    (chain' : expression.IsChain names') : names = names' := by
  rw [← memberChain?_eq_some_iff] at chain chain'
  exact Option.some.inj (chain.symm.trans chain')

/-- A chain has at least one name. -/
theorem IsChain.ne_nil (chain : expression.IsChain names) : names ≠ [] := by
  induction chain with
  | reference name span => exact List.cons_ne_nil _ _
  | property name span chain inductionHypothesis => simp
  | group span chain inductionHypothesis => exact inductionHypothesis

/-- A chain of one name is a reference. -/
theorem isChain_singleton_iff {name : String} :
    expression.IsChain [name] ↔ ∃ span, expression.ungrouped = .reference name span := by
  rw [← isChain_ungrouped_iff]
  constructor
  · intro chain
    generalize shape : expression.ungrouped = inner at chain
    cases inner with
    | reference other span =>
        cases chain
        exact ⟨span, rfl⟩
    | property parent other span =>
        obtain ⟨front, chain, same⟩ := isChain_property_iff.mp chain
        have := chain.ne_nil
        cases front <;> simp_all
    | group inner span => exact absurd shape (expression.ungrouped_ne_group inner span)
    | _ => cases chain
  · rintro ⟨span, shape⟩
    rw [shape]
    exact .reference name span

/-- A chain of two names is a property of a reference. -/
theorem isChain_pair_iff {first second : String} :
    expression.IsChain [first, second] ↔
      ∃ parent span, expression.ungrouped = .property parent second span ∧
        parent.IsChain [first] := by
  rw [← isChain_ungrouped_iff]
  constructor
  · intro chain
    generalize shape : expression.ungrouped = inner at chain
    cases inner with
    | property parent other span =>
        obtain ⟨front, parentChain, same⟩ := isChain_property_iff.mp chain
        obtain ⟨rfl, sameName⟩ := List.append_inj' (show [first] ++ [second] = _ from same) rfl
        cases sameName
        exact ⟨parent, span, rfl, parentChain⟩
    | group inner span => exact absurd shape (expression.ungrouped_ne_group inner span)
    | _ => cases chain
  · rintro ⟨parent, span, shape, chain⟩
    rw [shape]
    exact chain.property second span

end Expression

/-- The mode accessor has no parts, so a call of its method is the call of a chain. -/
theorem Configuration.callsMode_iff {configuration : Configuration} {expression : Expression} :
    configuration.CallsMode expression ↔ ∃ callee arguments span,
      expression.ungrouped = .call callee arguments span ∧
        callee.IsChain [configuration.modeAccessor, "getMode"] ∧
        ∀ argument ∈ arguments, argument.IsPlain := by
  simp only [Expression.isChain_pair_iff, Expression.isChain_singleton_iff]
  constructor
  · rintro ⟨callee, arguments, accessor, ⟨span, shape⟩, ⟨span', calleeShape⟩, named, plain⟩
    exact ⟨callee, arguments, span, shape, ⟨accessor, span', calleeShape, named⟩, plain⟩
  · rintro ⟨callee, arguments, span, shape, ⟨accessor, span', calleeShape, named⟩, plain⟩
    exact ⟨callee, arguments, accessor, ⟨span, shape⟩, ⟨span', calleeShape⟩, named, plain⟩

namespace Expression

variable {configuration : Configuration} {expression : Expression} {names : List String}

/-- A call of `getMode` does not become a chain, because it is no assertion. -/
theorem not_becomesChain_of_callsMode (calls : configuration.CallsMode expression) :
    ¬ expression.BecomesChain configuration names := by
  obtain ⟨callee, arguments, span, shape, calleeChain, plain⟩ := Configuration.callsMode_iff.mp calls
  rw [← becomesChain_ungrouped_iff, shape]
  rintro (_ | _ | _ | ⟨_, kept, ⟨names, chain, ending⟩, _⟩)
  rw [chain.unique calleeChain] at ending
  have same := ending.eq_of_length rfl
  simp at same

/-- What a pass leaves is a chain exactly where the recursion on chains says so. -/
theorem isChain_reduced_iff (expression : Expression) {names : List String} :
    (expression.reduced configuration).value.expression.IsChain names ↔
      expression.BecomesChain configuration names := by
  rw [reduced_eq]
  -- The induction is on the size, because the argument of an assertion takes the place of the
  -- call.
  have found := configuration.finds expression
  cases reason : configuration.finding? expression with
  | none =>
      cases expression with
      | reference name span =>
          simp only [Counted.value_map, reducedParts, Counted.value_pure, Slot.expression]
          constructor
          · rintro ⟨⟩
            exact .reference name span
          · rintro ⟨⟩
            exact .reference name span
      | property parent name span =>
          rw [reducedParts, becomesChain_property_iff]
          simp only [← isChain_reduced_iff parent]
          exact isChain_property_iff
      | group inner span =>
          rw [reducedParts, becomesChain_group_iff, ← isChain_reduced_iff inner]
          exact isChain_group_iff
      | call callee arguments span =>
          have plain := (Configuration.not_of_finding?_call reason).2
          rw [reducedParts]
          constructor
          · intro chain
            cases chain
          · rintro (_ | _ | _ | ⟨_, _, asserts, _⟩)
            exact absurd asserts plain
      | _ =>
          simp only [reducedParts]
          constructor <;> intro chain <;> cases chain
  | some finding =>
      rw [reason] at found
      rw [← becomesChain_ungrouped_iff]
      cases found with
      | stripped shape strips =>
          rw [shape]
          constructor
          · intro chain
            cases chain
          · rintro (_ | _ | _ | ⟨_, kept, _, _⟩)
            exact absurd strips kept
      | @asserted callee arguments span shape kept asserts =>
          rw [shape]
          cases arguments with
          | nil => constructor <;> intro chain <;> cases chain
          | cons argument rest =>
              have lower := Configuration.sizeOf_asserted_lt reason
              simp only [List.head?_cons, Counted.value_bind]
              rw [isChain_reduced_iff argument]
              constructor
              · exact .asserted span kept asserts
              · rintro (_ | _ | _ | ⟨_, kept, _, chain⟩)
                exact chain
      | flag shape production calls known =>
          rw [shape, becomesChain_property_iff]
          constructor
          · intro chain
            cases chain
          · rintro ⟨front, chain, _⟩
            exact absurd chain (not_becomesChain_of_callsMode calls)
termination_by sizeOf expression

/-- A property is plain if its parent is. -/
theorem isPlain_property_iff {parent : Expression} {name : String} {span : Span} :
    (Expression.property parent name span).IsPlain ↔ parent.IsPlain := by
  constructor
  · intro plain
    cases plain with
    | property _ _ plain => exact plain
  · exact .property name span

/-- Parentheses do not change what is plain. -/
theorem isPlain_group_iff {inner : Expression} {span : Span} :
    (Expression.group inner span).IsPlain ↔ inner.IsPlain := by
  constructor
  · intro plain
    cases plain with
    | group _ plain => exact plain
  · exact .group span

/-- A property becomes plain if its parent does. -/
theorem becomesPlain_property_iff {parent : Expression} {name : String} {span : Span} :
    (Expression.property parent name span).BecomesPlain configuration ↔
      parent.BecomesPlain configuration ∨ (configuration.isProduction = true ∧
        configuration.CallsMode parent ∧ (ModeFlag.ofName? name).isSome) := by
  constructor
  · intro becomes
    cases becomes with
    | literal plain => exact .inl (.literal (isPlain_property_iff.mp plain))
    | property _ _ plain => exact .inl plain
    | flag _ production calls known => exact .inr ⟨production, calls, by simp [known]⟩
  · rintro (plain | ⟨production, calls, known⟩)
    · exact .property name span plain
    · obtain ⟨flag, known⟩ := Option.isSome_iff_exists.mp known
      exact .flag span production calls known

/-- Parentheses do not change what becomes plain. -/
theorem becomesPlain_group_iff {inner : Expression} {span : Span} :
    (Expression.group inner span).BecomesPlain configuration ↔
      inner.BecomesPlain configuration := by
  constructor
  · intro becomes
    cases becomes with
    | literal plain => exact .literal (isPlain_group_iff.mp plain)
    | group _ plain => exact plain
  · exact .group span

/-- Outer parentheses may be taken off what becomes plain. -/
theorem becomesPlain_ungrouped_iff :
    expression.ungrouped.BecomesPlain configuration ↔ expression.BecomesPlain configuration := by
  fun_induction Expression.ungrouped expression with
  | case1 inner span inductionHypothesis => rw [inductionHypothesis, becomesPlain_group_iff]
  | case2 expression notGroup => rfl

/-- A call that is left alone never becomes plain. -/
theorem not_becomesPlain_call {callee : Expression} {arguments : List Expression} {span : Span}
    (kept : ¬ configuration.StripsCallee callee) (other : ¬ callee.IsAssertion) :
    ¬ (Expression.call callee arguments span).BecomesPlain configuration := by
  intro becomes
  cases becomes with
  | literal plain => cases plain
  | stripped _ _ strips => exact kept strips
  | emptied _ asserts => exact other asserts
  | asserted _ asserts plain => exact other asserts

/-- The relation says exactly which expressions are plain behind a pass. -/
theorem isPlain_reduced_iff (expression : Expression) :
    (expression.reduced configuration).value.expression.IsPlain ↔
      expression.BecomesPlain configuration := by
  rw [reduced_eq]
  -- As for chains, the induction is on the size because of assertions.
  have found := configuration.finds expression
  cases reason : configuration.finding? expression with
  | none =>
      cases expression with
      | property parent name span =>
          have kept := Configuration.not_of_finding?_property reason
          rw [reducedParts, becomesPlain_property_iff, or_iff_left kept,
            ← isPlain_reduced_iff parent]
          exact isPlain_property_iff
      | group inner span =>
          rw [reducedParts, becomesPlain_group_iff, ← isPlain_reduced_iff inner]
          exact isPlain_group_iff
      | call callee arguments span =>
          obtain ⟨kept, other⟩ := Configuration.not_of_finding?_call reason
          rw [reducedParts]
          constructor
          · intro plain
            cases plain
          · intro becomes
            exact absurd becomes (not_becomesPlain_call kept other)
      | _ =>
          simp only [Counted.value_map, reducedParts, Counted.value_pure, Slot.expression]
          constructor
          · intro plain
            cases plain <;> exact .literal (by constructor)
          · rintro ⟨plain⟩
            cases plain <;> constructor
  | some finding =>
      rw [reason] at found
      rw [← becomesPlain_ungrouped_iff]
      cases found with
      | stripped shape strips =>
          rw [shape]
          exact iff_of_true (.undefined _) (.stripped _ _ strips)
      | @asserted callee arguments span shape kept asserts =>
          rw [shape]
          cases arguments with
          | nil => exact iff_of_true (.undefined _) (.emptied _ asserts)
          | cons argument rest =>
              have lower := Configuration.sizeOf_asserted_lt reason
              simp only [List.head?_cons, Counted.value_bind]
              rw [isPlain_reduced_iff argument]
              constructor
              · exact .asserted span asserts
              · intro becomes
                cases becomes with
                | literal plain => cases plain
                | stripped _ _ strips => exact absurd strips kept
                | asserted _ _ plain => exact plain
      | flag shape production calls known =>
          rw [shape]
          exact iff_of_true (.boolean _ _) (.flag _ production calls known)
termination_by sizeOf expression

/-- Parentheses do not change what becomes a call of the mode accessor. -/
theorem becomesModeCall_group_iff {inner : Expression} {span : Span} :
    (Expression.group inner span).BecomesModeCall configuration ↔
      inner.BecomesModeCall configuration := by
  constructor
  · intro becomes
    cases becomes with
    | group _ calls => exact calls
  · exact .group span

/-- Outer parentheses may be taken off what becomes a call of the mode accessor. -/
theorem becomesModeCall_ungrouped_iff :
    expression.ungrouped.BecomesModeCall configuration ↔
      expression.BecomesModeCall configuration := by
  fun_induction Expression.ungrouped expression with
  | case1 inner span inductionHypothesis => rw [inductionHypothesis, becomesModeCall_group_iff]
  | case2 expression notGroup => rfl

/-- Each item behind a pass comes from one before it. -/
theorem mem_reducedAll_iff {items : List Expression} {item : Expression} :
    item ∈ (reducedAll configuration items).value ↔
      ∃ source ∈ items, item = (source.reduced configuration).value.expression := by
  induction items with
  | nil => simp [reducedAll]
  | cons first rest inductionHypothesis =>
      rw [reducedAll]
      simp [inductionHypothesis]

/-- The relation says exactly which expressions call the mode accessor behind a pass. -/
theorem callsMode_reduced_iff (expression : Expression) :
    configuration.CallsMode (expression.reduced configuration).value.expression ↔
      expression.BecomesModeCall configuration := by
  rw [reduced_eq]
  -- A call that is kept calls the accessor if its callee becomes the chain, and an assertion if
  -- its argument does.
  have found := configuration.finds expression
  cases reason : configuration.finding? expression with
  | none =>
      cases expression with
      | group inner span =>
          rw [reducedParts, becomesModeCall_group_iff, ← callsMode_reduced_iff inner]
          exact Iff.rfl
      | call callee arguments span =>
          obtain ⟨kept, other⟩ := Configuration.not_of_finding?_call reason
          rw [reducedParts, Configuration.callsMode_iff]
          constructor
          · rintro ⟨_, _, _, ⟨⟩, chain, plain⟩
            refine .call span kept other ((isChain_reduced_iff callee).mp chain) ?_
            intro argument inside
            rw [← isPlain_reduced_iff]
            exact plain _ (mem_reducedAll_iff.mpr ⟨argument, inside, rfl⟩)
          · intro becomes
            cases becomes with
            | call _ _ _ chain plain =>
                refine ⟨_, _, _, rfl, (isChain_reduced_iff callee).mpr chain, ?_⟩
                intro item inside
                obtain ⟨argument, given, rfl⟩ := mem_reducedAll_iff.mp inside
                exact (isPlain_reduced_iff argument).mpr (plain argument given)
            | asserted _ _ asserts => exact absurd asserts other
      | _ =>
          rw [Configuration.callsMode_iff]
          simp only [Counted.value_map, reducedParts, Counted.value_pure, Slot.expression]
          constructor
          · rintro ⟨_, _, _, shape, _⟩
            cases shape
          · rintro ⟨⟩
  | some finding =>
      rw [reason] at found
      rw [← becomesModeCall_ungrouped_iff]
      cases found with
      | stripped shape strips =>
          rw [shape, Configuration.callsMode_iff]
          constructor
          · rintro ⟨_, _, _, ⟨⟩, _⟩
          · intro becomes
            cases becomes with
            | call _ kept => exact absurd strips kept
            | asserted _ kept => exact absurd strips kept
      | @asserted callee arguments span shape kept asserts =>
          rw [shape]
          cases arguments with
          | nil =>
              rw [Configuration.callsMode_iff]
              constructor
              · rintro ⟨_, _, _, ⟨⟩, _⟩
              · intro becomes
                cases becomes with
                | call _ _ other => exact absurd asserts other
          | cons argument rest =>
              have lower := Configuration.sizeOf_asserted_lt reason
              simp only [List.head?_cons, Counted.value_bind]
              rw [callsMode_reduced_iff argument]
              constructor
              · exact .asserted span kept asserts
              · intro becomes
                cases becomes with
                | call _ _ other => exact absurd asserts other
                | asserted _ _ _ calls => exact calls
      | flag shape production calls known =>
          rw [shape, Configuration.callsMode_iff]
          constructor
          · rintro ⟨_, _, _, ⟨⟩, _⟩
          · rintro ⟨⟩
termination_by sizeOf expression

/-- Where nothing is found, parentheses are taken off before or behind the pass. -/
theorem ungrouped_reducedParts (notFound : configuration.finding? expression = none) :
    (expression.reducedParts configuration).value.ungrouped =
      (expression.ungrouped.reducedParts configuration).value := by
  fun_induction Expression.ungrouped expression with
  | case1 inner span inductionHypothesis =>
      have innerNotFound : configuration.finding? inner = none := notFound
      rw [← inductionHypothesis innerNotFound]
      simp only [reducedParts, Counted.value_bind, Counted.value_pure, Expression.ungrouped]
      rw [reduced_eq, innerNotFound]
      rfl
  | case2 expression notGroup =>
      cases expression with
      | group inner span => exact absurd rfl (notGroup inner span)
      | _ => simp only [reducedParts, Counted.value_bind, Counted.value_pure, Expression.ungrouped]

/-- A call is overlooked if there is a reason to act on it once its callee is reduced. -/
theorem isOverlooked_call_iff {callee : Expression} {arguments : List Expression} {span : Span} :
    (Expression.call callee arguments span).IsOverlooked configuration ↔
      configuration.StripsCallee (callee.reduced configuration).value.expression ∨
        (callee.reduced configuration).value.expression.IsAssertion := by
  simp only [Configuration.StripsCallee, IsAssertion, isChain_reduced_iff]
  constructor
  · intro overlooked
    cases overlooked with
    | stripped _ _ chain configured ending => exact .inl ⟨_, chain, _, configured, ending⟩
    | asserted _ _ chain ending => exact .inr ⟨_, chain, ending⟩
  · rintro (⟨names, chain, suffix, configured, ending⟩ | ⟨names, chain, ending⟩)
    · exact .stripped arguments span chain configured ending
    · exact .asserted arguments span chain ending

/-- A property is overlooked if its parent calls the mode accessor once it is reduced. -/
theorem isOverlooked_property_iff {parent : Expression} {name : String} {span : Span} :
    (Expression.property parent name span).IsOverlooked configuration ↔
      configuration.isProduction = true ∧
        configuration.CallsMode (parent.reduced configuration).value.expression ∧
        (ModeFlag.ofName? name).isSome := by
  rw [callsMode_reduced_iff]
  constructor
  · intro overlooked
    cases overlooked with
    | flag _ production calls known => exact ⟨production, calls, by simp [known]⟩
  · rintro ⟨production, calls, known⟩
    obtain ⟨flag, known⟩ := Option.isSome_iff_exists.mp known
    exact .flag span production calls known

/-- Something is found at what is left of an expression exactly if the expression is overlooked. -/
theorem finding?_reducedParts_eq_none_iff (notFound : configuration.finding? expression = none) :
    configuration.finding? (expression.reducedParts configuration).value = none ↔
      ¬ expression.ungrouped.IsOverlooked configuration := by
  have same := ungrouped_reducedParts notFound
  cases shape : expression.ungrouped with
  | call callee arguments span =>
      rw [shape, reducedParts] at same
      rw [Configuration.finding?_of_call same, isOverlooked_call_iff, not_or]
      exact Configuration.callFinding?_eq_none_iff
  | property parent name span =>
      rw [shape, reducedParts] at same
      rw [Configuration.finding?_of_property same, isOverlooked_property_iff]
      cases ModeFlag.ofName? name <;> simp
  | group inner span => exact absurd shape (expression.ungrouped_ne_group inner span)
  | _ =>
      rw [shape] at same
      rw [Configuration.finding?_of_other (by simp [same, reducedParts])
        (by simp [same, reducedParts])]
      refine iff_of_true rfl ?_
      rintro ⟨⟩

end Expression

end ScriptStrip
