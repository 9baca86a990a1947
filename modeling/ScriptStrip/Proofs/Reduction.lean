import ScriptStrip.Proofs.Counted
import ScriptStrip.Rewrite.Basic
/-
This file says in one recursion over a tree what a rewriting pass makes of it. The recursion has
no visitors and looks at no place twice, and the shapes that it acts on are stated as relations.
-/

namespace ScriptStrip

/-- The expression is a chain of names such as `a.b.c`. Parentheses around a part make no
difference. -/
inductive Expression.IsChain : Expression → List String → Prop where
  | reference (name : String) (span : Span) : IsChain (.reference name span) [name]
  | property {parent : Expression} {names : List String} (name : String) (span : Span)
      (chain : IsChain parent names) : IsChain (.property parent name span) (names ++ [name])
  | group {inner : Expression} {names : List String} (span : Span)
      (chain : IsChain inner names) : IsChain (.group inner span) names

/-- The expression is a literal, a variable or a property of such an expression, so it can be
left out. -/
inductive Expression.IsPlain : Expression → Prop where
  | number (digits : String) (span : Span) : IsPlain (.number digits span)
  | string (content : String) (quote : Quote) (span : Span) : IsPlain (.string content quote span)
  | boolean (value : Bool) (span : Span) : IsPlain (.boolean value span)
  | null (span : Span) : IsPlain (.null span)
  | undefined (span : Span) : IsPlain (.undefined span)
  | reference (name : String) (span : Span) : IsPlain (.reference name span)
  | property {parent : Expression} (name : String) (span : Span) (plain : IsPlain parent) :
      IsPlain (.property parent name span)
  | group {inner : Expression} (span : Span) (plain : IsPlain inner) :
      IsPlain (.group inner span)

/-- The chain that is computed is the chain of the relation. -/
theorem Expression.memberChain?_eq_some_iff {expression : Expression} {names : List String} :
    expression.memberChain? = some names ↔ expression.IsChain names := by
  constructor
  · intro found
    fun_induction Expression.memberChain? expression generalizing names with
    | case1 name span =>
        cases found
        exact .reference name span
    | case2 parent name span inductionHypothesis =>
        obtain ⟨front, frontFound, rfl⟩ := Option.map_eq_some_iff.mp found
        exact .property name span (inductionHypothesis frontFound)
    | case3 inner span inductionHypothesis => exact .group span (inductionHypothesis found)
    | case4 expression notReference notProperty notGroup => cases found
  · intro chain
    induction chain with
    | reference name span => rfl
    | property name span chain inductionHypothesis =>
        simp [Expression.memberChain?, inductionHypothesis]
    | group span chain inductionHypothesis => exact inductionHypothesis

/-- The check for effects accepts exactly the plain expressions. -/
theorem Expression.isSideEffectFree_iff {expression : Expression} :
    expression.isSideEffectFree = true ↔ expression.IsPlain := by
  constructor
  · intro free
    fun_induction Expression.isSideEffectFree expression with
    | case1 digits span => exact .number digits span
    | case2 content quote span => exact .string content quote span
    | case3 value span => exact .boolean value span
    | case4 span => exact .null span
    | case5 span => exact .undefined span
    | case6 name span => exact .reference name span
    | case7 inner name span inductionHypothesis => exact .property name span (inductionHypothesis free)
    | case8 inner span inductionHypothesis => exact .group span (inductionHypothesis free)
    | case9 => cases free
  · intro plain
    induction plain with
    | property _ _ _ inductionHypothesis => exact inductionHypothesis
    | group _ _ inductionHypothesis => exact inductionHypothesis
    | _ => rfl

/-- The callee is a chain that ends in one of the configured suffixes. -/
def Configuration.StripsCallee (configuration : Configuration) (callee : Expression) : Prop :=
  ∃ names, callee.IsChain names ∧ ∃ suffix ∈ configuration.suffixes, suffix <:+ names

/-- The callee is a chain that ends in the name of the assertion. -/
def Expression.IsAssertion (callee : Expression) : Prop :=
  ∃ names, callee.IsChain names ∧ ["dev", "assert"] <:+ names

/-- The expression calls `getMode` of the mode accessor, with arguments that can be left out. -/
def Configuration.CallsMode (configuration : Configuration) (expression : Expression) : Prop :=
  ∃ callee arguments accessor, (∃ span, expression.ungrouped = .call callee arguments span) ∧
    (∃ span, callee.ungrouped = .property accessor "getMode" span) ∧
    (∃ span, accessor.ungrouped = .reference configuration.modeAccessor span) ∧
    ∀ argument ∈ arguments, argument.IsPlain

/-- The check of a callee accepts exactly those that end in a configured suffix. -/
theorem Configuration.strips_iff {configuration : Configuration} {callee : Expression} :
    callee.memberChain?.any configuration.strips = true ↔ configuration.StripsCallee callee := by
  simp only [Option.any_eq_true, Expression.memberChain?_eq_some_iff, StripsCallee, strips,
    List.any_eq_true, Suffix.isEndOf, List.isSuffixOf_iff_suffix]

/-- The check of a callee accepts exactly the assertions. -/
theorem Expression.isAssertion_iff {callee : Expression} :
    callee.memberChain?.any (Suffix.isEndOf ["dev", "assert"]) = true ↔ callee.IsAssertion := by
  simp only [Option.any_eq_true, Expression.memberChain?_eq_some_iff, IsAssertion,
    Suffix.isEndOf, List.isSuffixOf_iff_suffix]

/-- The check of a call accepts exactly the calls of the mode accessor. -/
theorem Configuration.isModeCall_iff {configuration : Configuration} {expression : Expression} :
    configuration.isModeCall expression = true ↔ configuration.CallsMode expression := by
  constructor
  · intro calls
    unfold isModeCall at calls
    split at calls
    · rename_i callee arguments span callShape
      split at calls
      · rename_i accessor span' calleeShape
        split at calls
        · rename_i name span'' accessorShape
          obtain ⟨sameName, free⟩ := Bool.and_eq_true_iff.mp calls
          rw [eq_of_beq sameName] at accessorShape
          refine ⟨callee, arguments, accessor, ⟨span, callShape⟩, ⟨span', calleeShape⟩,
            ⟨span'', accessorShape⟩, ?_⟩
          intro argument inside
          exact Expression.isSideEffectFree_iff.mp (List.all_eq_true.mp free argument inside)
        · cases calls
      · cases calls
    · cases calls
  · rintro ⟨callee, arguments, accessor, ⟨span, callShape⟩, ⟨span', calleeShape⟩,
      ⟨span'', accessorShape⟩, plain⟩
    have free : arguments.all Expression.isSideEffectFree = true :=
      List.all_eq_true.mpr fun argument inside =>
        Expression.isSideEffectFree_iff.mpr (plain argument inside)
    simp [isModeCall, callShape, calleeShape, accessorShape, free]

/-- A build mode has three flags, and in production only the last one is set. -/
theorem ModeFlag.exists_ofName?_iff {name : String} {value : Bool} :
    (∃ flag, ofName? name = some flag ∧ flag.value = value) ↔
      (name = "localDev" ∨ name = "test") ∧ value = false ∨ name = "minified" ∧ value = true := by
  constructor
  · rintro ⟨flag, known, rfl⟩
    unfold ofName? at known
    split at known
    · cases known
      exact .inl ⟨.inl rfl, rfl⟩
    · cases known
      exact .inl ⟨.inr rfl, rfl⟩
    · cases known
      exact .inr ⟨rfl, rfl⟩
    · cases known
  · rintro (⟨rfl | rfl, rfl⟩ | ⟨rfl, rfl⟩)
    · exact ⟨.localDev, rfl, rfl⟩
    · exact ⟨.test, rfl, rfl⟩
    · exact ⟨.minified, rfl, rfl⟩

instance (configuration : Configuration) (callee : Expression) :
    Decidable (configuration.StripsCallee callee) :=
  decidable_of_iff _ Configuration.strips_iff

instance (callee : Expression) : Decidable callee.IsAssertion :=
  decidable_of_iff _ Expression.isAssertion_iff

instance (configuration : Configuration) (expression : Expression) :
    Decidable (configuration.CallsMode expression) :=
  decidable_of_iff _ Configuration.isModeCall_iff

/-- The expression that stands in a place which needs one. -/
def Slot.expression : Slot → Expression
  | .filled expression => expression
  | .vacant span => .undefined span

mutual

/-- What a pass leaves in the place of an expression that is read. The first three cases are
decided by the expression as it is written, without the parentheses around it. -/
def Expression.reduced (configuration : Configuration) (expression : Expression) :
    Counted Slot :=
  match _shape : expression.ungrouped with
  | .call callee arguments _ =>
      if configuration.StripsCallee callee then do
        Counted.doing { removed := 1 }
        return .vacant expression.span
      else if callee.IsAssertion then do
        Counted.doing { folded := 1 }
        match _given : arguments with
        | [] => return .vacant expression.span
        | argument :: _ => argument.reduced configuration
      else .filled <$> expression.reducedParts configuration
  | .property parent name _ =>
      if configuration.isProduction ∧ configuration.CallsMode parent ∧
          (name = "localDev" ∨ name = "test") then do
        Counted.doing { replaced := 1 }
        return .filled (.boolean false expression.span)
      else if configuration.isProduction ∧ configuration.CallsMode parent ∧
          name = "minified" then do
        Counted.doing { replaced := 1 }
        return .filled (.boolean true expression.span)
      else .filled <$> expression.reducedParts configuration
  | _ => .filled <$> expression.reducedParts configuration
termination_by (sizeOf expression, 1)
decreasing_by
  · have smaller := expression.sizeOf_ungrouped
    rw [_shape, _given] at smaller
    simp only [Expression.call.sizeOf_spec, List.cons.sizeOf_spec] at smaller
    exact Prod.Lex.left _ _ (by omega)
  all_goals exact Prod.Lex.right _ Nat.zero_lt_one

/-- The expression with what a pass leaves of its parts. The target of an assignment is written
and not read, but parts of it are read. -/
def Expression.reducedParts (configuration : Configuration) (expression : Expression) :
    Counted Expression :=
  match expression with
  | .array items span => return .array (← Expression.reducedAll configuration items) span
  | .object members span => return .object (← Member.reducedAll configuration members) span
  | .function definition => return .function (← definition.reduced configuration)
  | .group inner span => return .group (← inner.reduced configuration).expression span
  | .property parent name span =>
      return .property (← parent.reduced configuration).expression name span
  | .index parent key span =>
      return .index (← parent.reduced configuration).expression
        (← key.reduced configuration).expression span
  | .call callee arguments span =>
      return .call (← callee.reduced configuration).expression
        (← Expression.reducedAll configuration arguments) span
  | .unary operator operand span =>
      return .unary operator (← operand.reduced configuration).expression span
  | .binary left operator right span =>
      return .binary (← left.reduced configuration).expression operator
        (← right.reduced configuration).expression span
  | .assign target value span =>
      return .assign (← target.reducedParts configuration)
        (← value.reduced configuration).expression span
  | leaf => return leaf
termination_by (sizeOf expression, 0)

/-- Each expression of a list is reduced on its own. -/
def Expression.reducedAll (configuration : Configuration) (items : List Expression) :
    Counted (List Expression) :=
  match items with
  | [] => return []
  | first :: rest =>
      return (← first.reduced configuration).expression ::
        (← Expression.reducedAll configuration rest)
termination_by (sizeOf items, 0)

/-- The values of an object are reduced, and its keys are kept. -/
def Member.reducedAll (configuration : Configuration) (members : List Member) :
    Counted (List Member) :=
  match members with
  | [] => return []
  | ⟨key, value, span⟩ :: rest =>
      return ⟨key, (← value.reduced configuration).expression, span⟩ ::
        (← Member.reducedAll configuration rest)
termination_by (sizeOf members, 0)

/-- The body of a function is reduced, and its parameters are kept. -/
def FunctionDef.reduced (configuration : Configuration) (definition : FunctionDef) :
    Counted FunctionDef :=
  match definition with
  | ⟨name, parameters, body, span⟩ =>
      return ⟨name, parameters, ← body.reduced configuration, span⟩
termination_by (sizeOf definition, 0)

/-- The statements of a block are reduced. -/
def Block.reduced (configuration : Configuration) (block : Block) : Counted Block :=
  match block with
  | ⟨items, span⟩ => return ⟨← Statement.reducedAll configuration items, span⟩
termination_by (sizeOf block, 0)

/-- What a pass leaves of a statement, if anything. -/
def Statement.reduced (configuration : Configuration) (statement : Statement) :
    Counted (Option Statement) :=
  match statement with
  | .expression value span => do
      match ← value.reduced configuration with
      | .filled value => return some (.expression value span)
      | .vacant _ => return none
  | .declaration word items span =>
      return some (.declaration word (← Declarator.reducedAll configuration items) span)
  | .function definition => return some (.function (← definition.reduced configuration))
  | .conditional condition consequent alternate span =>
      return some (.conditional (← condition.reduced configuration).expression
        (← consequent.reduced configuration) (← Branch.reducedOption configuration alternate) span)
  | .returning value span =>
      return some (.returning (← Expression.reducedOption configuration value) span)
  | .block inner => return some (.block (← inner.reduced configuration))
  | .empty span => return some (.empty span)
termination_by (sizeOf statement, 0)

/-- An absent expression stays absent. -/
def Expression.reducedOption (configuration : Configuration) (value : Option Expression) :
    Counted (Option Expression) :=
  match value with
  | none => return none
  | some value => return some (← value.reduced configuration).expression
termination_by (sizeOf value, 0)

/-- The statements of a list that a pass leaves something of. -/
def Statement.reducedAll (configuration : Configuration) (items : List Statement) :
    Counted (List Statement) :=
  match items with
  | [] => return []
  | first :: rest =>
      return (← first.reduced configuration).toList ++
        (← Statement.reducedAll configuration rest)
termination_by (sizeOf items, 0)

/-- A variable whose initial value is gone is declared without one. -/
def Declarator.reduced (configuration : Configuration) (item : Declarator) : Counted Declarator :=
  match item with
  | ⟨name, none, span⟩ => return ⟨name, none, span⟩
  | ⟨name, some value, span⟩ => do
      match ← value.reduced configuration with
      | .filled value => return ⟨name, some value, span⟩
      | .vacant _ => return ⟨name, none, span⟩
termination_by (sizeOf item, 0)

/-- Each declared name is reduced on its own. -/
def Declarator.reducedAll (configuration : Configuration) (items : List Declarator) :
    Counted (List Declarator) :=
  match items with
  | [] => return []
  | first :: rest =>
      return (← first.reduced configuration) :: (← Declarator.reducedAll configuration rest)
termination_by (sizeOf items, 0)

/-- A branch cannot be left out, so an empty statement stands in for its statement. -/
def Branch.reduced (configuration : Configuration) (branch : Branch) : Counted Branch :=
  match branch with
  | .braced block => return .braced (← block.reduced configuration)
  | .single statement => do
      match ← statement.reduced configuration with
      | some statement => return .single statement
      | none => return .single (.empty statement.span)
termination_by (sizeOf branch, 0)

/-- A missing branch stays missing. -/
def Branch.reducedOption (configuration : Configuration) (branch : Option Branch) :
    Counted (Option Branch) :=
  match branch with
  | none => return none
  | some branch => return some (← branch.reduced configuration)
termination_by (sizeOf branch, 0)

end

@[simp] theorem Expression.reducedParts_boolean (configuration : Configuration) (value : Bool)
    (span : Span) : (Expression.boolean value span).reducedParts configuration =
      pure (.boolean value span) := by
  simp [Expression.reducedParts]

@[simp] theorem Expression.reducedParts_undefined (configuration : Configuration) (span : Span) :
    (Expression.undefined span).reducedParts configuration = pure (.undefined span) := by
  simp [Expression.reducedParts]

/-- What a pass leaves of a script, with the number of times that it acts. -/
def Script.reduced (configuration : Configuration) (script : Script) : Counted Script :=
  return { script with items := ← Statement.reducedAll configuration script.items }

end ScriptStrip
