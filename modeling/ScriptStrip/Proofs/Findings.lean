import ScriptStrip.Proofs.Reduction
/-
This file says what is found at an expression, and that the finding decides what a pass makes of
the expression.
-/

namespace ScriptStrip

namespace Configuration

variable {configuration : Configuration} {callee : Expression} {arguments : List Expression}

/-- A call whose callee ends in a suffix is found to be stripped. -/
theorem callFinding?_of_strips (strips : configuration.StripsCallee callee) :
    configuration.callFinding? callee arguments = some .stripped := by
  obtain ⟨names, found, ending⟩ := (Option.any_eq_true _ _).mp (strips_iff.mpr strips)
  simp [callFinding?, found, ending]

/-- An assertion is found with its first argument. -/
theorem callFinding?_of_asserts (strips : ¬ configuration.StripsCallee callee)
    (asserts : callee.IsAssertion) :
    configuration.callFinding? callee arguments = some (.asserted arguments.head?) := by
  obtain ⟨names, found, ending⟩ :=
    (Option.any_eq_true _ _).mp (Expression.isAssertion_iff.mpr asserts)
  have kept : configuration.strips names ≠ true := by
    intro stripped
    exact strips (strips_iff.mp (by rw [found]; exact stripped))
  simp [callFinding?, found, ending, kept]

/-- Any other call is not found. -/
theorem callFinding?_of_neither (strips : ¬ configuration.StripsCallee callee)
    (asserts : ¬ callee.IsAssertion) : configuration.callFinding? callee arguments = none := by
  unfold callFinding?
  split
  · rfl
  · rename_i names found
    have kept : configuration.strips names ≠ true := by
      intro stripped
      exact strips (strips_iff.mp (by rw [found]; exact stripped))
    have plain : Suffix.isEndOf ["dev", "assert"] names ≠ true := by
      intro ending
      exact asserts (Expression.isAssertion_iff.mp (by rw [found]; exact ending))
    rw [if_neg kept, if_neg plain]

/-- A call is left alone exactly if its callee is neither stripped nor an assertion. -/
theorem callFinding?_eq_none_iff : configuration.callFinding? callee arguments = none ↔
    ¬ configuration.StripsCallee callee ∧ ¬ callee.IsAssertion := by
  by_cases strips : configuration.StripsCallee callee
  · simp [callFinding?_of_strips strips, strips]
  · by_cases asserts : callee.IsAssertion
    · simp [callFinding?_of_asserts strips asserts, asserts]
    · simp [callFinding?_of_neither strips asserts, strips, asserts]

/-- At a call, in parentheses or not, the callee decides. -/
theorem finding?_of_call {expression : Expression} {span : Span}
    (shape : expression.ungrouped = .call callee arguments span) :
    configuration.finding? expression = configuration.callFinding? callee arguments := by
  rw [finding?, shape]

/-- At a property, in parentheses or not, the mode flags decide. -/
theorem finding?_of_property {expression parent : Expression} {name : String} {span : Span}
    (shape : expression.ungrouped = .property parent name span) :
    configuration.finding? expression =
      if configuration.isProduction = true ∧ configuration.CallsMode parent then
        (ModeFlag.ofName? name).map fun flag => .flag flag.value
      else none := by
  rw [finding?, shape]
  simp only [modeFlag?, shape]
  by_cases calls : configuration.CallsMode parent
  · by_cases production : configuration.isProduction = true
    · simp [isModeCall_iff.mpr calls, calls, production]
    · simp [production]
  · simp [mt isModeCall_iff.mp calls, calls]

/-- Nothing else is ever found. -/
theorem finding?_of_other {expression : Expression}
    (notCall : ∀ callee arguments span, expression.ungrouped ≠ .call callee arguments span)
    (notProperty : ∀ parent name span, expression.ungrouped ≠ .property parent name span) :
    configuration.finding? expression = none := by
  unfold finding?
  split
  · rename_i callee arguments span shape
    exact absurd shape (notCall callee arguments span)
  · rename_i parent name span shape
    exact absurd shape (notProperty parent name span)
  · rfl

end Configuration

/-- What is found at an expression decides what a pass leaves of it. -/
theorem Expression.reduced_eq (configuration : Configuration) (expression : Expression) :
    expression.reduced configuration =
      match configuration.finding? expression with
      | none => .filled <$> expression.reducedParts configuration
      | some .stripped => do
          Counted.doing { removed := 1 }
          return .vacant expression.span
      | some (.asserted none) => do
          Counted.doing { folded := 1 }
          return .vacant expression.span
      | some (.asserted (some argument)) => do
          Counted.doing { folded := 1 }
          argument.reduced configuration
      | some (.flag value) => do
          Counted.doing { replaced := 1 }
          return .filled (.boolean value expression.span) := by
  rw [Expression.reduced]
  split
  · rename_i callee arguments span shape
    rw [Configuration.finding?_of_call shape]
    by_cases strips : configuration.StripsCallee callee
    · rw [if_pos strips, Configuration.callFinding?_of_strips strips]
    · by_cases asserts : callee.IsAssertion
      · rw [if_neg strips, if_pos asserts, Configuration.callFinding?_of_asserts strips asserts]
        cases arguments <;> rfl
      · rw [if_neg strips, if_neg asserts,
          Configuration.callFinding?_of_neither strips asserts]
  · rename_i parent name span shape
    rw [Configuration.finding?_of_property shape]
    by_cases calls : configuration.isProduction = true ∧ configuration.CallsMode parent
    · rw [if_pos calls]
      cases known : ModeFlag.ofName? name with
      | some flag =>
          rcases ModeFlag.exists_ofName?_iff.mp ⟨flag, known, rfl⟩ with
            ⟨isName, isValue⟩ | ⟨rfl, isValue⟩
          · rw [if_pos ⟨calls.1, calls.2, isName⟩, Option.map_some, isValue]
          · rw [if_neg (by simp), if_pos ⟨calls.1, calls.2, rfl⟩, Option.map_some, isValue]
      | none =>
          have unknown (value : Bool) := mt ModeFlag.exists_ofName?_iff.mpr
            (by simp [known] : ¬ ∃ flag, ModeFlag.ofName? name = some flag ∧ flag.value = value)
          rw [if_neg fun all => unknown false (.inl ⟨all.2.2, rfl⟩),
            if_neg fun all => unknown true (.inr ⟨all.2.2, rfl⟩)]
          rfl
    · rw [if_neg fun all => calls ⟨all.1, all.2.1⟩, if_neg fun all => calls ⟨all.1, all.2.1⟩,
        if_neg calls]
  · rename_i notCall notProperty
    rw [Configuration.finding?_of_other notCall notProperty]

/-- What can be found at an expression, with the reasons for it. -/
inductive Configuration.Finds (configuration : Configuration) (expression : Expression) :
    Option Configuration.Finding → Prop where
  | stripped {callee : Expression} {arguments : List Expression} {span : Span}
      (shape : expression.ungrouped = .call callee arguments span)
      (strips : configuration.StripsCallee callee) : Finds configuration expression (some .stripped)
  | asserted {callee : Expression} {arguments : List Expression} {span : Span}
      (shape : expression.ungrouped = .call callee arguments span)
      (kept : ¬ configuration.StripsCallee callee) (asserts : callee.IsAssertion) :
      Finds configuration expression (some (.asserted arguments.head?))
  | flag {parent : Expression} {name : String} {span : Span} {flag : ModeFlag}
      (shape : expression.ungrouped = .property parent name span)
      (production : configuration.isProduction = true) (calls : configuration.CallsMode parent)
      (known : ModeFlag.ofName? name = some flag) :
      Finds configuration expression (some (.flag flag.value))
  | call {callee : Expression} {arguments : List Expression} {span : Span}
      (shape : expression.ungrouped = .call callee arguments span)
      (kept : ¬ configuration.StripsCallee callee) (plain : ¬ callee.IsAssertion) :
      Finds configuration expression none
  | property {parent : Expression} {name : String} {span : Span}
      (shape : expression.ungrouped = .property parent name span)
      (kept : ¬ (configuration.isProduction = true ∧ configuration.CallsMode parent ∧
        (ModeFlag.ofName? name).isSome)) : Finds configuration expression none
  | other
      (notCall : ∀ callee arguments span, expression.ungrouped ≠ .call callee arguments span)
      (notProperty : ∀ parent name span, expression.ungrouped ≠ .property parent name span) :
      Finds configuration expression none

/-- What is found at an expression is what the rules say of it. -/
theorem Configuration.finds (configuration : Configuration) (expression : Expression) :
    configuration.Finds expression (configuration.finding? expression) := by
  cases shape : expression.ungrouped with
  | call callee arguments span =>
      rw [finding?_of_call shape]
      by_cases strips : configuration.StripsCallee callee
      · rw [callFinding?_of_strips strips]
        exact .stripped shape strips
      · by_cases asserts : callee.IsAssertion
        · rw [callFinding?_of_asserts strips asserts]
          exact .asserted shape strips asserts
        · rw [callFinding?_of_neither strips asserts]
          exact .call shape strips asserts
  | property parent name span =>
      rw [finding?_of_property shape]
      by_cases calls : configuration.isProduction = true ∧ configuration.CallsMode parent
      · rw [if_pos calls]
        cases known : ModeFlag.ofName? name with
        | none => exact .property shape (by simp [known])
        | some flag => exact .flag shape calls.1 calls.2 known
      · rw [if_neg calls]
        exact .property shape fun all => calls ⟨all.1, all.2.1⟩
  | _ =>
      rw [finding?_of_other (by simp [shape]) (by simp [shape])]
      exact .other (by simp [shape]) (by simp [shape])

/-- An assertion is found at a call that is not removed, and what it stands for is the first
argument of that call. -/
theorem Configuration.exists_call_of_asserted {configuration : Configuration}
    {expression : Expression} {argument : Option Expression}
    (found : configuration.finding? expression = some (.asserted argument)) :
    ∃ callee arguments span, expression.ungrouped = .call callee arguments span ∧
      ¬ configuration.StripsCallee callee ∧ callee.IsAssertion ∧ arguments.head? = argument := by
  have finds := configuration.finds expression
  generalize isFinding : configuration.finding? expression = result at finds
  cases finds with
  | @asserted callee arguments span shape kept asserts =>
      rw [isFinding] at found
      injection found with sameFinding
      injection sameFinding with isHead
      exact ⟨callee, arguments, span, shape, kept, asserts, isHead⟩
  | _ => cases isFinding.symm.trans found

/-- A call that nothing is found at keeps its callee and its arguments. -/
theorem Configuration.not_of_finding?_call {configuration : Configuration} {callee : Expression}
    {arguments : List Expression} {span : Span}
    (notFound : configuration.finding? (.call callee arguments span) = none) :
    ¬ configuration.StripsCallee callee ∧ ¬ callee.IsAssertion := by
  have found := configuration.finds (.call callee arguments span)
  rw [notFound] at found
  cases found with
  | call shape kept plain =>
      cases shape
      exact ⟨kept, plain⟩
  | property shape kept => cases shape
  | other notCall notProperty => exact absurd rfl (notCall callee arguments span)

/-- A property that is not found is no flag of the mode object. -/
theorem Configuration.not_of_finding?_property {configuration : Configuration}
    {parent : Expression} {name : String} {span : Span}
    (notFound : configuration.finding? (.property parent name span) = none) :
    ¬ (configuration.isProduction = true ∧ configuration.CallsMode parent ∧
      (ModeFlag.ofName? name).isSome) := by
  have found := configuration.finds (.property parent name span)
  rw [notFound] at found
  cases found with
  | call shape kept plain => cases shape
  | property shape kept =>
      cases shape
      exact kept
  | other notCall notProperty => exact absurd rfl (notProperty parent name span)

end ScriptStrip
