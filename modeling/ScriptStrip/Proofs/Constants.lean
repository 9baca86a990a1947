import Mathlib
import ScriptStrip.Parser.Grammar
import ScriptStrip.Proofs.Remaining
import ScriptStrip.Tree.Print
/-
This file follows the constants of a script through a rewriting pass. A constant without an initial
value is no valid declaration, and a pass drops initial values of which nothing is left.
-/

namespace ScriptStrip

mutual

/-- The constants that are declared in an expression, outside of the calls that are removed and of
the arguments that are dropped. A call that is not read is kept. -/
def Expression.constantsUnder (fate : Expression → Fate) (isRead : Bool) :
    Expression → List Declarator
  | .number .. | .string .. | .boolean .. | .null _ | .undefined _ | .reference .. => []
  | .array items _ => Expression.constantsUnderAll fate items
  | .object members _ => Member.constantsUnderAll fate members
  | .function definition => definition.constantsUnder fate
  | .group inner _ => inner.constantsUnder fate true
  | .property parent _ _ => parent.constantsUnder fate true
  | .index parent key _ => parent.constantsUnder fate true ++ key.constantsUnder fate true
  | .call callee arguments _ =>
      match if isRead then fate callee else .kept with
      | .removed => []
      | .unwrapped => Expression.constantsUnderHead fate arguments
      | .kept => callee.constantsUnder fate true ++ Expression.constantsUnderAll fate arguments
  | .unary _ operand _ => operand.constantsUnder fate true
  | .binary left _ right _ => left.constantsUnder fate true ++ right.constantsUnder fate true
  | .assign target value _ => target.constantsUnder fate false ++ value.constantsUnder fate true

/-- The constants in a list of expressions are listed in order. -/
def Expression.constantsUnderAll (fate : Expression → Fate) : List Expression → List Declarator
  | [] => []
  | first :: rest => first.constantsUnder fate true ++ Expression.constantsUnderAll fate rest

/-- Of the arguments of an assertion only the first one counts. -/
def Expression.constantsUnderHead (fate : Expression → Fate) : List Expression → List Declarator
  | [] => []
  | first :: _ => first.constantsUnder fate true

/-- An absent expression has no constants. -/
def Expression.constantsUnderOption (fate : Expression → Fate) :
    Option Expression → List Declarator
  | none => []
  | some value => value.constantsUnder fate true

/-- The constants in the values of an object are listed in order. -/
def Member.constantsUnderAll (fate : Expression → Fate) : List Member → List Declarator
  | [] => []
  | ⟨_, value, _⟩ :: rest => value.constantsUnder fate true ++ Member.constantsUnderAll fate rest

/-- A function has the constants of its body. -/
def FunctionDef.constantsUnder (fate : Expression → Fate) : FunctionDef → List Declarator
  | ⟨_, _, body, _⟩ => body.constantsUnder fate

/-- A block has the constants of its statements. -/
def Block.constantsUnder (fate : Expression → Fate) : Block → List Declarator
  | ⟨items, _⟩ => Statement.constantsUnderAll fate items

/-- A statement has the constants that it declares and those in its parts. -/
def Statement.constantsUnder (fate : Expression → Fate) : Statement → List Declarator
  | .expression value _ => value.constantsUnder fate true
  | .declaration word items _ => Declarator.constantsUnderAll fate word items
  | .function definition => definition.constantsUnder fate
  | .conditional condition consequent alternate _ =>
      condition.constantsUnder fate true ++ consequent.constantsUnder fate ++
        Branch.constantsUnderOption fate alternate
  | .returning value _ => Expression.constantsUnderOption fate value
  | .block inner => inner.constantsUnder fate
  | .empty _ => []

/-- The constants in a list of statements are listed in order. -/
def Statement.constantsUnderAll (fate : Expression → Fate) : List Statement → List Declarator
  | [] => []
  | first :: rest => first.constantsUnder fate ++ Statement.constantsUnderAll fate rest

/-- Each declared constant comes in front of those in its initial value. -/
def Declarator.constantsUnderAll (fate : Expression → Fate) (word : DeclarationWord) :
    List Declarator → List Declarator
  | [] => []
  | ⟨name, value, span⟩ :: rest =>
      (if word = .byConst then [⟨name, value, span⟩] else []) ++
        Expression.constantsUnderOption fate value ++ Declarator.constantsUnderAll fate word rest

/-- A branch has the constants of its block or statement. -/
def Branch.constantsUnder (fate : Expression → Fate) : Branch → List Declarator
  | .braced block => block.constantsUnder fate
  | .single statement => statement.constantsUnder fate

/-- A missing branch has no constants. -/
def Branch.constantsUnderOption (fate : Expression → Fate) : Option Branch → List Declarator
  | none => []
  | some branch => branch.constantsUnder fate

end

namespace Script

/-- The declarators of all constants, at any depth. -/
def constants (script : Script) : List Declarator :=
  Statement.constantsUnderAll (fun _ => .kept) script.items

/-- The constants that lie neither in a call that a pass removes nor in an argument that it
drops. -/
def constantsOutside (configuration : Configuration) (script : Script) : List Declarator :=
  Statement.constantsUnderAll configuration.fate script.items

end Script

/-- A pass leaves nothing of the expression. -/
inductive Expression.Vanishes (configuration : Configuration) : Expression → Prop where
  | group {inner : Expression} (span : Span) (vanishes : Vanishes configuration inner) :
      Vanishes configuration (.group inner span)
  | stripped {callee : Expression} (arguments : List Expression) (span : Span)
      (strips : configuration.StripsCallee callee) :
      Vanishes configuration (.call callee arguments span)
  | emptied {callee : Expression} (span : Span) (asserts : callee.IsAssertion) :
      Vanishes configuration (.call callee [] span)
  /-- The argument would take the place of the assertion, but nothing is left of it. -/
  | asserted {callee argument : Expression} (rest : List Expression) (span : Span)
      (asserts : callee.IsAssertion) (vanishes : Vanishes configuration argument) :
      Vanishes configuration (.call callee (argument :: rest) span)

variable {configuration : Configuration}

namespace Expression

/-- Parentheses do not change whether a value vanishes. -/
theorem vanishes_ungrouped_iff {expression : Expression} :
    expression.ungrouped.Vanishes configuration ↔ expression.Vanishes configuration := by
  fun_induction Expression.ungrouped expression with
  | case1 inner span inductionHypothesis =>
      rw [inductionHypothesis]
      constructor
      · exact .group span
      · rintro ⟨_, vanishes⟩
        exact vanishes
  | case2 expression notGroup => rfl

/-- What a pass does not act on does not vanish. -/
theorem not_vanishes_of_finding? {expression : Expression}
    (notFound : configuration.finding? expression = none) :
    ¬ expression.Vanishes configuration := by
  have finds := configuration.finds expression
  rw [notFound] at finds
  rw [← vanishes_ungrouped_iff]
  intro vanishes
  cases finds with
  | call shape kept plain =>
      rw [shape] at vanishes
      cases vanishes with
      | stripped _ _ strips => exact kept strips
      | emptied _ asserts => exact plain asserts
      | asserted _ _ asserts _ => exact plain asserts
  | property shape kept =>
      rw [shape] at vanishes
      cases vanishes
  | other notCall notProperty =>
      generalize shape : expression.ungrouped = inner at *
      cases vanishes with
      | group span _ => exact expression.ungrouped_ne_group _ span shape
      | stripped _ _ _ => exact notCall _ _ _ rfl
      | emptied _ _ => exact notCall _ _ _ rfl
      | asserted _ _ _ _ => exact notCall _ _ _ rfl

/-- The place of an expression is vacant behind a pass exactly if nothing is left of it. -/
theorem exists_vacant_reduced_iff (expression : Expression) :
    (∃ span, (expression.reduced configuration).value = .vacant span) ↔
      expression.Vanishes configuration := by
  have finds := configuration.finds expression
  rw [Expression.reduced_eq]
  cases found : configuration.finding? expression with
  | none =>
      refine iff_of_false ?_ (not_vanishes_of_finding? found)
      rintro ⟨span, ⟨⟩⟩
  | some finding =>
      rw [found] at finds
      rw [← vanishes_ungrouped_iff]
      cases finding with
      | stripped =>
          cases finds with
          | stripped shape strips =>
              rw [shape]
              exact iff_of_true ⟨_, rfl⟩ (.stripped _ _ strips)
      | flag value =>
          cases finds with
          | flag shape production calls known =>
              rw [shape]
              refine iff_of_false ?_ (by rintro ⟨⟩)
              rintro ⟨span, ⟨⟩⟩
      | asserted argument =>
          obtain ⟨callee, arguments, span, shape, kept, asserts, rfl⟩ :=
            Configuration.exists_call_of_asserted found
          rw [shape]
          cases arguments with
          | nil => exact iff_of_true ⟨_, rfl⟩ (.emptied _ asserts)
          | cons first rest =>
              -- The argument stands in for the call, so the induction goes on with it.
              have smaller := Configuration.sizeOf_asserted_lt found
              have ofFirst := exists_vacant_reduced_iff first
              refine ofFirst.trans ⟨.asserted rest span asserts, ?_⟩
              intro vanishes
              cases vanishes with
              | stripped _ _ strips => exact absurd strips kept
              | asserted _ _ _ vanishes => exact vanishes
termination_by sizeOf expression

end Expression

/-- A vacant place declares nothing. -/
def Slot.constants : Slot → List Declarator
  | .filled expression => expression.constantsUnder (fun _ => .kept) true
  | .vacant _ => []

/-- A slot has the constants of what it holds. -/
theorem Slot.constants_expression (slot : Slot) :
    slot.expression.constantsUnder (fun _ => .kept) true = slot.constants := by
  cases slot <;> rfl

section

variable {fate : Expression → Fate}

/-- A call that is kept has the constants of its callee and of its arguments. -/
theorem Expression.constantsUnder_call_of_kept {isRead : Bool} {callee : Expression}
    {arguments : List Expression} {span : Span} (kept : isRead = true → fate callee = .kept) :
    (Expression.call callee arguments span).constantsUnder fate isRead =
      callee.constantsUnder fate true ++ Expression.constantsUnderAll fate arguments := by
  rw [Expression.constantsUnder]
  cases isRead with
  | false => rfl
  | true => rw [if_pos rfl, kept rfl]

/-- Parentheses do not change the constants. -/
theorem Expression.constantsUnder_ungrouped (expression : Expression) :
    expression.ungrouped.constantsUnder fate true = expression.constantsUnder fate true := by
  fun_induction Expression.ungrouped expression with
  | case1 inner span inductionHypothesis => exact inductionHypothesis
  | case2 expression notGroup => rfl

/-- A plain expression declares no constant. -/
theorem Expression.IsPlain.constantsUnder_eq_nil {expression : Expression}
    (plain : expression.IsPlain) : expression.constantsUnder fate true = [] := by
  induction plain with
  | property _ _ _ inductionHypothesis => exact inductionHypothesis
  | group _ _ inductionHypothesis => exact inductionHypothesis
  | _ => rfl

/-- Plain arguments declare no constant. -/
theorem Expression.constantsUnderAll_eq_nil {items : List Expression}
    (plain : ∀ item ∈ items, item.IsPlain) : Expression.constantsUnderAll fate items = [] := by
  induction items with
  | nil => rfl
  | cons first rest inductionHypothesis =>
      rw [List.forall_mem_cons] at plain
      rw [Expression.constantsUnderAll, plain.1.constantsUnder_eq_nil,
        inductionHypothesis plain.2]
      rfl

/-- Nothing is declared where the flags of the build mode are asked for. -/
theorem Configuration.CallsMode.constantsUnder_eq_nil {expression : Expression}
    (calls : configuration.CallsMode expression) :
    expression.constantsUnder fate true = [] := by
  obtain ⟨callee, arguments, accessor, ⟨span, isCall⟩, ⟨span', isProperty⟩, ⟨span'', isReference⟩,
    plain⟩ := calls
  have ofAccessor : accessor.constantsUnder fate true = [] := by
    rw [← Expression.constantsUnder_ungrouped, isReference]
    rfl
  have ofCallee : callee.constantsUnder fate true = [] := by
    rw [← Expression.constantsUnder_ungrouped, isProperty]
    exact ofAccessor
  have ofArguments : Expression.constantsUnderAll fate arguments = [] :=
    Expression.constantsUnderAll_eq_nil plain
  rw [← Expression.constantsUnder_ungrouped, isCall, Expression.constantsUnder, ofCallee,
    ofArguments]
  split
  · rfl
  · cases arguments with
    | nil => rfl
    | cons first rest => exact (List.append_eq_nil_iff.mp ofArguments).1
  · rfl

end

/-- The constants of a declaration are those of its first name and of the others. -/
theorem Declarator.constantsUnderAll_cons (fate : Expression → Fate) (word : DeclarationWord)
    (first : Declarator) (rest : List Declarator) :
    Declarator.constantsUnderAll fate word (first :: rest) =
      (if word = .byConst then [first] else []) ++
        Expression.constantsUnderOption fate first.value ++
          Declarator.constantsUnderAll fate word rest := by
  cases first
  rfl

/-- A pass leaves the constant with what is left of its initial value. -/
def Declarator.behind (configuration : Configuration) (item : Declarator) : Declarator :=
  (item.reduced configuration).value

mutual

/-- A reduced expression has the constants that were outside of removed calls, as a pass leaves
them. -/
theorem Expression.constants_reduced (expression : Expression) :
    (expression.reduced configuration).value.constants =
      (expression.constantsUnder configuration.fate true).map
        (Declarator.behind configuration) := by
  have finds := configuration.finds expression
  rw [Expression.reduced_eq]
  cases found : configuration.finding? expression with
  | none => exact Expression.constants_reducedParts expression true fun _ => found
  | some finding =>
      rw [found] at finds
      rw [← Expression.constantsUnder_ungrouped]
      cases finding with
      | stripped =>
          cases finds with
          | stripped shape strips =>
              rw [shape, Expression.constantsUnder, if_pos rfl, Configuration.fate, if_pos strips]
              rfl
      | flag value =>
          cases finds with
          | flag shape production calls known =>
              rw [shape, Expression.constantsUnder, calls.constantsUnder_eq_nil]
              rfl
      | asserted argument =>
          obtain ⟨callee, arguments, span, shape, kept, asserts, rfl⟩ :=
            Configuration.exists_call_of_asserted found
          rw [shape, Expression.constantsUnder, if_pos rfl, Configuration.fate, if_neg kept,
            if_pos asserts]
          cases arguments with
          | nil => rfl
          | cons first rest =>
              have smaller := Configuration.sizeOf_asserted_lt found
              exact Expression.constants_reduced first
termination_by (sizeOf expression, 1)

/-- This is about expressions that are not replaced as a whole. -/
theorem Expression.constants_reducedParts (expression : Expression) (isRead : Bool)
    (kept : isRead = true → configuration.finding? expression = none) :
    (expression.reducedParts configuration).value.constantsUnder (fun _ => .kept) isRead =
      (expression.constantsUnder configuration.fate isRead).map
        (Declarator.behind configuration) := by
  cases expression with
  | array items span =>
      rw [Expression.reducedParts]
      exact Expression.constants_reducedAll items
  | object members span =>
      rw [Expression.reducedParts]
      exact Member.constants_reducedAll members
  | function definition =>
      rw [Expression.reducedParts]
      exact FunctionDef.constants_reduced definition
  | group inner span =>
      rw [Expression.reducedParts]
      exact (Slot.constants_expression _).trans (Expression.constants_reduced inner)
  | property parent name span =>
      rw [Expression.reducedParts]
      exact (Slot.constants_expression _).trans (Expression.constants_reduced parent)
  | index parent key span =>
      rw [Expression.reducedParts, Expression.constantsUnder, List.map_append,
        ← Expression.constants_reduced parent, ← Expression.constants_reduced key]
      simp only [Counted.value_bind, Counted.value_pure, Expression.constantsUnder,
        Slot.constants_expression]
  | call callee arguments span =>
      rw [Expression.constantsUnder_call_of_kept (Configuration.isRead_of_finding? kept rfl),
        Expression.reducedParts, List.map_append, ← Expression.constants_reduced callee,
        ← Expression.constants_reducedAll arguments]
      simp only [Counted.value_bind, Counted.value_pure]
      rw [Expression.constantsUnder_call_of_kept fun _ => rfl, Slot.constants_expression]
  | unary operator operand span =>
      rw [Expression.reducedParts]
      exact (Slot.constants_expression _).trans (Expression.constants_reduced operand)
  | binary left operator right span =>
      rw [Expression.reducedParts, Expression.constantsUnder, List.map_append,
        ← Expression.constants_reduced left, ← Expression.constants_reduced right]
      simp only [Counted.value_bind, Counted.value_pure, Expression.constantsUnder,
        Slot.constants_expression]
  | assign target value span =>
      have ofTarget := Expression.constants_reducedParts target false Bool.noConfusion
      rw [Expression.reducedParts, Expression.constantsUnder, List.map_append, ← ofTarget,
        ← Expression.constants_reduced value]
      simp only [Counted.value_bind, Counted.value_pure, Expression.constantsUnder,
        Slot.constants_expression]
  | _ =>
      rw [Expression.reducedParts] <;> first | rfl | simp
termination_by (sizeOf expression, 0)

/-- The same holds of a list of expressions. -/
theorem Expression.constants_reducedAll (items : List Expression) :
    Expression.constantsUnderAll (fun _ => .kept)
        (Expression.reducedAll configuration items).value =
      (Expression.constantsUnderAll configuration.fate items).map
        (Declarator.behind configuration) := by
  cases items with
  | nil =>
      rw [Expression.reducedAll]
      rfl
  | cons first rest =>
      rw [Expression.reducedAll, Expression.constantsUnderAll, List.map_append,
        ← Expression.constants_reduced first, ← Expression.constants_reducedAll rest]
      simp only [Counted.value_bind, Counted.value_pure, Expression.constantsUnderAll,
        Slot.constants_expression]
termination_by (sizeOf items, 0)

/-- The same holds of the members of an object. -/
theorem Member.constants_reducedAll (members : List Member) :
    Member.constantsUnderAll (fun _ => .kept) (Member.reducedAll configuration members).value =
      (Member.constantsUnderAll configuration.fate members).map
        (Declarator.behind configuration) := by
  cases members with
  | nil =>
      rw [Member.reducedAll]
      rfl
  | cons first rest =>
      cases first with
      | mk key value span =>
          rw [Member.reducedAll, Member.constantsUnderAll, List.map_append,
            ← Expression.constants_reduced value, ← Member.constants_reducedAll rest]
          simp only [Counted.value_bind, Counted.value_pure, Member.constantsUnderAll,
            Slot.constants_expression]
termination_by (sizeOf members, 0)

/-- The same holds of a function. -/
theorem FunctionDef.constants_reduced (definition : FunctionDef) :
    (definition.reduced configuration).value.constantsUnder (fun _ => .kept) =
      (definition.constantsUnder configuration.fate).map (Declarator.behind configuration) := by
  cases definition with
  | mk name parameters body span =>
      rw [FunctionDef.reduced]
      exact Block.constants_reduced body
termination_by (sizeOf definition, 0)

/-- The same holds of a block. -/
theorem Block.constants_reduced (block : Block) :
    (block.reduced configuration).value.constantsUnder (fun _ => .kept) =
      (block.constantsUnder configuration.fate).map (Declarator.behind configuration) := by
  cases block with
  | mk items span =>
      rw [Block.reduced]
      exact Statement.constants_reducedAll items
termination_by (sizeOf block, 0)

/-- The same holds of a statement, which has no constants if it is dropped. -/
theorem Statement.constants_reduced (statement : Statement) :
    (statement.reduced configuration).value.elim [] (Statement.constantsUnder fun _ => .kept) =
      (statement.constantsUnder configuration.fate).map (Declarator.behind configuration) := by
  cases statement with
  | expression value span =>
      rw [Statement.reduced, Counted.value_bind, Statement.constantsUnder,
        ← Expression.constants_reduced value]
      cases (value.reduced configuration).value <;> rfl
  | declaration word items span =>
      rw [Statement.reduced]
      exact Declarator.constants_reducedAll word items
  | function definition =>
      rw [Statement.reduced]
      exact FunctionDef.constants_reduced definition
  | conditional condition consequent alternate span =>
      rw [Statement.reduced, Statement.constantsUnder, List.map_append, List.map_append,
        ← Expression.constants_reduced condition, ← Branch.constants_reduced consequent,
        ← Branch.constants_reducedOption alternate]
      simp only [Counted.value_bind, Counted.value_pure, Option.elim_some,
        Statement.constantsUnder, Slot.constants_expression]
  | returning value span =>
      rw [Statement.reduced]
      exact Expression.constants_reducedOption value
  | block inner =>
      rw [Statement.reduced]
      exact Block.constants_reduced inner
  | empty span =>
      rw [Statement.reduced]
      rfl
termination_by (sizeOf statement, 0)

/-- The same holds of an optional expression. -/
theorem Expression.constants_reducedOption (value : Option Expression) :
    Expression.constantsUnderOption (fun _ => .kept)
        (Expression.reducedOption configuration value).value =
      (Expression.constantsUnderOption configuration.fate value).map
        (Declarator.behind configuration) := by
  cases value with
  | none =>
      rw [Expression.reducedOption]
      rfl
  | some value =>
      rw [Expression.reducedOption]
      exact (Slot.constants_expression _).trans (Expression.constants_reduced value)
termination_by (sizeOf value, 0)

/-- The same holds of a list of statements. -/
theorem Statement.constants_reducedAll (items : List Statement) :
    Statement.constantsUnderAll (fun _ => .kept)
        (Statement.reducedAll configuration items).value =
      (Statement.constantsUnderAll configuration.fate items).map
        (Declarator.behind configuration) := by
  cases items with
  | nil =>
      rw [Statement.reducedAll]
      rfl
  | cons first rest =>
      rw [Statement.reducedAll, Counted.value_bind, Counted.value_bind, Counted.value_pure,
        Statement.constantsUnderAll, List.map_append, ← Statement.constants_reduced first,
        ← Statement.constants_reducedAll rest]
      cases (first.reduced configuration).value <;> rfl
termination_by (sizeOf items, 0)

/-- The same holds of declared names, whose values may vanish. -/
theorem Declarator.constants_reducedAll (word : DeclarationWord) (items : List Declarator) :
    Declarator.constantsUnderAll (fun _ => .kept) word
        (Declarator.reducedAll configuration items).value =
      (Declarator.constantsUnderAll configuration.fate word items).map
        (Declarator.behind configuration) := by
  cases items with
  | nil =>
      rw [Declarator.reducedAll]
      rfl
  | cons first rest =>
      have ofFirst : Expression.constantsUnderOption (fun _ => .kept)
          (first.behind configuration).value =
            (Expression.constantsUnderOption configuration.fate first.value).map
              (Declarator.behind configuration) := by
        cases first with
        | mk name value span =>
            cases value with
            | none =>
                rw [Declarator.behind, Declarator.reduced]
                rfl
            | some value =>
                rw [Declarator.behind, Declarator.reduced, Counted.value_bind,
                  Expression.constantsUnderOption, ← Expression.constants_reduced value]
                cases (value.reduced configuration).value <;> rfl
      rw [Declarator.reducedAll, Declarator.constantsUnderAll_cons, List.map_append,
        List.map_append, ← ofFirst, ← Declarator.constants_reducedAll word rest]
      simp only [Counted.value_bind, Counted.value_pure]
      rw [← Declarator.behind, Declarator.constantsUnderAll_cons]
      split <;> rfl
termination_by (sizeOf items, 0)

/-- The same holds of a branch. -/
theorem Branch.constants_reduced (branch : Branch) :
    (branch.reduced configuration).value.constantsUnder (fun _ => .kept) =
      (branch.constantsUnder configuration.fate).map (Declarator.behind configuration) := by
  cases branch with
  | braced block =>
      rw [Branch.reduced]
      exact Block.constants_reduced block
  | single statement =>
      rw [Branch.reduced, Counted.value_bind, Branch.constantsUnder,
        ← Statement.constants_reduced statement]
      cases (statement.reduced configuration).value <;> rfl
termination_by (sizeOf branch, 0)

/-- The same holds of an optional branch. -/
theorem Branch.constants_reducedOption (branch : Option Branch) :
    Branch.constantsUnderOption (fun _ => .kept)
        (Branch.reducedOption configuration branch).value =
      (Branch.constantsUnderOption configuration.fate branch).map
        (Declarator.behind configuration) := by
  cases branch with
  | none =>
      rw [Branch.reducedOption]
      rfl
  | some branch =>
      rw [Branch.reducedOption]
      exact Branch.constants_reduced branch
termination_by (sizeOf branch, 0)

end

/-- Only an initial value of which nothing is left is dropped. -/
theorem Declarator.isSome_value_behind_iff (item : Declarator) :
    (item.behind configuration).value.isSome = true ↔
      ∃ value, item.value = some value ∧ ¬ value.Vanishes configuration := by
  cases item with
  | mk name value span =>
      cases value with
      | none => simp [Declarator.behind, Declarator.reduced]
      | some value =>
          rw [Declarator.behind, Declarator.reduced, Counted.value_bind]
          have vanishes : (∃ span, (value.reduced configuration).value = .vacant span) ↔
            value.Vanishes configuration := value.exists_vacant_reduced_iff
          cases slot : (value.reduced configuration).value with
          | filled kept => simp [← vanishes, slot]
          | vacant span' => simp [← vanishes, slot]

namespace Script

variable (script : Script) (configuration : Configuration)

/-- A pass leaves all constants outside of removed calls and dropped arguments in their order. -/
theorem constants_rewrite : (script.rewrite configuration).1.constants =
    (script.constantsOutside configuration).map (Declarator.behind configuration) := by
  rw [script.fst_rewrite]
  exact Statement.constants_reducedAll script.items

/-- The constants that a pass leaves have initial values exactly if each of them had one that does
not vanish. -/
theorem initialized_rewrite_iff :
    (∀ item ∈ (script.rewrite configuration).1.constants, item.value.isSome = true) ↔
      ∀ item ∈ script.constantsOutside configuration,
        ∃ value, item.value = some value ∧ ¬ value.Vanishes configuration := by
  rw [constants_rewrite, List.forall_mem_map]
  simp only [Declarator.isSome_value_behind_iff]

/-- The initial value of a constant can be a call that is stripped. -/
theorem exists_parse_rewrite_uninitialized : ∃ script,
    Script.parse "const x = log.dev.fine(1);" = .ok script ∧
      (∀ item ∈ script.constants, item.value.isSome = true) ∧
      (∃ item ∈ (script.rewrite .production).1.constants, item.value = none) ∧
      (script.rewrite .production).1.print .minified = "const x;" := by
  refine ⟨⟨[.declaration .byConst [⟨"x", some (.call (.property (.property
    (.reference "log" ⟨10, 13⟩) "dev" ⟨10, 17⟩) "fine" ⟨10, 22⟩) [.number "1" ⟨23, 24⟩]
    ⟨10, 25⟩), ⟨6, 25⟩⟩] ⟨0, 25⟩], ⟨0, 26⟩⟩, ?_, by decide, ⟨⟨"x", none, ⟨6, 25⟩⟩, ?_, rfl⟩, ?_⟩
  · cbv
  · apply List.mem_of_mem_head?
    rw [Option.mem_def]
    cbv
  · cbv

end Script

end ScriptStrip
