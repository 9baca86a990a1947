import ScriptStrip.Proofs.Gist
import ScriptStrip.Proofs.Leftover
import ScriptStrip.Proofs.WellShaped
/-
This file takes the parentheses out of a tree and nothing else. What a pass finds at an expression
does not depend on them.
-/

namespace ScriptStrip

mutual

/-- The expression without parentheses. Other than in `Expression.erased`, `void (0)` stays apart
from the undefined value, since a pass does not look at what `void` means. -/
def Expression.bare : Expression → Expression
  | .number digits span => .number digits span
  | .string content quote span => .string content quote span
  | .boolean value span => .boolean value span
  | .null span => .null span
  | .undefined span => .undefined span
  | .array items span => .array (Expression.bareAll items) span
  | .object members span => .object (Member.bareAll members) span
  | .function definition => .function definition.bare
  | .group inner _ => inner.bare
  | .reference name span => .reference name span
  | .property parent name span => .property parent.bare name span
  | .index parent key span => .index parent.bare key.bare span
  | .call callee arguments span => .call callee.bare (Expression.bareAll arguments) span
  | .unary operator operand span => .unary operator operand.bare span
  | .binary left operator right span => .binary left.bare operator right.bare span
  | .assign target value span => .assign target.bare value.bare span

/-- Each expression of a list is made bare. -/
def Expression.bareAll : List Expression → List Expression
  | [] => []
  | first :: rest => first.bare :: Expression.bareAll rest

/-- An absent expression has no parentheses. -/
def Expression.bareOption : Option Expression → Option Expression
  | none => none
  | some value => some value.bare

/-- The values of an object are made bare. -/
def Member.bareAll : List Member → List Member
  | [] => []
  | ⟨key, value, span⟩ :: rest => ⟨key, value.bare, span⟩ :: Member.bareAll rest

/-- The body of a function is made bare. -/
def FunctionDef.bare : FunctionDef → FunctionDef
  | ⟨name, parameters, body, span⟩ => ⟨name, parameters, body.bare, span⟩

/-- The statements of a block are made bare. -/
def Block.bare : Block → Block
  | ⟨items, span⟩ => ⟨Statement.bareAll items, span⟩

/-- The expressions in a statement are made bare. -/
def Statement.bare : Statement → Statement
  | .expression value span => .expression value.bare span
  | .declaration word items span => .declaration word (Declarator.bareAll items) span
  | .function definition => .function definition.bare
  | .conditional condition consequent alternate span =>
      .conditional condition.bare consequent.bare (Branch.bareOption alternate) span
  | .returning value span => .returning (Expression.bareOption value) span
  | .block inner => .block inner.bare
  | .empty span => .empty span

/-- Each statement of a list is made bare. -/
def Statement.bareAll : List Statement → List Statement
  | [] => []
  | first :: rest => first.bare :: Statement.bareAll rest

/-- The initial values of declared names are made bare. -/
def Declarator.bareAll : List Declarator → List Declarator
  | [] => []
  | ⟨name, value, span⟩ :: rest =>
      ⟨name, Expression.bareOption value, span⟩ :: Declarator.bareAll rest

/-- A branch is made bare as its block or its statement. -/
def Branch.bare : Branch → Branch
  | .braced block => .braced block.bare
  | .single statement => .single statement.bare

/-- A missing branch has no parentheses. -/
def Branch.bareOption : Option Branch → Option Branch
  | none => none
  | some branch => some branch.bare

end

/-- The script without parentheses. -/
def Script.bare (script : Script) : Script := ⟨Statement.bareAll script.items, script.span⟩

namespace Expression

@[simp] theorem span_gist (expression : Expression) : expression.gist.span = .null := by
  cases expression with
  | function definition =>
      cases definition
      rfl
  | _ => rfl

/-- A bare expression has no outer parentheses left to take off. -/
theorem ungrouped_gist_bare (expression : Expression) :
    expression.bare.gist.ungrouped = expression.ungrouped.bare.gist := by
  fun_induction ungrouped expression with
  | case1 inner span inductionHypothesis => exact inductionHypothesis
  | case2 expression notGroup =>
      cases expression with
      | group inner span => exact absurd rfl (notGroup inner span)
      | _ => rfl

/-- Parentheses do not change which names an expression is a chain of. -/
@[simp] theorem memberChain?_gist_bare (expression : Expression) :
    expression.bare.gist.memberChain? = expression.memberChain? := by
  fun_induction memberChain? expression with
  | case1 name span => rfl
  | case2 parent name span inductionHypothesis =>
      simp [bare, gist, memberChain?, inductionHypothesis]
  | case3 inner span inductionHypothesis => exact inductionHypothesis
  | case4 expression notReference notProperty notGroup =>
      cases expression with
      | reference name span => exact absurd rfl (notReference name span)
      | property parent name span => exact absurd rfl (notProperty parent name span)
      | group inner span => exact absurd rfl (notGroup inner span)
      | _ => rfl

/-- Parentheses do not change whether an expression may be dropped. -/
@[simp] theorem isSideEffectFree_gist_bare (expression : Expression) :
    expression.bare.gist.isSideEffectFree = expression.isSideEffectFree := by
  cases expression with
  | property parent name span => exact isSideEffectFree_gist_bare parent
  | group inner span => exact isSideEffectFree_gist_bare inner
  | _ => rfl

/-- Being a chain of names does not depend on parentheses. -/
theorem isChain_gist_bare_iff {expression : Expression} {names : List String} :
    expression.bare.gist.IsChain names ↔ expression.IsChain names := by
  rw [← memberChain?_eq_some_iff, memberChain?_gist_bare, memberChain?_eq_some_iff]

/-- Whether all arguments are plain does not depend on parentheses. -/
theorem forall_isPlain_gist_bare_iff {items : List Expression} :
    (∀ item ∈ gistAll (bareAll items), item.IsPlain) ↔ ∀ item ∈ items, item.IsPlain := by
  induction items with
  | nil => simp [bareAll, gistAll]
  | cons first rest inductionHypothesis =>
      rw [bareAll, gistAll, List.forall_mem_cons, List.forall_mem_cons, inductionHypothesis,
        ← isSideEffectFree_iff, isSideEffectFree_gist_bare, isSideEffectFree_iff]

/-- Being an assertion does not depend on parentheses. -/
theorem isAssertion_gist_bare_iff {callee : Expression} :
    callee.bare.gist.IsAssertion ↔ callee.IsAssertion := by
  simp only [IsAssertion, isChain_gist_bare_iff]

/-- The first argument stays the first. -/
theorem head?_gist_bare (items : List Expression) :
    (gistAll (bareAll items)).head? = items.head?.map fun item => item.bare.gist := by
  cases items <;> rfl

end Expression

theorem Statement.span_gist (statement : Statement) : statement.gist.span = .null := by
  cases statement with
  | function definition =>
      cases definition
      rfl
  | block inner =>
      cases inner
      rfl
  | _ => rfl

namespace Configuration

variable {configuration : Configuration}

/-- Whether a call is removed does not depend on parentheses. -/
theorem stripsCallee_gist_bare_iff {callee : Expression} :
    configuration.StripsCallee callee.bare.gist ↔ configuration.StripsCallee callee := by
  simp only [StripsCallee, Expression.isChain_gist_bare_iff]

/-- Being a call of the mode accessor does not depend on parentheses. -/
theorem callsMode_gist_bare_iff {expression : Expression} :
    configuration.CallsMode expression.bare.gist ↔ configuration.CallsMode expression := by
  rw [callsMode_iff, callsMode_iff, Expression.ungrouped_gist_bare]
  cases shape : expression.ungrouped with
  | call callee arguments span =>
      constructor
      · rintro ⟨_, _, _, ⟨⟩, chain, plain⟩
        exact ⟨callee, arguments, span, rfl, Expression.isChain_gist_bare_iff.mp chain,
          Expression.forall_isPlain_gist_bare_iff.mp plain⟩
      · rintro ⟨_, _, _, ⟨⟩, chain, plain⟩
        exact ⟨_, _, _, rfl, Expression.isChain_gist_bare_iff.mpr chain,
          Expression.forall_isPlain_gist_bare_iff.mpr plain⟩
  | group inner span => exact absurd shape (expression.ungrouped_ne_group inner span)
  | _ =>
      constructor
      · rintro ⟨_, _, _, ⟨⟩, _⟩
      · rintro ⟨_, _, _, ⟨⟩, _⟩

/-- The finding with its argument as a comparison of structures sees it, without parentheses. -/
def Finding.core : Finding → Finding
  | stripped => stripped
  | asserted argument => asserted (argument.map fun argument => argument.bare.gist)
  | flag value => flag value

/-- Parentheses, places and quotes make no difference to what is found. -/
theorem finding?_gist_bare (configuration : Configuration) (expression : Expression) :
    configuration.finding? expression.bare.gist =
      (configuration.finding? expression).map Finding.core := by
  have same := expression.ungrouped_gist_bare
  cases shape : expression.ungrouped with
  | call callee arguments span =>
      rw [shape] at same
      rw [finding?_of_call shape, finding?_of_call same]
      by_cases strips : configuration.StripsCallee callee
      · rw [callFinding?_of_strips strips,
          callFinding?_of_strips (stripsCallee_gist_bare_iff.mpr strips)]
        rfl
      · have kept := mt stripsCallee_gist_bare_iff.mp strips
        by_cases asserts : callee.IsAssertion
        · rw [callFinding?_of_asserts strips asserts, callFinding?_of_asserts kept
            (Expression.isAssertion_gist_bare_iff.mpr asserts), Expression.head?_gist_bare]
          rfl
        · rw [callFinding?_of_neither strips asserts,
            callFinding?_of_neither kept (mt Expression.isAssertion_gist_bare_iff.mp asserts)]
          rfl
  | property parent name span =>
      rw [shape] at same
      rw [finding?_of_property shape, finding?_of_property same]
      simp only [callsMode_gist_bare_iff]
      split
      · rw [Option.map_map]
        rfl
      · rfl
  | group inner span => exact absurd shape (expression.ungrouped_ne_group inner span)
  | _ =>
      rw [shape] at same
      have found : configuration.finding? expression = none :=
        finding?_of_other (by simp [shape]) (by simp [shape])
      rw [found]
      exact finding?_of_other (by rw [same]; nofun) (by rw [same]; nofun)

end Configuration

end ScriptStrip
