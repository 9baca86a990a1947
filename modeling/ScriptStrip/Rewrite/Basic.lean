import ScriptStrip.Rewrite.Pattern
import ScriptStrip.Rewrite.Report
import ScriptStrip.Visitor
/-
This file removes development calls from a script and puts values in place of what is known
about its build. The pass runs from the top down: an argument that takes the place of its call
is looked at again before its own parts are.
-/

namespace ScriptStrip

/-- What a pass leaves in the place of an expression. -/
inductive Slot where
  | filled (expression : Expression)
  /-- Nothing is left. The owner of the place decides what to put there. -/
  | vacant (span : Span)

/-- Taking parentheses off makes no tree larger. -/
theorem Expression.sizeOf_ungrouped (expression : Expression) :
    sizeOf expression.ungrouped ≤ sizeOf expression := by
  fun_induction Expression.ungrouped expression with
  | case1 inner span inductionHypothesis => simp; omega
  | case2 expression other => exact Nat.le_refl _

namespace Configuration

/-- The argument of an assertion is smaller than the call, so the pass ends. -/
theorem sizeOf_asserted_lt {configuration : Configuration} {expression argument : Expression}
    (found : configuration.finding? expression = some (.asserted (some argument))) :
    sizeOf argument < sizeOf expression := by
  have smaller := expression.sizeOf_ungrouped
  unfold finding? at found
  split at found
  · rename_i callee arguments span shape
    unfold callFinding? at found
    split at found
    · cases found
    · split at found
      · cases found
      · split at found
        · simp only [Option.some.injEq, Finding.asserted.injEq] at found
          have inside := List.sizeOf_lt_of_mem (List.mem_of_mem_head? found)
          rw [shape] at smaller
          simp at smaller
          omega
        · cases found
  · split at found
    · obtain ⟨flag, _, absurd⟩ := Option.map_eq_some_iff.mp found
      cases absurd
    · cases found
  · cases found

/-- Counts and logs what is made of an expression. -/
def note (expression : Expression) (finding : Finding) : StateM Report Unit :=
  modify fun report =>
    let statistics := report.statistics
    let report := report.record (.rewriting expression.shape)
    match finding with
    | .stripped => { report with statistics := { statistics with removed := statistics.removed + 1 } }
    | .asserted _ => { report with statistics := { statistics with folded := statistics.folded + 1 } }
    | .flag _ => { report with statistics := { statistics with replaced := statistics.replaced + 1 } }

/-- Acts on an expression until nothing more is to be done with it as a whole. -/
def settle (configuration : Configuration) (expression : Expression) : StateM Report Slot :=
  match _found : configuration.finding? expression with
  | none => return .filled expression
  | some .stripped => do
      note expression .stripped
      return .vacant expression.span
  | some (.flag value) => do
      note expression (.flag value)
      return .filled (.boolean value expression.span)
  | some (.asserted none) => do
      note expression (.asserted none)
      return .vacant expression.span
  | some (.asserted (some argument)) => do
      note expression (.asserted (some argument))
      settle configuration argument
termination_by sizeOf expression
decreasing_by exact sizeOf_asserted_lt _found

/-- An expression of which nothing is left has no value. -/
def rewriteExpression (configuration : Configuration) (expression : Expression) :
    StateM Report Expression := do
  match ← configuration.settle expression with
  | .filled expression => return expression
  | .vacant span => return .undefined span

/-- A variable whose initial value is gone is declared without one. -/
def rewriteDeclarator (configuration : Configuration) (item : Declarator) :
    StateM Report Declarator := do
  match item.value with
  | none => return item
  | some value =>
      match ← configuration.settle value with
      | .filled value => return { item with value := some value }
      | .vacant _ => return { item with value := none }

/-- A statement of which nothing is left is dropped. -/
def rewriteItem? (configuration : Configuration) : Statement → StateM Report (Option Statement)
  | .expression value span => do
      match ← configuration.settle value with
      | .filled value => return some (.expression value span)
      | .vacant _ => return none
  | .declaration word items span => do
      return some (.declaration word (← items.mapM configuration.rewriteDeclarator) span)
  | statement => return some statement

/-- A branch cannot be dropped, so an empty statement stands in for its statement. -/
def rewriteBranch (configuration : Configuration) : Branch → StateM Report Branch
  | .single statement => do
      match ← configuration.rewriteItem? statement with
      | some statement => return .single statement
      | none => return .single (.empty statement.span)
  | .braced block => return .braced block

/-- The branches of a conditional are rewritten, every other statement stays for the walk. -/
def rewriteStatement (configuration : Configuration) : Statement → StateM Report Statement
  | .conditional condition consequent alternate span => do
      let consequent ← configuration.rewriteBranch consequent
      let alternate ← alternate.mapM configuration.rewriteBranch
      return .conditional condition consequent alternate span
  | statement => return statement

/-- A pass over a list drops the statements that are removed calls. -/
def rewriteItems (configuration : Configuration) (chain : ScopeChain) (items : List Statement) :
    StateM Report (List Statement) := do
  modify (Report.record (.visitingItems chain.length items.length))
  items.filterMapM configuration.rewriteItem?

/-- The visitor of a rewriting pass. -/
def rewriter (configuration : Configuration) : Visitor Report where
  onExpression _ expression := configuration.rewriteExpression expression
  onStatement _ statement := configuration.rewriteStatement statement
  onItems chain _ items := configuration.rewriteItems chain items

end Configuration

/-- The script behind a rewriting pass, and what the pass has done. -/
def Script.rewrite (script : Script) (configuration : Configuration) : Script × Report :=
  (configuration.rewriter.script script).run {}

end ScriptStrip
