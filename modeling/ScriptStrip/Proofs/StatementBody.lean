import ScriptStrip.Proofs.SpellingLaws
/-
This file separates the tokens of a statement from the mark on its right edge. The mark belongs to
the last of the statements that end there, and the span of the others does not cover it.
-/

namespace ScriptStrip

mutual

/-- The mark that closes the last statement on the right edge of a statement, if it is written. -/
def Statement.edge : Statement → Spelling
  | .conditional _ consequent none _ => consequent.edge
  | .conditional _ _ (some alternate) _ => alternate.edge
  | _ => Spelling.nothing

/-- The edge of a branch is what its statement may leave open at its end. -/
def Branch.edge : Branch → Spelling
  | .braced _ => Spelling.nothing
  | .single statement => statement.edge.andThen statement.ending

end

namespace Spelling

mutual

/-- The tokens that the span of a statement covers. The last branch of a condition is closed
behind them. -/
def ofBody : Statement → Spelling
  | .conditional condition consequent none _ =>
      inOrder [keyword .ifKw, enclosed .openParenthesis .closeParenthesis (ofExpression condition),
        ofBranchBody consequent]
  | .conditional condition consequent (some alternate) _ =>
      inOrder [keyword .ifKw, enclosed .openParenthesis .closeParenthesis (ofExpression condition),
        ofBranch consequent, keyword .elseKw, ofBranchBody alternate]
  | statement => ofStatement statement

/-- The body of a branch is spelled without its edge. -/
def ofBranchBody : Branch → Spelling
  | .braced block => ofBlock block
  | .single statement => ofBody statement

end

mutual

/-- A statement is spelled by its own tokens and the mark on its right edge. -/
theorem ofStatement_eq_andThen (statement : Statement) :
    ofStatement statement = (ofBody statement).andThen statement.edge := by
  cases statement with
  | conditional condition consequent alternate span =>
      cases alternate with
      | none =>
          rw [ofStatement, ofBody, Statement.edge, ofBranch_eq_andThen consequent]
          simp only [inOrder, ofAlternate, andThen_nothing, andThen_assoc]
      | some alternate =>
          rw [ofStatement, ofBody, Statement.edge, ofAlternate, ofBranch_eq_andThen alternate]
          simp only [inOrder, andThen_assoc]
  | _ => rw [ofBody, Statement.edge, andThen_nothing] <;> simp

/-- A branch is its body, and its edge behind it. -/
theorem ofBranch_eq_andThen (branch : Branch) :
    ofBranch branch = (ofBranchBody branch).andThen branch.edge := by
  cases branch with
  | braced block => rw [ofBranch, ofBranchBody, Branch.edge, andThen_nothing]
  | single statement =>
      rw [ofBranch, ofBranchBody, Branch.edge, ← andThen_assoc, ← ofStatement_eq_andThen statement]
      rfl

end

end Spelling

end ScriptStrip
