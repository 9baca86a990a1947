import ScriptStrip.Proofs.Gist
import ScriptStrip.Proofs.Regrouped
import ScriptStrip.Proofs.Written
/-
This file says how conditions that are put together by hand are read from their tokens. A block
that stands as a branch is read as a braced branch, and a second branch goes to the last condition
before it that can still take one.
-/

namespace ScriptStrip

/-- Which conditions of a statement have a second branch, and what stands in their branches. The
blocks and conditions in a function are not looked at. -/
inductive Fork where
  | plain
  | block (items : List Fork)
  | oneWay (consequent : Fork)
  | twoWay (consequent alternate : Fork)

/-- The statement ends in a condition that could still be given a second branch. -/
def Fork.endsOpen : Fork → Bool
  | oneWay _ => true
  | twoWay _ alternate => alternate.endsOpen
  | _ => false

mutual

/-- No first branch before a second one could itself be given that one. -/
def Fork.Closed : Fork → Prop
  | .plain => True
  | .block items => Fork.AllClosed items
  | .oneWay consequent => consequent.Closed
  | .twoWay consequent alternate =>
      consequent.endsOpen = false ∧ consequent.Closed ∧ alternate.Closed

/-- Each fork of the list is closed. -/
def Fork.AllClosed : List Fork → Prop
  | [] => True
  | first :: rest => first.Closed ∧ Fork.AllClosed rest

end

mutual

/-- The fork of a statement keeps its conditions and blocks only. -/
def Statement.fork : Statement → Fork
  | .conditional _ consequent none _ => .oneWay consequent.fork
  | .conditional _ consequent (some alternate) _ => .twoWay consequent.fork alternate.fork
  | .block inner => .block inner.forks
  | _ => .plain

/-- Each statement of a list has a fork of its own. -/
def Statement.forks : List Statement → List Fork
  | [] => []
  | first :: rest => first.fork :: Statement.forks rest

/-- A block has the forks of its statements. -/
def Block.forks : Block → List Fork
  | ⟨items, _⟩ => Statement.forks items

/-- A branch has the fork of its block or statement. -/
def Branch.fork : Branch → Fork
  | .braced block => .block block.forks
  | .single statement => statement.fork

end

mutual

/-- The statement is put together of conditions and blocks. Its expressions and its other
statements can be printed, and any statement may stand in a branch. -/
def Statement.Assembled (good : Lexeme → Prop) : Statement → Prop
  | .conditional condition consequent none _ =>
      condition.Formed good ∧ consequent.Assembled good
  | .conditional condition consequent (some alternate) _ =>
      condition.Formed good ∧ consequent.Assembled good ∧ alternate.Assembled good
  | .block inner => inner.Assembled good
  | leaf => leaf.Formed good

/-- Each statement of the list is assembled. -/
def Statement.AllAssembled (good : Lexeme → Prop) : List Statement → Prop
  | [] => True
  | first :: rest => first.Assembled good ∧ Statement.AllAssembled good rest

/-- The statements of a block are assembled. -/
def Block.Assembled (good : Lexeme → Prop) : Block → Prop
  | ⟨items, _⟩ => Statement.AllAssembled good items

/-- A branch is assembled if its block or statement is. -/
def Branch.Assembled (good : Lexeme → Prop) : Branch → Prop
  | .braced block => block.Assembled good
  | .single statement => statement.Assembled good

end

mutual

/-- The statement with each block that stands as a branch turned into a braced branch. -/
def Statement.unified : Statement → Statement
  | .conditional condition consequent none span =>
      .conditional condition consequent.unified none span
  | .conditional condition consequent (some alternate) span =>
      .conditional condition consequent.unified (some alternate.unified) span
  | .block inner => .block inner.unified
  | leaf => leaf

/-- Each statement of a list is unified. -/
def Statement.unifiedAll : List Statement → List Statement
  | [] => []
  | first :: rest => first.unified :: Statement.unifiedAll rest

/-- The statements of a block are unified. -/
def Block.unified : Block → Block
  | ⟨items, span⟩ => ⟨Statement.unifiedAll items, span⟩

/-- A block that stands alone in a branch becomes the braced branch that is read. -/
def Branch.unified : Branch → Branch
  | .braced block => .braced block.unified
  | .single (.block inner) => .braced inner.unified
  | .single statement => .single statement.unified

end

mutual

/-- The statement with a second branch for the last of its conditions that can take one. -/
def Statement.takeElse (statement : Statement) (given : Branch) : Statement :=
  match statement with
  | .conditional condition consequent none span =>
      if consequent.endsOpen then .conditional condition (consequent.takeElse given) none span
      else .conditional condition consequent (some given) span
  | .conditional condition consequent (some alternate) span =>
      .conditional condition consequent (some (alternate.takeElse given)) span
  | other => other

/-- Only a branch without braces can take what follows it. -/
def Branch.takeElse (branch given : Branch) : Branch :=
  match branch with
  | .braced block => .braced block
  | .single statement => .single (statement.takeElse given)

end

mutual

/-- The statement as its tokens are read. Each second branch belongs to the last condition that can
take it, and a block that stands as a branch is a braced branch. -/
def Statement.nearest : Statement → Statement
  | .conditional condition consequent none span =>
      .conditional condition consequent.nearest none span
  | .conditional condition consequent (some alternate) span =>
      (Statement.conditional condition consequent.nearest none span).takeElse alternate.nearest
  | .block inner => .block inner.nearest
  | leaf => leaf

/-- In each statement of a list the second branches go to the nearest conditions. -/
def Statement.nearestAll : List Statement → List Statement
  | [] => []
  | first :: rest => first.nearest :: Statement.nearestAll rest

/-- In a block the second branches go to the nearest conditions. -/
def Block.nearest : Block → Block
  | ⟨items, span⟩ => ⟨Statement.nearestAll items, span⟩

/-- In a branch the second branches go to the nearest conditions. -/
def Branch.nearest : Branch → Branch
  | .braced block => .braced block.nearest
  | .single (.block inner) => .braced inner.nearest
  | .single statement => .single statement.nearest

end

mutual

/-- The fork tells whether a statement could take another branch. -/
theorem Statement.endsOpen_fork (statement : Statement) :
    statement.fork.endsOpen = statement.endsOpen := by
  cases statement with
  | conditional condition consequent alternate span =>
      cases alternate with
      | none => rfl
      | some alternate => exact Branch.endsOpen_fork alternate
  | _ => rfl

/-- The fork tells whether a branch could take another one. -/
theorem Branch.endsOpen_fork (branch : Branch) : branch.fork.endsOpen = branch.endsOpen := by
  cases branch with
  | braced block => rfl
  | single statement => exact Statement.endsOpen_fork statement

end

mutual

/-- Places and quotes do not change the fork of a statement. -/
theorem Statement.fork_gist (statement : Statement) : statement.gist.fork = statement.fork := by
  cases statement with
  | conditional condition consequent alternate span =>
      cases alternate with
      | none => simp [Statement.gist, Branch.gistOption, Statement.fork, Branch.fork_gist consequent]
      | some alternate =>
          simp [Statement.gist, Branch.gistOption, Statement.fork, Branch.fork_gist consequent,
            Branch.fork_gist alternate]
  | block inner => simp [Statement.gist, Statement.fork, Block.forks_gist inner]
  | _ => rfl

/-- Places and quotes do not change the forks of statements. -/
theorem Statement.forks_gistAll (items : List Statement) :
    Statement.forks (Statement.gistAll items) = Statement.forks items := by
  cases items with
  | nil => rfl
  | cons first rest =>
      simp [Statement.gistAll, Statement.forks, Statement.fork_gist first,
        Statement.forks_gistAll rest]

/-- Places and quotes do not change the forks of a block. -/
theorem Block.forks_gist (block : Block) : block.gist.forks = block.forks := by
  cases block with
  | mk items span => exact Statement.forks_gistAll items

/-- Places and quotes do not change the fork of a branch. -/
theorem Branch.fork_gist (branch : Branch) : branch.gist.fork = branch.fork := by
  cases branch with
  | braced block => simp [Branch.gist, Branch.fork, Block.forks_gist block]
  | single statement => exact Statement.fork_gist statement

end

mutual

/-- Parentheses do not change the fork of a statement. -/
theorem Statement.fork_erased (statement : Statement) :
    statement.erased.fork = statement.fork := by
  cases statement with
  | conditional condition consequent alternate span =>
      cases alternate with
      | none =>
          simp [Statement.erased, Branch.erasedOption, Statement.fork,
            Branch.fork_erased consequent]
      | some alternate =>
          simp [Statement.erased, Branch.erasedOption, Statement.fork,
            Branch.fork_erased consequent, Branch.fork_erased alternate]
  | block inner => simp [Statement.erased, Statement.fork, Block.forks_erased inner]
  | _ => rfl

/-- Parentheses do not change the forks of statements. -/
theorem Statement.forks_erasedAll (items : List Statement) :
    Statement.forks (Statement.erasedAll items) = Statement.forks items := by
  cases items with
  | nil => rfl
  | cons first rest =>
      simp [Statement.erasedAll, Statement.forks, Statement.fork_erased first,
        Statement.forks_erasedAll rest]

/-- Parentheses do not change the forks of a block. -/
theorem Block.forks_erased (block : Block) : block.erased.forks = block.forks := by
  cases block with
  | mk items span => exact Statement.forks_erasedAll items

/-- Parentheses do not change the fork of a branch. -/
theorem Branch.fork_erased (branch : Branch) : branch.erased.fork = branch.fork := by
  cases branch with
  | braced block => simp [Branch.erased, Branch.fork, Block.forks_erased block]
  | single statement => exact Statement.fork_erased statement

end

mutual

/-- Unification does not change the fork of a statement. -/
theorem Statement.fork_unified (statement : Statement) :
    statement.unified.fork = statement.fork := by
  cases statement with
  | conditional condition consequent alternate span =>
      cases alternate with
      | none => simp [Statement.unified, Statement.fork, Branch.fork_unified consequent]
      | some alternate =>
          simp [Statement.unified, Statement.fork, Branch.fork_unified consequent,
            Branch.fork_unified alternate]
  | block inner => simp [Statement.unified, Statement.fork, Block.forks_unified inner]
  | _ => rfl

/-- Unification does not change the forks of statements. -/
theorem Statement.forks_unifiedAll (items : List Statement) :
    Statement.forks (Statement.unifiedAll items) = Statement.forks items := by
  cases items with
  | nil => rfl
  | cons first rest =>
      simp [Statement.unifiedAll, Statement.forks, Statement.fork_unified first,
        Statement.forks_unifiedAll rest]

/-- Unification does not change the forks of a block. -/
theorem Block.forks_unified (block : Block) : block.unified.forks = block.forks := by
  cases block with
  | mk items span => exact Statement.forks_unifiedAll items

/-- Unification does not change the fork of a branch. -/
theorem Branch.fork_unified (branch : Branch) : branch.unified.fork = branch.fork := by
  cases branch with
  | braced block => simp [Branch.unified, Branch.fork, Block.forks_unified block]
  | single statement =>
      cases statement with
      | block inner => simp [Branch.unified, Branch.fork, Statement.fork, Block.forks_unified inner]
      | conditional condition consequent alternate span =>
          exact Statement.fork_unified (.conditional condition consequent alternate span)
      | _ => rfl

end

mutual

/-- What the parser makes of a source is closed. -/
theorem Statement.closed_of_wellShaped (statement : Statement)
    (wellShaped : statement.WellShaped) : statement.fork.Closed := by
  cases statement with
  | conditional condition consequent alternate span =>
      obtain ⟨_, shapedConsequent, closed, shapedAlternate⟩ := wellShaped
      have closedConsequent := Branch.closed_of_wellShaped consequent shapedConsequent
      cases alternate with
      | none => exact closedConsequent
      | some alternate =>
          refine ⟨?_, closedConsequent, Branch.closed_of_wellShaped alternate shapedAlternate⟩
          rw [Branch.endsOpen_fork]
          exact closed (Option.some_ne_none alternate)
  | block inner => exact Block.closed_of_wellShaped inner wellShaped
  | _ => exact trivial

/-- The forks of well shaped statements are closed. -/
theorem Statement.allClosed_of_wellShaped (items : List Statement)
    (wellShaped : Statement.AllWellShaped items) : Fork.AllClosed (Statement.forks items) := by
  cases items with
  | nil => exact trivial
  | cons first rest =>
      exact ⟨Statement.closed_of_wellShaped first wellShaped.1,
        Statement.allClosed_of_wellShaped rest wellShaped.2⟩

/-- The forks of a well shaped block are closed. -/
theorem Block.closed_of_wellShaped (block : Block) (wellShaped : block.WellShaped) :
    Fork.AllClosed block.forks := by
  cases block with
  | mk items span => exact Statement.allClosed_of_wellShaped items wellShaped

/-- The fork of a well shaped branch is closed. -/
theorem Branch.closed_of_wellShaped (branch : Branch) (wellShaped : branch.WellShaped) :
    branch.fork.Closed := by
  cases branch with
  | braced block => exact Block.closed_of_wellShaped block wellShaped
  | single statement => exact Statement.closed_of_wellShaped statement wellShaped.2

end

section

variable {good : Lexeme → Prop}

mutual

/-- The leaves of an assembled statement are good. -/
theorem Statement.written_of_assembled (statement : Statement)
    (assembled : statement.Assembled good) : statement.Written good := by
  cases statement with
  | conditional condition consequent alternate span =>
      cases alternate with
      | none =>
          exact ⟨condition.written_of_formed assembled.1,
            Branch.written_of_assembled consequent assembled.2, trivial⟩
      | some alternate =>
          exact ⟨condition.written_of_formed assembled.1,
            Branch.written_of_assembled consequent assembled.2.1,
            Branch.written_of_assembled alternate assembled.2.2⟩
  | block inner => exact Block.written_of_assembled inner assembled
  | expression value span => exact Statement.written_of_formed _ assembled
  | declaration word items span => exact Statement.written_of_formed _ assembled
  | function definition => exact Statement.written_of_formed _ assembled
  | returning value span => exact Statement.written_of_formed _ assembled
  | empty span => exact trivial

/-- The leaves of assembled statements are good. -/
theorem Statement.allWritten_of_assembled (items : List Statement)
    (assembled : Statement.AllAssembled good items) : Statement.AllWritten good items := by
  cases items with
  | nil => exact trivial
  | cons first rest =>
      exact ⟨Statement.written_of_assembled first assembled.1,
        Statement.allWritten_of_assembled rest assembled.2⟩

/-- The leaves of an assembled block are good. -/
theorem Block.written_of_assembled (block : Block) (assembled : block.Assembled good) :
    block.Written good := by
  cases block with
  | mk items span => exact Statement.allWritten_of_assembled items assembled

/-- The leaves of an assembled branch are good. -/
theorem Branch.written_of_assembled (branch : Branch) (assembled : branch.Assembled good) :
    branch.Written good := by
  cases branch with
  | braced block => exact Block.written_of_assembled block assembled
  | single statement => exact Statement.written_of_assembled statement assembled

end

/-- A statement that takes a second branch becomes no block. -/
theorem Statement.takeElse_ne_block {statement : Statement}
    (other : ∀ inner, statement ≠ .block inner) (given : Branch) (inner : Block) :
    statement.takeElse given ≠ .block inner := by
  cases statement with
  | conditional condition consequent alternate span =>
      cases alternate with
      | none =>
          rw [Statement.takeElse]
          split <;> exact Statement.noConfusion
      | some alternate => exact Statement.noConfusion
  | block inner' => exact absurd rfl (other inner')
  | _ => exact Statement.noConfusion

mutual

/-- An open statement that takes a second branch stays formed. -/
theorem Statement.formed_takeElse (statement : Statement) {given : Branch}
    (formed : statement.Formed good) (isOpen : statement.endsOpen = true)
    (formedGiven : given.Formed good) : (statement.takeElse given).Formed good := by
  cases statement with
  | conditional condition consequent alternate span =>
      obtain ⟨formedCondition, formedConsequent, closed, formedAlternate⟩ := formed
      cases alternate with
      | none =>
          rw [Statement.takeElse]
          split
          · rename_i consequentOpen
            exact ⟨formedCondition,
              Branch.formed_takeElse consequent formedConsequent consequentOpen formedGiven,
              fun isSome => absurd rfl isSome, trivial⟩
          · rename_i notOpen
            exact ⟨formedCondition, formedConsequent, fun _ => Bool.eq_false_iff.mpr notOpen,
              formedGiven⟩
      | some alternate =>
          exact ⟨formedCondition, formedConsequent, fun _ => closed (Option.some_ne_none alternate),
            Branch.formed_takeElse alternate formedAlternate isOpen formedGiven⟩
  | _ => cases isOpen

/-- An open branch that takes a second branch stays formed. -/
theorem Branch.formed_takeElse (branch : Branch) {given : Branch} (formed : branch.Formed good)
    (isOpen : branch.endsOpen = true) (formedGiven : given.Formed good) :
    (branch.takeElse given).Formed good := by
  cases branch with
  | braced block => cases isOpen
  | single statement =>
      exact ⟨Statement.takeElse_ne_block formed.1 given,
        Statement.formed_takeElse statement formed.2 isOpen formedGiven⟩

end

mutual

/-- What is put together can be printed once each second branch is where it is read. -/
theorem Statement.formed_nearest (statement : Statement) (assembled : statement.Assembled good) :
    statement.nearest.Formed good := by
  cases statement with
  | conditional condition consequent alternate span =>
      cases alternate with
      | none =>
          exact ⟨assembled.1, Branch.formed_nearest consequent assembled.2,
            fun isSome => absurd rfl isSome, trivial⟩
      | some alternate =>
          have formedOneWay : (Statement.conditional condition consequent.nearest none span).Formed
              good := ⟨assembled.1, Branch.formed_nearest consequent assembled.2.1,
            fun isSome => absurd rfl isSome, trivial⟩
          rw [Statement.nearest]
          exact Statement.formed_takeElse _ formedOneWay rfl
            (Branch.formed_nearest alternate assembled.2.2)
  | block inner => exact Block.formed_nearest inner assembled
  | expression value span => exact assembled
  | declaration word items span => exact assembled
  | function definition => exact assembled
  | returning value span => exact assembled
  | empty span => exact trivial

/-- Assembled statements are formed once their second branches are moved. -/
theorem Statement.allFormed_nearestAll (items : List Statement)
    (assembled : Statement.AllAssembled good items) :
    Statement.AllFormed good (Statement.nearestAll items) := by
  cases items with
  | nil => exact trivial
  | cons first rest =>
      exact ⟨Statement.formed_nearest first assembled.1,
        Statement.allFormed_nearestAll rest assembled.2⟩

/-- An assembled block is formed once its second branches are moved. -/
theorem Block.formed_nearest (block : Block) (assembled : block.Assembled good) :
    block.nearest.Formed good := by
  cases block with
  | mk items span => exact Statement.allFormed_nearestAll items assembled

/-- An assembled branch is formed once its second branches are moved. -/
theorem Branch.formed_nearest (branch : Branch) (assembled : branch.Assembled good) :
    branch.nearest.Formed good := by
  cases branch with
  | braced block => exact Block.formed_nearest block assembled
  | single statement =>
      cases statement with
      | block inner => exact Block.formed_nearest inner assembled
      | conditional condition consequent alternate span =>
          refine ⟨?_, Statement.formed_nearest _ assembled⟩
          cases alternate with
          | none => exact fun inner => Statement.noConfusion
          | some alternate =>
              rw [Statement.nearest]
              exact Statement.takeElse_ne_block (fun _ => Statement.noConfusion) _
      | expression value span => exact ⟨fun inner => Statement.noConfusion, assembled⟩
      | declaration word items span => exact ⟨fun inner => Statement.noConfusion, assembled⟩
      | function definition => exact ⟨fun inner => Statement.noConfusion, assembled⟩
      | returning value span => exact ⟨fun inner => Statement.noConfusion, assembled⟩
      | empty span => exact ⟨fun inner => Statement.noConfusion, assembled⟩

end

end

mutual

/-- Where each second branch is read with its own condition, nothing is read in another way. -/
theorem Statement.nearest_of_closed (statement : Statement) (closed : statement.fork.Closed) :
    statement.nearest = statement.unified := by
  cases statement with
  | conditional condition consequent alternate span =>
      cases alternate with
      | none =>
          rw [Statement.nearest, Statement.unified, Branch.nearest_of_closed consequent closed]
      | some alternate =>
          obtain ⟨notOpen, closedConsequent, closedAlternate⟩ := closed
          rw [← Branch.fork_unified, Branch.endsOpen_fork] at notOpen
          rw [Statement.nearest, Statement.unified,
            Branch.nearest_of_closed consequent closedConsequent,
            Branch.nearest_of_closed alternate closedAlternate, Statement.takeElse, notOpen]
          rfl
  | block inner => rw [Statement.nearest, Statement.unified, Block.nearest_of_closed inner closed]
  | _ => rfl

/-- In closed statements no second branch is moved. -/
theorem Statement.nearestAll_of_closed (items : List Statement)
    (closed : Fork.AllClosed (Statement.forks items)) :
    Statement.nearestAll items = Statement.unifiedAll items := by
  cases items with
  | nil => rfl
  | cons first rest =>
      rw [Statement.nearestAll, Statement.unifiedAll, Statement.nearest_of_closed first closed.1,
        Statement.nearestAll_of_closed rest closed.2]

/-- In a closed block no second branch is moved. -/
theorem Block.nearest_of_closed (block : Block) (closed : Fork.AllClosed block.forks) :
    block.nearest = block.unified := by
  cases block with
  | mk items span => rw [Block.nearest, Block.unified, Statement.nearestAll_of_closed items closed]

/-- In a closed branch no second branch is moved. -/
theorem Branch.nearest_of_closed (branch : Branch) (closed : branch.fork.Closed) :
    branch.nearest = branch.unified := by
  cases branch with
  | braced block => rw [Branch.nearest, Branch.unified, Block.nearest_of_closed block closed]
  | single statement =>
      cases statement with
      | block inner => rw [Branch.nearest, Branch.unified, Block.nearest_of_closed inner closed]
      | conditional condition consequent alternate span =>
          exact congrArg Branch.single (Statement.nearest_of_closed _ closed)
      | _ => rfl

end

/-- An open statement has no semicolon of its own. -/
theorem Statement.ending_of_endsOpen {statement : Statement} (isOpen : statement.endsOpen = true) :
    statement.regrouped.ending = Spelling.nothing := by
  cases statement with
  | conditional condition consequent alternate span => rfl
  | _ => cases isOpen

/-- An open statement has no semicolon of its own behind the branch that it takes. -/
theorem Statement.ending_takeElse {statement : Statement} (isOpen : statement.endsOpen = true)
    (given : Branch) : (statement.takeElse given).regrouped.ending = Spelling.nothing := by
  cases statement with
  | conditional condition consequent alternate span =>
      cases alternate with
      | none =>
          rw [Statement.takeElse]
          split <;> rfl
      | some alternate => rfl
  | _ => cases isOpen

/-- Moving second branches changes no semicolon. -/
theorem Statement.ending_nearest (statement : Statement) :
    statement.nearest.regrouped.ending = statement.regrouped.ending := by
  cases statement with
  | conditional condition consequent alternate span =>
      cases alternate with
      | none => rfl
      | some alternate =>
          rw [Statement.nearest, Statement.ending_takeElse rfl]
          rfl
  | _ => rfl

namespace Spelling

mutual

/-- The tokens of the second branch come behind all others. -/
theorem ofStatement_takeElse (statement : Statement) (given : Branch)
    (isOpen : statement.endsOpen = true) :
    ofStatement (statement.takeElse given).regrouped =
      (ofStatement statement.regrouped).andThen (ofAlternate (some given.regrouped)) := by
  cases statement with
  | conditional condition consequent alternate span =>
      cases alternate with
      | none =>
          rw [Statement.takeElse]
          split
          · rename_i consequentOpen
            simp only [Statement.regrouped, Branch.regroupedOption, ofStatement, inOrder,
              ofBranch_takeElse consequent given consequentOpen, andThen_assoc]
            rw [ofAlternate, nothing_andThen, andThen_nothing]
          · simp only [Statement.regrouped, Branch.regroupedOption, ofStatement, inOrder,
              andThen_assoc]
            rw [ofAlternate, ofAlternate, nothing_andThen]
      | some alternate =>
          simp only [Statement.takeElse, Statement.regrouped, Branch.regroupedOption, ofStatement,
            inOrder, ofAlternate, ofBranch_takeElse alternate given isOpen, andThen_assoc]
  | _ => cases isOpen

/-- A branch that takes another one is spelled with the other one behind it. -/
theorem ofBranch_takeElse (branch given : Branch) (isOpen : branch.endsOpen = true) :
    ofBranch (branch.takeElse given).regrouped =
      (ofBranch branch.regrouped).andThen (ofAlternate (some given.regrouped)) := by
  cases branch with
  | braced block => cases isOpen
  | single statement =>
      have statementOpen : statement.endsOpen = true := isOpen
      simp only [Branch.takeElse, Branch.regrouped, ofBranch, inOrder,
        Statement.ending_takeElse statementOpen, Statement.ending_of_endsOpen statementOpen,
        andThen_nothing]
      exact ofStatement_takeElse statement given isOpen

end

mutual

/-- To read each second branch with the last condition before it takes no other tokens. -/
theorem ofStatement_nearest (statement : Statement) :
    ofStatement statement.nearest.regrouped = ofStatement statement.regrouped := by
  cases statement with
  | conditional condition consequent alternate span =>
      cases alternate with
      | none =>
          simp only [Statement.nearest, Statement.regrouped, Branch.regroupedOption, ofStatement,
            ofBranch_nearest consequent]
      | some alternate =>
          rw [Statement.nearest, ofStatement_takeElse _ _ rfl]
          simp only [Statement.regrouped, Branch.regroupedOption, ofStatement, inOrder,
            ofBranch_nearest consequent, andThen_assoc]
          simp only [ofAlternate, inOrder, nothing_andThen, ofBranch_nearest alternate]
  | block inner =>
      simp only [Statement.nearest, Statement.regrouped, ofStatement, ofBlock_nearest inner]
  | _ => rfl

/-- Statements are spelled alike wherever their second branches belong. -/
theorem ofStatements_nearestAll (items : List Statement) :
    ofStatements (Statement.regroupedAll (Statement.nearestAll items)) =
      ofStatements (Statement.regroupedAll items) := by
  cases items with
  | nil => rfl
  | cons first rest =>
      simp only [Statement.nearestAll, Statement.regroupedAll, ofStatements,
        ofStatement_nearest first, ofStatements_nearestAll rest, Statement.ending_nearest]

/-- A block is spelled alike wherever its second branches belong. -/
theorem ofBlock_nearest (block : Block) :
    ofBlock block.nearest.regrouped = ofBlock block.regrouped := by
  cases block with
  | mk items span =>
      simp only [Block.nearest, Block.regrouped, ofBlock, ofStatements_nearestAll items]

/-- A branch is spelled alike wherever its second branches belong. -/
theorem ofBranch_nearest (branch : Branch) :
    ofBranch branch.nearest.regrouped = ofBranch branch.regrouped := by
  cases branch with
  | braced block =>
      simp only [Branch.nearest, Branch.regrouped, ofBranch, ofBlock_nearest block]
  | single statement =>
      cases statement with
      | block inner =>
          have noEnding : (Statement.block inner.regrouped).ending = nothing := rfl
          simp only [Branch.nearest, Branch.regrouped, Statement.regrouped, ofBranch, ofStatement,
            inOrder, ofBlock_nearest inner, noEnding, andThen_nothing]
      | conditional condition consequent alternate span =>
          have ofCondition :=
            ofStatement_nearest (.conditional condition consequent alternate span)
          simp only [Branch.nearest, Branch.regrouped, ofBranch, ofCondition,
            Statement.ending_nearest]
      | _ => rfl

end

end Spelling

end ScriptStrip
