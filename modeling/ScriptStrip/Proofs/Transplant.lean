import ScriptStrip.Proofs.GrammarReading
import ScriptStrip.Proofs.Scanned
import ScriptStrip.Proofs.StatementBody
/-
This file moves spellings from one stream of tokens to another. A spelling can be moved to every
stream that starts with the same tokens. Only a semicolon that is left out at the very end makes
it matter what stands behind them.
-/

namespace ScriptStrip

/-- The tokens up to the first end and the tokens up to the second one are alike. -/
inductive TokenStream.Mirrors (stop stop' : TokenStream) : TokenStream → TokenStream → Prop
  | here {stream : TokenStream} (atStop : stream.ahead = stop.ahead) : Mirrors stop stop' stream stop'
  | there {stream stream' : TokenStream} (inside : stream.front.lexeme ≠ .endOfSource)
      (alike : stream.front.Alike stream'.front)
      (following : Mirrors stop stop' stream.advance stream'.advance) :
      Mirrors stop stop' stream stream'

/-- A semicolon can be left out in front of the token, whatever statement it would close. -/
def Token.ClosesStatements (token : Token) : Prop :=
  token.lexeme = .punctuator .closeBrace ∨ token.lexeme = .endOfSource

namespace TokenStream

variable {stop stop' stream stream' : TokenStream}

/-- A mirrored stream is not shorter than the place up to which it is mirrored. -/
theorem Mirrors.size_le (mirrors : Mirrors stop stop' stream stream') : stop.size ≤ stream.size := by
  induction mirrors with
  | here atStop => exact Nat.le_of_eq (congrArg List.length atStop.symm)
  | there _ _ _ step =>
      rw [size_advance] at step
      omega

/-- In front of the end the streams show tokens that are alike. -/
theorem Mirrors.of_size_lt (mirrors : Mirrors stop stop' stream stream')
    (inside : stop.size < stream.size) :
    stream.front.Alike stream'.front ∧ Mirrors stop stop' stream.advance stream'.advance := by
  cases mirrors with
  | here atStop =>
      have same : stream.size = stop.size := congrArg List.length atStop
      omega
  | there _ alike following => exact ⟨alike, following⟩

/-- Where the mirroring stops, the copy is at its own stop. -/
theorem Mirrors.of_size_eq (mirrors : Mirrors stop stop' stream stream')
    (atStop : stop.size = stream.size) : stream' = stop' := by
  cases mirrors with
  | here => rfl
  | there inside _ following =>
      have shorter := Spelling.size_advance_lt inside
      have longer := following.size_le
      omega

/-- Streams with tokens alike in front of the two stops mirror each other. -/
theorem mirrors_of_forall₂ {tokens tokens' : List Token}
    (alike : List.Forall₂ Token.Alike tokens tokens') (isAhead : stream.ahead = tokens ++ stop.ahead)
    (isAhead' : stream'.ahead = tokens' ++ stop'.ahead) (sameLast : stream'.last = stop'.last) :
    Mirrors stop stop' stream stream' := by
  induction alike generalizing stream stream' with
  | nil =>
      obtain rfl := eq_of_tokens isAhead' sameLast
      exact .here isAhead
  | @cons first first' rest rest' alikeFirst _ step =>
      have isFront : stream.front = first := by rw [front, isAhead]; rfl
      have isFront' : stream'.front = first' := by rw [front, isAhead']; rfl
      have inside : stream.front.lexeme ≠ .endOfSource := by
        rw [isFront]
        exact stream.ahead_lexeme first (by simp [isAhead])
      refine .there inside (by rw [isFront, isFront']; exact alikeFirst) (step ?_ ?_ ?_)
      · rw [ahead_advance, isAhead]
        rfl
      · rw [ahead_advance, isAhead']
        rfl
      · rw [last_advance]
        exact sameLast

end TokenStream

/-- A token that closes statements continues no expression. -/
theorem Token.ClosesStatements.not_continuesExpression {token : Token}
    (closes : token.ClosesStatements) : ¬ token.lexeme.ContinuesExpression := by
  rintro (⟨operator, isOperator⟩ | isAssign | continues)
  · rcases closes with same | same
    · rw [same] at isOperator
      cases operator <;> cases isOperator
    · rw [same] at isOperator
      cases isOperator
  · rcases closes with same | same <;> simp [same] at isAssign
  · rcases closes with same | same <;> simp [same, Lexeme.ContinuesAccess] at continues

namespace Statement

variable {statement : Statement} {stream : TokenStream}

/-- A token that closes statements continues none of them. -/
theorem not_continuedBy_of_closes {token : Token} (closes : token.ClosesStatements) :
    ¬ statement.ContinuedBy token.lexeme := by
  have notExpression := closes.not_continuesExpression
  cases statement with
  | expression value span => exact notExpression
  | declaration word items span =>
      rintro (isComma | ⟨⟨name, _ | value, span⟩, _, continued⟩)
      · rcases closes with same | same <;> simp [same] at isComma
      · rcases closes with same | same <;> simp [same, Declarator.ContinuedBy] at continued
      · exact notExpression continued
  | returning value span =>
      cases value with
      | none => exact id
      | some value => exact notExpression
  | _ => exact id

/-- In front of a token that closes statements each of them may end. -/
theorem endsBefore_of_closes {token : Token} (closes : token.ClosesStatements) :
    statement.EndsBefore token := by
  refine ⟨not_continuedBy_of_closes closes, fun _ => ?_, fun _ _ => ?_⟩
  · rcases closes with same | same <;> simp [same]
  · exact .inr (.inr closes)

/-- The semicolon behind the statement can be left out. -/
theorem ending_of_closes_front (closes : stream.front.ClosesStatements) :
    statement.ending stream stream := by
  unfold ending
  split
  · refine .inr ⟨rfl, ?_, .inr closes, not_continuedBy_of_closes closes⟩
    rcases closes with same | same <;> simp [same]
  · rfl

end Statement

mutual

/-- A token that closes statements leaves the edge of a statement empty. -/
theorem Statement.edge_of_closes_front (statement : Statement) {stream : TokenStream}
    (closes : stream.front.ClosesStatements) : statement.edge stream stream := by
  cases statement with
  | conditional condition consequent alternate span =>
      cases alternate with
      | none => exact Branch.edge_of_closes_front consequent closes
      | some alternate => exact Branch.edge_of_closes_front alternate closes
  | _ => rfl

/-- A token that closes statements leaves the edge of a branch empty. -/
theorem Branch.edge_of_closes_front (branch : Branch) {stream : TokenStream}
    (closes : stream.front.ClosesStatements) : branch.edge stream stream := by
  cases branch with
  | braced block => rfl
  | single statement =>
      exact ⟨stream, Statement.edge_of_closes_front statement closes,
        Statement.ending_of_closes_front closes⟩

end

namespace Spelling
open TokenStream

/-- Where the streams start with tokens that are alike, what they spell can be moved. At the end of
these tokens the second stream may have to close statements. -/
structure Portable (closing : Prop) (spelling : Spelling) : Prop where
  bounded : spelling.Bounded
  sameLast : ∀ {before after}, spelling before after → after.last = before.last
  moves : ∀ {stop stop' before before' after}, spelling before after →
    Mirrors stop stop' before before' → stop.size ≤ after.size →
      (closing → stop.size < after.size ∨ stop'.front.ClosesStatements) →
        ∃ after', spelling before' after' ∧ Mirrors stop stop' after after'

variable {closing : Prop} {first second : Spelling}

/-- A spelling that can be put anywhere can be put in front of a closing token. -/
theorem Portable.weaken (portable : first.Portable False) : first.Portable closing :=
  ⟨portable.bounded, portable.sameLast,
    fun spelled mirrors inside _ => portable.moves spelled mirrors inside False.elim⟩

/-- Nothing can be put anywhere. -/
theorem portable_nothing : nothing.Portable closing := by
  refine ⟨bounded_nothing, congrArg _, ?_⟩
  rintro stop stop' before before' _ rfl mirrors _ _
  exact ⟨before', rfl, mirrors⟩

/-- A token other than the end can be put anywhere. -/
theorem portable_one {wanted : Lexeme → Prop} (inside : ¬ wanted .endOfSource) :
    (one wanted).Portable closing := by
  have advances := advances_one inside
  refine ⟨advances.bounded, fun spelled => by rw [spelled.2, last_advance], ?_⟩
  rintro stop stop' before before' after spelled mirrors fits _
  have shorter := (advances before after spelled).2
  obtain ⟨isWanted, rfl⟩ := spelled
  obtain ⟨alike, following⟩ := mirrors.of_size_lt (by omega)
  exact ⟨before'.advance, ⟨alike.1 ▸ isWanted, rfl⟩, following⟩

/-- A mark can be put anywhere. -/
theorem portable_mark (wanted : Punctuator) : (mark wanted).Portable closing :=
  portable_one (by simp)

/-- A keyword can be put anywhere. -/
theorem portable_keyword (wanted : Keyword) : (keyword wanted).Portable closing :=
  portable_one (by simp)

/-- A name can be put anywhere. -/
theorem portable_identifier (name : String) : (identifier name).Portable closing :=
  portable_one (by simp)

/-- A fixed token other than the end can be put anywhere. -/
theorem portable_lexeme {lexeme : Lexeme} (inside : lexeme ≠ .endOfSource) :
    (one (· = lexeme)).Portable closing := portable_one fun same => inside same.symm

/-- Two portable spellings in a row are portable. -/
theorem Portable.andThen (portable : first.Portable closing) (portableNext : second.Portable closing) :
    (first.andThen second).Portable closing := by
  refine ⟨portable.bounded.andThen portableNext.bounded, fun ⟨_, spelled, spelledNext⟩ =>
    (portableNext.sameLast spelledNext).trans (portable.sameLast spelled), ?_⟩
  rintro stop stop' before before' after ⟨middle, spelled, spelledNext⟩ mirrors fits closes
  have shorter := portableNext.bounded.size_le spelledNext
  obtain ⟨middle', moved, mirrorsMiddle⟩ := portable.moves spelled mirrors (by omega)
    fun isClosing => (closes isClosing).imp_left fun inside => Nat.lt_of_lt_of_le inside shorter
  obtain ⟨after', movedNext, mirrorsAfter⟩ := portableNext.moves spelledNext mirrorsMiddle fits closes
  exact ⟨after', ⟨middle', moved, movedNext⟩, mirrorsAfter⟩

/-- In front of something that takes a token, nothing has to be closed. -/
theorem Portable.andThen_advances (portable : first.Portable True)
    (portableNext : second.Portable closing) (advances : second.Advances) :
    (first.andThen second).Portable closing := by
  refine ⟨portable.bounded.andThen portableNext.bounded, fun ⟨_, spelled, spelledNext⟩ =>
    (portableNext.sameLast spelledNext).trans (portable.sameLast spelled), ?_⟩
  rintro stop stop' before before' after ⟨middle, spelled, spelledNext⟩ mirrors fits closes
  have shorter := (advances middle after spelledNext).2
  obtain ⟨middle', moved, mirrorsMiddle⟩ := portable.moves spelled mirrors (by omega)
    fun _ => .inl (by omega)
  obtain ⟨after', movedNext, mirrorsAfter⟩ := portableNext.moves spelledNext mirrorsMiddle fits closes
  exact ⟨after', ⟨middle', moved, movedNext⟩, mirrorsAfter⟩

/-- A choice of two portable spellings is portable. -/
theorem Portable.orElse (portable : first.Portable closing) (portableOther : second.Portable closing) :
    (first.orElse second).Portable closing := by
  refine ⟨portable.bounded.orElse portableOther.bounded,
    fun spelled => spelled.elim portable.sameLast portableOther.sameLast, ?_⟩
  rintro stop stop' before before' after (spelled | spelled) mirrors fits closes
  · obtain ⟨after', moved, mirrorsAfter⟩ := portable.moves spelled mirrors fits closes
    exact ⟨after', .inl moved, mirrorsAfter⟩
  · obtain ⟨after', moved, mirrorsAfter⟩ := portableOther.moves spelled mirrors fits closes
    exact ⟨after', .inr moved, mirrorsAfter⟩

/-- Portable items with commas between them are portable. -/
theorem portable_separated {items : List Spelling} (portable : ∀ item ∈ items, item.Portable closing) :
    (separated items).Portable closing := by
  fun_induction separated items with
  | case1 => exact portable_nothing
  | case2 last => exact portable last List.mem_cons_self
  | case3 first rest other step =>
      rw [List.forall_mem_cons] at portable
      exact portable.1.andThen ((portable_mark .comma).andThen (step portable.2))

/-- A list of portable items is portable. -/
theorem portable_listed {items : List Spelling} (portable : ∀ item ∈ items, item.Portable closing) :
    (listed items).Portable closing := by
  fun_induction listed items with
  | case1 => exact portable_nothing
  | case2 last =>
      exact (portable last List.mem_cons_self).andThen (portable_nothing.orElse (portable_mark .comma))
  | case3 first rest other step =>
      rw [List.forall_mem_cons] at portable
      exact portable.1.andThen ((portable_mark .comma).andThen (step portable.2))

/-- Between two marks it is enough to be portable in front of a closing token. -/
theorem portable_enclosed {opening closingMark : Punctuator} {inner : Spelling}
    (portable : inner.Portable True) : (enclosed opening closingMark inner).Portable closing :=
  (portable_mark opening).andThen
    (portable.andThen_advances (portable_mark closingMark) (advances_mark closingMark))

/-- A spelling on one line is portable if it starts with a token. -/
theorem portable_onSameLine (portable : first.Portable closing) (advances : first.Advances) :
    (onSameLine first).Portable closing := by
  refine ⟨fun before after spelled => portable.bounded before after spelled.2,
    fun spelled => portable.sameLast spelled.2, ?_⟩
  rintro stop stop' before before' after ⟨sameLine, spelled⟩ mirrors fits closes
  have shorter := (advances before after spelled).2
  obtain ⟨after', moved, mirrorsAfter⟩ := portable.moves spelled mirrors fits closes
  have alike := (mirrors.of_size_lt (by omega)).1
  exact ⟨after', ⟨alike.2 ▸ sameLine, moved⟩, mirrorsAfter⟩

/-- The end of a statement is portable in front of a closing token. -/
theorem portable_ending (statement : Statement) : statement.ending.Portable True := by
  refine ⟨bounded_ending statement, ?_, ?_⟩
  · intro before after ended
    unfold Statement.ending at ended
    split at ended
    · rcases ended with ⟨_, rfl⟩ | ⟨rfl, _⟩ <;> rfl
    · exact congrArg _ ended
  intro stop stop' before before' after ended mirrors fits closes
  unfold Statement.ending at ended ⊢
  by_cases needs : statement.needsSemicolon = true
  · rw [if_pos needs] at ended ⊢
    rcases ended with isMark | ⟨rfl, notMark, free, notContinued⟩
    · obtain ⟨after', moved, mirrorsAfter⟩ := (portable_mark .semicolon).moves isMark mirrors fits closes
      exact ⟨after', .inl moved, mirrorsAfter⟩
    · refine ⟨before', .inr ⟨rfl, ?_⟩, mirrors⟩
      by_cases inside : stop.size < after.size
      · obtain ⟨sameLexeme, sameBreak⟩ := (mirrors.of_size_lt inside).1
        rw [← sameLexeme, ← sameBreak]
        exact ⟨notMark, free, notContinued⟩
      · obtain rfl := mirrors.of_size_eq (by omega)
        have isClosed := (closes trivial).resolve_left inside
        refine ⟨?_, .inr isClosed, Statement.not_continuedBy_of_closes isClosed⟩
        rcases isClosed with same | same <;> simp [same]
  · rw [if_neg needs] at ended ⊢
    exact portable_nothing.moves ended mirrors fits closes

/-- An optional name is portable. -/
theorem portable_name (name : Option String) :
    ((name.map identifier).getD nothing).Portable closing := by
  cases name with
  | none => exact portable_nothing
  | some name => exact portable_identifier name

/-- Parameters are portable. -/
theorem portable_parameters (names : List String) : (enclosed .openParenthesis .closeParenthesis
    (listed (names.map identifier))).Portable closing := by
  refine portable_enclosed (portable_listed fun spelling inside => ?_)
  obtain ⟨name, _, rfl⟩ := List.mem_map.mp inside
  exact portable_identifier name

/-- A key is portable. -/
theorem portable_key (key : PropertyKey) : (one key.IsWrittenAs).Portable closing :=
  portable_one (by cases key <;> simp [PropertyKey.IsWrittenAs, Lexeme.IsWord])

/-- A unary operator is portable. -/
theorem portable_unaryOperator (operator : UnaryOperator) :
    (one (· = operator.lexeme)).Portable closing :=
  portable_lexeme (by cases operator <;> simp [UnaryOperator.lexeme])

/-- A binary operator is portable. -/
theorem portable_binaryOperator (operator : BinaryOperator) :
    (one (· = operator.lexeme)).Portable closing :=
  portable_lexeme (by simp [BinaryOperator.lexeme])

mutual

/-- The edge of a statement is portable in front of a closing token. -/
theorem portable_edge (statement : Statement) : statement.edge.Portable True := by
  cases statement with
  | conditional condition consequent alternate span =>
      cases alternate with
      | none => exact portable_branchEdge consequent
      | some alternate => exact portable_branchEdge alternate
  | _ => exact portable_nothing

/-- The edge of a branch is portable in front of a closing token. -/
theorem portable_branchEdge (branch : Branch) : branch.edge.Portable True := by
  cases branch with
  | braced block => exact portable_nothing
  | single statement => exact (portable_edge statement).andThen (portable_ending statement)

end

mutual

/-- Every expression is portable. -/
theorem portable_ofExpression (expression : Expression) :
    (ofExpression expression).Portable False := by
  cases expression with
  | number digits span => exact portable_lexeme (by simp)
  | string content quote span => exact portable_lexeme (by simp)
  | boolean value span => cases value <;> exact portable_keyword _
  | null span => exact portable_keyword _
  | undefined span => exact (portable_keyword _).andThen (portable_lexeme (by simp))
  | array items span => exact portable_enclosed (portable_listed (portable_ofExpressions items))
  | object members span => exact portable_enclosed (portable_listed (portable_ofMembers members))
  | function definition => exact portable_ofFunction definition
  | group inner span => exact portable_enclosed (portable_ofExpression inner).weaken
  | reference name span => exact portable_identifier name
  | property parent name span =>
      have word : (one (·.IsWord name)).Portable False := portable_one (by simp [Lexeme.IsWord])
      exact (portable_ofExpression parent).andThen ((portable_mark .dot).andThen word)
  | index parent key span =>
      exact (portable_ofExpression parent).andThen (portable_enclosed (portable_ofExpression key).weaken)
  | call callee arguments span =>
      exact (portable_ofExpression callee).andThen
        (portable_enclosed (portable_listed (portable_ofExpressions arguments)))
  | unary operator operand span =>
      exact (portable_unaryOperator operator).andThen (portable_ofExpression operand)
  | binary left operator right span =>
      exact (portable_ofExpression left).andThen
        ((portable_binaryOperator operator).andThen (portable_ofExpression right))
  | assign target value span =>
      exact (portable_ofExpression target).andThen
        ((portable_mark .assign).andThen (portable_ofExpression value))

/-- The items of a list are portable. -/
theorem portable_ofExpressions (items : List Expression) :
    ∀ spelling ∈ ofExpressions items, spelling.Portable True := by
  cases items with
  | nil => simp [ofExpressions]
  | cons first rest =>
      rw [ofExpressions, List.forall_mem_cons]
      exact ⟨(portable_ofExpression first).weaken, portable_ofExpressions rest⟩

/-- The members of an object are portable. -/
theorem portable_ofMembers (members : List Member) :
    ∀ spelling ∈ ofMembers members, spelling.Portable True := by
  cases members with
  | nil => simp [ofMembers]
  | cons first rest =>
      cases first with
      | mk key value span =>
          rw [ofMembers, List.forall_mem_cons]
          exact ⟨(portable_key key).andThen
            ((portable_mark .colon).andThen (portable_ofExpression value).weaken),
            portable_ofMembers rest⟩

/-- Every function is portable. -/
theorem portable_ofFunction (definition : FunctionDef) :
    (ofFunction definition).Portable False := by
  cases definition with
  | mk name parameters body span =>
      exact (portable_keyword _).andThen ((portable_name name).andThen
        ((portable_parameters parameters).andThen (portable_ofBlock body)))

/-- Every block is portable. -/
theorem portable_ofBlock (block : Block) : (ofBlock block).Portable False := by
  cases block with
  | mk items span => exact portable_enclosed (portable_ofStatements items)

/-- The body of every statement is portable. -/
theorem portable_ofBody (statement : Statement) : (ofBody statement).Portable False := by
  cases statement with
  | expression value span => exact portable_ofExpression value
  | declaration word items span =>
      exact (portable_keyword _).andThen (portable_separated (portable_ofDeclarators items))
  | function definition => exact portable_ofFunction definition
  | conditional condition consequent alternate span =>
      have parentheses : (enclosed .openParenthesis .closeParenthesis
          (ofExpression condition)).Portable False :=
        portable_enclosed (portable_ofExpression condition).weaken
      cases alternate with
      | none =>
          exact (portable_keyword _).andThen (parentheses.andThen (portable_ofBranchBody consequent))
      | some alternate =>
          have last := (portable_keyword .elseKw).andThen (portable_ofBranchBody alternate)
          have consequentPortable : (ofBranch consequent).Portable True := by
            rw [ofBranch_eq_andThen]
            exact (portable_ofBranchBody consequent).weaken.andThen (portable_branchEdge consequent)
          have advances : (inOrder [keyword .elseKw, ofBranchBody alternate]).Advances :=
            advances_inOrder (advances_keyword _)
              (by simpa using (portable_ofBranchBody alternate).bounded)
          exact (portable_keyword _).andThen
            (parentheses.andThen (consequentPortable.andThen_advances last advances))
  | returning value span =>
      cases value with
      | none => exact portable_keyword _
      | some value =>
          exact (portable_keyword _).andThen
            (portable_onSameLine (portable_ofExpression value) (advances_ofExpression value))
  | block inner => exact portable_ofBlock inner
  | empty span => exact portable_mark _

/-- Statements in a row are portable in front of a closing token. -/
theorem portable_ofStatements (items : List Statement) : (ofStatements items).Portable True := by
  cases items with
  | nil => exact portable_nothing
  | cons first rest =>
      have portableFirst : (ofStatement first).Portable True := by
        rw [ofStatement_eq_andThen]
        exact (portable_ofBody first).weaken.andThen (portable_edge first)
      exact portableFirst.andThen ((portable_ending first).andThen (portable_ofStatements rest))

/-- Declared names are portable. -/
theorem portable_ofDeclarators (items : List Declarator) :
    ∀ spelling ∈ ofDeclarators items, spelling.Portable False := by
  cases items with
  | nil => simp [ofDeclarators]
  | cons first rest =>
      cases first with
      | mk name value span =>
          cases value with
          | none =>
              rw [ofDeclarators, List.forall_mem_cons]
              exact ⟨portable_identifier name, portable_ofDeclarators rest⟩
          | some value =>
              rw [ofDeclarators, List.forall_mem_cons]
              exact ⟨(portable_identifier name).andThen
                ((portable_mark .assign).andThen (portable_ofExpression value)),
                portable_ofDeclarators rest⟩

/-- The body of every branch is portable. -/
theorem portable_ofBranchBody (branch : Branch) : (ofBranchBody branch).Portable False := by
  cases branch with
  | braced block => exact portable_ofBlock block
  | single statement => exact portable_ofBody statement

end

/-- A statement with its edge is portable in front of a closing token. -/
theorem portable_ofStatement (statement : Statement) : (ofStatement statement).Portable True := by
  rw [ofStatement_eq_andThen]
  exact (portable_ofBody statement).weaken.andThen (portable_edge statement)

/-- A branch with its edge is portable in front of a closing token. -/
theorem portable_ofBranch (branch : Branch) : (ofBranch branch).Portable True := by
  rw [ofBranch_eq_andThen]
  exact (portable_ofBranchBody branch).weaken.andThen (portable_branchEdge branch)

/-- Where the spelling starts does not depend on a line break. -/
def StartsAnywhere (spelling : Spelling) : Prop :=
  ∀ before before' after, spelling before after → before'.front.lexeme = before.front.lexeme →
    before'.advance = before.advance → spelling before' after

/-- A single token may start on any line. -/
theorem startsAnywhere_one (wanted : Lexeme → Prop) : (one wanted).StartsAnywhere := by
  rintro before before' _ ⟨isWanted, rfl⟩ sameLexeme sameRest
  exact ⟨sameLexeme ▸ isWanted, sameRest.symm⟩

/-- A sequence starts where its first part does. -/
theorem StartsAnywhere.andThen (anywhere : first.StartsAnywhere) :
    (first.andThen second).StartsAnywhere := by
  rintro before before' after ⟨middle, spelled, spelledNext⟩ sameLexeme sameRest
  exact ⟨middle, anywhere before before' middle spelled sameLexeme sameRest, spelledNext⟩

/-- What stands between two marks starts with the first mark. -/
theorem startsAnywhere_enclosed {opening closingMark : Punctuator} {inner : Spelling} :
    (enclosed opening closingMark inner).StartsAnywhere := (startsAnywhere_one _).andThen

/-- A function may start on any line. -/
theorem startsAnywhere_ofFunction (definition : FunctionDef) :
    (ofFunction definition).StartsAnywhere := by
  cases definition
  exact (startsAnywhere_one _).andThen

/-- A block may start on any line. -/
theorem startsAnywhere_ofBlock (block : Block) : (ofBlock block).StartsAnywhere := by
  cases block
  exact startsAnywhere_enclosed

/-- An expression may start on any line. -/
theorem startsAnywhere_ofExpression (expression : Expression) :
    (ofExpression expression).StartsAnywhere := by
  cases expression with
  | boolean value span => cases value <;> exact startsAnywhere_one (· = .keyword _)
  | null span => exact startsAnywhere_one (· = .keyword _)
  | undefined span => exact (startsAnywhere_one _).andThen
  | array items span => exact startsAnywhere_enclosed
  | object members span => exact startsAnywhere_enclosed
  | function definition => exact startsAnywhere_ofFunction definition
  | group inner span => exact startsAnywhere_enclosed
  | reference name span => exact startsAnywhere_one (· = .identifier name)
  | property parent name span => exact (startsAnywhere_ofExpression parent).andThen
  | index parent key span => exact (startsAnywhere_ofExpression parent).andThen
  | call callee arguments span => exact (startsAnywhere_ofExpression callee).andThen
  | unary operator operand span => exact (startsAnywhere_one _).andThen
  | binary left operator right span => exact (startsAnywhere_ofExpression left).andThen
  | assign target value span => exact (startsAnywhere_ofExpression target).andThen
  | _ => exact startsAnywhere_one _

/-- The body of a statement may start on any line. -/
theorem startsAnywhere_ofBody (statement : Statement) : (ofBody statement).StartsAnywhere := by
  cases statement with
  | expression value span => exact startsAnywhere_ofExpression value
  | declaration word items span => exact (startsAnywhere_one _).andThen
  | function definition => exact startsAnywhere_ofFunction definition
  | conditional condition consequent alternate span =>
      cases alternate <;> exact (startsAnywhere_one _).andThen
  | returning value span =>
      cases value with
      | none => exact startsAnywhere_one (· = .keyword .returnKw)
      | some value => exact (startsAnywhere_one _).andThen
  | block inner => exact startsAnywhere_ofBlock inner
  | empty span => exact startsAnywhere_one (· = .punctuator .semicolon)

end Spelling

end ScriptStrip
