import ScriptStrip.Proofs.Spelling
import ScriptStrip.Proofs.WellShaped
/-
This file shows what holds of every spelling: it takes at least one token, its first token gives
away the kind of the tree, and the places of the nodes do not matter.
-/

namespace ScriptStrip

namespace Spelling

/-- Nothing behind a spelling may be left out. -/
theorem andThen_nothing (spelling : Spelling) : spelling.andThen nothing = spelling := by
  funext before after
  simp [andThen]

/-- Nothing in front of a spelling may be left out. -/
theorem nothing_andThen (spelling : Spelling) : nothing.andThen spelling = spelling := by
  funext before after
  simp [andThen]

/-- Three spellings in a row need no brackets. -/
theorem andThen_assoc (first second third : Spelling) :
    (first.andThen second).andThen third = first.andThen (second.andThen third) := by
  funext before after
  apply propext
  constructor
  · rintro ⟨next, ⟨middle, spelledFirst, spelledSecond⟩, spelledThird⟩
    exact ⟨middle, spelledFirst, next, spelledSecond, spelledThird⟩
  · rintro ⟨middle, spelledFirst, next, spelledSecond, spelledThird⟩
    exact ⟨next, ⟨middle, spelledFirst, spelledSecond⟩, spelledThird⟩

/-- Separated items are the first one, and a comma in front of the others. -/
theorem separated_cons_iff {first : Spelling} {rest : List Spelling} {before after : TokenStream} :
    separated (first :: rest) before after ↔ ∃ middle, first before middle ∧
      (rest = [] ∧ after = middle ∨ rest ≠ [] ∧ middle.front.lexeme = .punctuator .comma ∧
        separated rest middle.advance after) := by
  cases rest with
  | nil => simp [separated]
  | cons second rest => simp [separated, and_assoc]

/-- A list is its first item, and perhaps a comma with or without others behind it. -/
theorem listed_cons_iff {first : Spelling} {rest : List Spelling} {before after : TokenStream} :
    listed (first :: rest) before after ↔ ∃ middle, first before middle ∧
      (rest = [] ∧ after = middle ∨
        middle.front.lexeme = .punctuator .comma ∧ listed rest middle.advance after) := by
  cases rest with
  | nil => simp [listed, andThen, orElse]
  | cons second rest => simp [listed, and_assoc]

/-- Each expression of a list has its own spelling. -/
theorem ofExpressions_eq_map (items : List Expression) :
    ofExpressions items = items.map ofExpression := by
  induction items with
  | nil => rfl
  | cons first rest inductionHypothesis =>
      rw [ofExpressions, inductionHypothesis, List.map_cons]

/-- A member is spelled as its key, a colon and its value. -/
theorem ofMembers_eq_map (members : List Member) :
    ofMembers members = members.map fun member =>
      inOrder [one member.key.IsWrittenAs, mark .colon, ofExpression member.value] := by
  induction members with
  | nil => rfl
  | cons first rest inductionHypothesis =>
      cases first
      rw [ofMembers, inductionHypothesis, List.map_cons]

/-- A variable with its value, if it is given one. -/
def ofDeclarator : Declarator → Spelling
  | ⟨name, none, _⟩ => identifier name
  | ⟨name, some value, _⟩ => inOrder [identifier name, mark .assign, ofExpression value]

/-- Each declared name has its own spelling. -/
theorem ofDeclarators_cons (first : Declarator) (rest : List Declarator) :
    ofDeclarators (first :: rest) = ofDeclarator first :: ofDeclarators rest := by
  rcases first with ⟨name, _ | value, span⟩ <;> rfl

/-- Only an empty declaration has no spelling. -/
theorem ofDeclarators_eq_nil_iff {items : List Declarator} :
    ofDeclarators items = [] ↔ items = [] := by
  cases items with
  | nil => simp [ofDeclarators]
  | cons first rest => simp [ofDeclarators_cons]

/-- What is left of the tokens is an end of them. -/
def Bounded (spelling : Spelling) : Prop :=
  ∀ before after, spelling before after → after.ahead <:+ before.ahead

/-- What is left of the tokens is an end of them and not all of them. -/
def Advances (spelling : Spelling) : Prop :=
  ∀ before after, spelling before after → after.ahead <:+ before.ahead ∧ after.size < before.size

/-- A spelling that takes a token leaves no more than there was. -/
theorem Advances.bounded {spelling : Spelling} (advances : spelling.Advances) : spelling.Bounded :=
  fun before after spelled => (advances before after spelled).1

/-- A bounded spelling leaves no more than there was. -/
theorem Bounded.size_le {spelling : Spelling} {before after : TokenStream}
    (bounded : spelling.Bounded) (spelled : spelling before after) : after.size ≤ before.size :=
  (bounded before after spelled).length_le

/-- Nothing leaves the stream as it is. -/
theorem bounded_nothing : nothing.Bounded := by
  rintro before after rfl
  exact List.suffix_rfl

/-- A step in front of the end leaves fewer tokens. -/
theorem size_advance_lt {stream : TokenStream} (inside : stream.front.lexeme ≠ .endOfSource) :
    stream.advance.size < stream.size := by
  have nonempty := mt stream.front_lexeme_eq_end_iff.mpr inside
  have positive := List.length_pos_iff.mpr nonempty
  rw [TokenStream.size_advance]
  unfold TokenStream.size
  omega

/-- A step over a token other than the end leaves fewer tokens. -/
theorem size_advance_lt_of_front {stream : TokenStream} {lexeme : Lexeme}
    (isFront : stream.front.lexeme = lexeme) (inside : lexeme ≠ .endOfSource) :
    stream.advance.size < stream.size := size_advance_lt (isFront ▸ inside)

/-- A token other than the end takes a step. -/
theorem advances_one {wanted : Lexeme → Prop} (inside : ¬ wanted .endOfSource) :
    (one wanted).Advances := by
  rintro before after ⟨found, rfl⟩
  refine ⟨List.tail_suffix _, size_advance_lt ?_⟩
  intro atEnd
  rw [atEnd] at found
  exact inside found

/-- A mark takes a step. -/
theorem advances_mark (wanted : Punctuator) : (mark wanted).Advances := advances_one (by simp)

/-- A keyword takes a step. -/
theorem advances_keyword (wanted : Keyword) : (keyword wanted).Advances := advances_one (by simp)

/-- A name takes a step. -/
theorem advances_identifier (name : String) : (identifier name).Advances := advances_one (by simp)

/-- A fixed token other than the end takes a step. -/
theorem advances_lexeme {lexeme : Lexeme} (inside : lexeme ≠ .endOfSource) :
    (one (· = lexeme)).Advances := advances_one fun same => inside same.symm

/-- Two bounded spellings in a row are bounded. -/
theorem Bounded.andThen {first second : Spelling} (bounded : first.Bounded)
    (boundedNext : second.Bounded) : (first.andThen second).Bounded := by
  rintro before after ⟨middle, spelled, spelledNext⟩
  exact (boundedNext middle after spelledNext).trans (bounded before middle spelled)

/-- A choice of two bounded spellings is bounded. -/
theorem Bounded.orElse {first second : Spelling} (bounded : first.Bounded)
    (boundedOther : second.Bounded) : (first.orElse second).Bounded := by
  rintro before after (spelled | spelled)
  · exact bounded before after spelled
  · exact boundedOther before after spelled

/-- A sequence of bounded spellings is bounded. -/
theorem bounded_inOrder {spellings : List Spelling}
    (bounded : ∀ spelling ∈ spellings, spelling.Bounded) : (inOrder spellings).Bounded := by
  fun_induction inOrder spellings with
  | case1 => exact bounded_nothing
  | case2 last => exact bounded last List.mem_cons_self
  | case3 first rest other inductionHypothesis =>
      refine (bounded first List.mem_cons_self).andThen (inductionHypothesis ?_)
      exact fun spelling inside => bounded spelling (List.mem_cons_of_mem _ inside)

/-- The first of the parts is enough to take a token. -/
theorem advances_inOrder {first : Spelling} {rest : List Spelling} (advances : first.Advances)
    (bounded : ∀ spelling ∈ rest, spelling.Bounded) : (inOrder (first :: rest)).Advances := by
  cases rest with
  | nil => exact advances
  | cons second rest =>
      rintro before after ⟨middle, spelled, spelledRest⟩
      have shorter := advances before middle spelled
      have boundedRest := bounded_inOrder bounded
      exact ⟨(boundedRest middle after spelledRest).trans shorter.1,
        Nat.lt_of_le_of_lt (boundedRest.size_le spelledRest) shorter.2⟩

/-- Bounded items with commas between them are bounded. -/
theorem bounded_separated {items : List Spelling} (bounded : ∀ item ∈ items, item.Bounded) :
    (separated items).Bounded := by
  fun_induction separated items with
  | case1 => exact bounded_nothing
  | case2 last => exact bounded last List.mem_cons_self
  | case3 first rest other inductionHypothesis =>
      have boundedRest := inductionHypothesis
        fun item inside => bounded item (List.mem_cons_of_mem _ inside)
      exact bounded_inOrder (by
        simp [bounded first List.mem_cons_self, (advances_mark .comma).bounded, boundedRest])

/-- A list of bounded items is bounded. -/
theorem bounded_listed {items : List Spelling} (bounded : ∀ item ∈ items, item.Bounded) :
    (listed items).Bounded := by
  fun_induction listed items with
  | case1 => exact bounded_nothing
  | case2 last =>
      exact (bounded last List.mem_cons_self).andThen
        (bounded_nothing.orElse (advances_mark .comma).bounded)
  | case3 first rest other inductionHypothesis =>
      have boundedRest := inductionHypothesis
        fun item inside => bounded item (List.mem_cons_of_mem _ inside)
      exact bounded_inOrder (by
        simp [bounded first List.mem_cons_self, (advances_mark .comma).bounded, boundedRest])

/-- What stands between two marks takes a step, with the first mark. -/
theorem advances_enclosed {opening closing : Punctuator} {inner : Spelling}
    (bounded : inner.Bounded) : (enclosed opening closing inner).Advances :=
  advances_inOrder (advances_mark opening) (by simp [bounded, (advances_mark closing).bounded])

/-- A unary operator takes a step. -/
theorem advances_unaryOperator (operator : UnaryOperator) :
    (one (· = operator.lexeme)).Advances :=
  advances_lexeme (by cases operator <;> simp [UnaryOperator.lexeme])

/-- A binary operator takes a step. -/
theorem advances_binaryOperator (operator : BinaryOperator) :
    (one (· = operator.lexeme)).Advances :=
  advances_lexeme (by simp [BinaryOperator.lexeme])

/-- A key takes a step. -/
theorem advances_key (key : PropertyKey) : (one key.IsWrittenAs).Advances :=
  advances_one (by cases key <;> simp [PropertyKey.IsWrittenAs, Lexeme.IsWord])

/-- A member takes a step. -/
theorem advances_member (key : PropertyKey) {value : Spelling} (advances : value.Advances) :
    (inOrder [one key.IsWrittenAs, mark .colon, value]).Advances := by
  refine advances_inOrder (advances_key key) ?_
  simp [(advances_mark .colon).bounded, advances.bounded]

/-- A declared name with its initial value takes a step. -/
theorem advances_initialized (name : String) {value : Spelling} (advances : value.Advances) :
    (inOrder [identifier name, mark .assign, value]).Advances :=
  advances_inOrder (advances_identifier name)
    (by simp [(advances_mark .assign).bounded, advances.bounded])

/-- An optional name is bounded. -/
theorem bounded_name (name : Option String) : ((name.map identifier).getD nothing).Bounded := by
  cases name with
  | none => exact bounded_nothing
  | some name => exact (advances_identifier name).bounded

/-- Parameters are bounded. -/
theorem bounded_parameters (names : List String) :
    ∀ spelling ∈ names.map identifier, spelling.Bounded := by
  intro spelling inside
  obtain ⟨name, _, rfl⟩ := List.mem_map.mp inside
  exact (advances_identifier name).bounded

/-- Parameters in parentheses take a step. -/
theorem advances_parameters (names : List String) : (enclosed .openParenthesis .closeParenthesis
    (listed (names.map identifier))).Advances :=
  advances_enclosed (bounded_listed (bounded_parameters names))

/-- The end of a statement is bounded, as it may be left out. -/
theorem bounded_ending (statement : Statement) : statement.ending.Bounded := by
  unfold Statement.ending
  split
  · refine (advances_mark .semicolon).bounded.orElse ?_
    rintro before after ⟨rfl, _⟩
    exact List.suffix_rfl
  · exact bounded_nothing

mutual

/-- Every expression takes a step. -/
theorem advances_ofExpression (expression : Expression) : (ofExpression expression).Advances := by
  cases expression with
  | number digits span => exact advances_lexeme (by simp)
  | string content quote span => exact advances_lexeme (by simp)
  | boolean value span => cases value <;> exact advances_keyword _
  | null span => exact advances_keyword _
  | undefined span =>
      refine advances_inOrder (advances_keyword _) ?_
      have zero : (one (· = .number "0")).Advances := advances_lexeme (by simp)
      simp [zero.bounded]
  | array items span =>
      exact advances_enclosed (bounded_listed (bounded_ofExpressions items))
  | object members span => exact advances_enclosed (bounded_listed (bounded_ofMembers members))
  | function definition => exact advances_ofFunction definition
  | group inner span => exact advances_enclosed (advances_ofExpression inner).bounded
  | reference name span => exact advances_identifier name
  | property parent name span =>
      refine advances_inOrder (advances_ofExpression parent) ?_
      have word : (one (·.IsWord name)).Advances := advances_one (by simp [Lexeme.IsWord])
      simp [(advances_mark .dot).bounded, word.bounded]
  | index parent key span =>
      refine advances_inOrder (advances_ofExpression parent) ?_
      have brackets : (enclosed .openBracket .closeBracket (ofExpression key)).Advances :=
        advances_enclosed (advances_ofExpression key).bounded
      simp [brackets.bounded]
  | call callee arguments span =>
      refine advances_inOrder (advances_ofExpression callee) ?_
      have parentheses : (enclosed .openParenthesis .closeParenthesis
          (listed (ofExpressions arguments))).Advances :=
        advances_enclosed (bounded_listed (bounded_ofExpressions arguments))
      simp [parentheses.bounded]
  | unary operator operand span =>
      refine advances_inOrder (advances_unaryOperator operator) ?_
      simp [(advances_ofExpression operand).bounded]
  | binary left operator right span =>
      refine advances_inOrder (advances_ofExpression left) ?_
      simp [(advances_binaryOperator operator).bounded, (advances_ofExpression right).bounded]
  | assign target value span =>
      refine advances_inOrder (advances_ofExpression target) ?_
      simp [(advances_mark .assign).bounded, (advances_ofExpression value).bounded]

/-- The items of a list are bounded. -/
theorem bounded_ofExpressions (items : List Expression) :
    ∀ spelling ∈ ofExpressions items, spelling.Bounded := by
  cases items with
  | nil => simp [ofExpressions]
  | cons first rest =>
      rw [ofExpressions, List.forall_mem_cons]
      exact ⟨(advances_ofExpression first).bounded, bounded_ofExpressions rest⟩

/-- The members of an object are bounded. -/
theorem bounded_ofMembers (members : List Member) :
    ∀ spelling ∈ ofMembers members, spelling.Bounded := by
  cases members with
  | nil => simp [ofMembers]
  | cons first rest =>
      cases first with
      | mk key value span =>
          rw [ofMembers, List.forall_mem_cons]
          exact ⟨(advances_member key (advances_ofExpression value)).bounded,
            bounded_ofMembers rest⟩

/-- Every function takes a step. -/
theorem advances_ofFunction (definition : FunctionDef) : (ofFunction definition).Advances := by
  cases definition with
  | mk name parameters body span =>
      refine advances_inOrder (advances_keyword _) ?_
      simp [bounded_name name, (advances_parameters parameters).bounded,
        (advances_ofBlock body).bounded]

/-- Every block takes a step. -/
theorem advances_ofBlock (block : Block) : (ofBlock block).Advances := by
  cases block with
  | mk items span => exact advances_enclosed (bounded_ofStatements items)

/-- Every statement takes a step. -/
theorem advances_ofStatement (statement : Statement) : (ofStatement statement).Advances := by
  cases statement with
  | expression value span => exact advances_ofExpression value
  | declaration word items span =>
      refine advances_inOrder (advances_keyword _) ?_
      simp [bounded_separated (bounded_ofDeclarators items)]
  | function definition => exact advances_ofFunction definition
  | conditional condition consequent alternate span =>
      refine advances_inOrder (advances_keyword _) ?_
      have parentheses : (enclosed .openParenthesis .closeParenthesis
          (ofExpression condition)).Advances :=
        advances_enclosed (advances_ofExpression condition).bounded
      simp [parentheses.bounded, (advances_ofBranch consequent).bounded,
        bounded_ofAlternate alternate]
  | returning value span =>
      cases value with
      | none => exact advances_keyword _
      | some value =>
          refine advances_inOrder (advances_keyword _) ?_
          have sameLine : (onSameLine (ofExpression value)).Bounded :=
            fun before after spelled => (advances_ofExpression value).bounded _ _ spelled.2
          simp [sameLine]
  | block inner => exact advances_ofBlock inner
  | empty span => exact advances_mark _

/-- Statements in a row are bounded. -/
theorem bounded_ofStatements (items : List Statement) : (ofStatements items).Bounded := by
  cases items with
  | nil => exact bounded_nothing
  | cons first rest =>
      refine bounded_inOrder ?_
      simp [(advances_ofStatement first).bounded, bounded_ending first, bounded_ofStatements rest]

/-- Declared names are bounded. -/
theorem bounded_ofDeclarators (items : List Declarator) :
    ∀ spelling ∈ ofDeclarators items, spelling.Bounded := by
  cases items with
  | nil => simp [ofDeclarators]
  | cons first rest =>
      cases first with
      | mk name value span =>
          cases value with
          | none =>
              rw [ofDeclarators, List.forall_mem_cons]
              exact ⟨(advances_identifier name).bounded, bounded_ofDeclarators rest⟩
          | some value =>
              rw [ofDeclarators, List.forall_mem_cons]
              exact ⟨(advances_initialized name (advances_ofExpression value)).bounded,
                bounded_ofDeclarators rest⟩

/-- Every branch takes a step. -/
theorem advances_ofBranch (branch : Branch) : (ofBranch branch).Advances := by
  cases branch with
  | braced block => exact advances_ofBlock block
  | single statement =>
      exact advances_inOrder (advances_ofStatement statement) (by simp [bounded_ending statement])

/-- A second branch is bounded, as it may be missing. -/
theorem bounded_ofAlternate (branch : Option Branch) : (ofAlternate branch).Bounded := by
  cases branch with
  | none => exact bounded_nothing
  | some branch =>
      exact Advances.bounded (advances_inOrder (advances_keyword _)
        (by simp [(advances_ofBranch branch).bounded]))

end

/-- A declared name is bounded. -/
theorem bounded_ofDeclarator (item : Declarator) : (ofDeclarator item).Bounded := by
  rcases item with ⟨name, _ | value, span⟩
  · exact (advances_identifier name).bounded
  · exact (advances_initialized name (advances_ofExpression value)).bounded

/-- Arguments in parentheses take a step. -/
theorem advances_ofArguments (arguments : List Expression) :
    (enclosed .openParenthesis .closeParenthesis (listed (ofExpressions arguments))).Advances :=
  advances_enclosed (bounded_listed (bounded_ofExpressions arguments))

end Spelling

/-- An expression can start with the lexeme. -/
def Lexeme.startsExpression : Lexeme → Bool
  | .identifier _ | .number _ | .string .. => true
  | .keyword word =>
      match word with
      | .functionKw | .trueKw | .falseKw | .nullKw | .typeofKw | .voidKw => true
      | _ => false
  | .punctuator mark =>
      match mark with
      | .openBrace | .openParenthesis | .openBracket | .not | .plus | .minus => true
      | _ => false
  | .endOfSource => false

namespace Spelling

variable {before after : TokenStream}

/-- A sequence starts with its first part. -/
theorem front_inOrder {first : Spelling} {rest : List Spelling}
    (spelled : inOrder (first :: rest) before after) : ∃ middle, first before middle := by
  cases rest with
  | nil => exact ⟨after, spelled⟩
  | cons second rest =>
      obtain ⟨middle, spelledFirst, _⟩ := spelled
      exact ⟨middle, spelledFirst⟩

/-- A function starts with its keyword. -/
theorem front_ofFunction {definition : FunctionDef} (spelled : ofFunction definition before after) :
    before.front.lexeme = .keyword .functionKw := by
  obtain ⟨name, parameters, body, span⟩ := definition
  obtain ⟨middle, isWord, _⟩ := front_inOrder spelled
  exact isWord

/-- What stands between two marks starts with the first one. -/
theorem front_enclosed {opening closing : Punctuator} {inner : Spelling}
    (spelled : enclosed opening closing inner before after) :
    before.front.lexeme = .punctuator opening :=
  (enclosed_iff.mp spelled).1

/-- A block starts with its brace. -/
theorem front_ofBlock {block : Block} (spelled : ofBlock block before after) :
    before.front.lexeme = .punctuator .openBrace := by
  obtain ⟨items, span⟩ := block
  exact front_enclosed spelled

/-- The first token of an expression tells whether a statement could start with it. -/
theorem front_ofExpression (expression : Expression) {before after : TokenStream}
    (spelled : ofExpression expression before after) :
    before.front.lexeme.startsExpression = true ∧
      (expression.opensLikeStatement = true ↔ before.front.lexeme = .punctuator .openBrace ∨
        before.front.lexeme = .keyword .functionKw) := by
  cases expression with
  | number digits span => simp_all [ofExpression, Lexeme.startsExpression, Expression.opensLikeStatement]
  | string content quote span =>
      simp_all [ofExpression, Lexeme.startsExpression, Expression.opensLikeStatement]
  | boolean value span =>
      cases value <;>
        simp_all [ofExpression, Lexeme.startsExpression, Expression.opensLikeStatement]
  | null span => simp_all [ofExpression, Lexeme.startsExpression, Expression.opensLikeStatement]
  | undefined span =>
      obtain ⟨_, ⟨isWord, _⟩, _⟩ := spelled
      simp [isWord, Lexeme.startsExpression, Expression.opensLikeStatement]
  | array items span =>
      simp [front_enclosed spelled, Lexeme.startsExpression, Expression.opensLikeStatement]
  | object members span =>
      simp [front_enclosed spelled, Lexeme.startsExpression, Expression.opensLikeStatement]
  | function definition =>
      simp [front_ofFunction spelled, Lexeme.startsExpression, Expression.opensLikeStatement]
  | group inner span =>
      simp [front_enclosed spelled, Lexeme.startsExpression, Expression.opensLikeStatement]
  | reference name span =>
      simp_all [ofExpression, Lexeme.startsExpression, Expression.opensLikeStatement]
  | property parent name span =>
      obtain ⟨middle, ofParent⟩ := front_inOrder spelled
      exact front_ofExpression parent ofParent
  | index parent key span =>
      obtain ⟨middle, ofParent⟩ := front_inOrder spelled
      exact front_ofExpression parent ofParent
  | call callee arguments span =>
      obtain ⟨middle, ofCallee⟩ := front_inOrder spelled
      exact front_ofExpression callee ofCallee
  | unary operator operand span =>
      obtain ⟨middle, isOperator, _⟩ := front_inOrder spelled
      rw [isOperator]
      cases operator <;>
        simp [UnaryOperator.lexeme, Lexeme.startsExpression, Expression.opensLikeStatement]
  | binary left operator right span =>
      obtain ⟨middle, ofLeft⟩ := front_inOrder spelled
      exact front_ofExpression left ofLeft
  | assign target value span =>
      obtain ⟨middle, ofTarget⟩ := front_inOrder spelled
      exact front_ofExpression target ofTarget

/-- An access or a call does not start with an operator. -/
theorem front_ofExpression_of_member (expression : Expression) {before after : TokenStream}
    (spelled : ofExpression expression before after) (wellShaped : expression.WellShaped)
    (tight : .member ≤ expression.precedence) :
    UnaryOperator.ofLexeme? before.front.lexeme = none := by
  cases expression with
  | number digits span => simp_all [ofExpression, UnaryOperator.ofLexeme?]
  | string content quote span => simp_all [ofExpression, UnaryOperator.ofLexeme?]
  | boolean value span => cases value <;> simp_all [ofExpression, UnaryOperator.ofLexeme?]
  | null span => simp_all [ofExpression, UnaryOperator.ofLexeme?]
  | array items span => simp [front_enclosed spelled, UnaryOperator.ofLexeme?]
  | object members span => simp [front_enclosed spelled, UnaryOperator.ofLexeme?]
  | function definition => simp [front_ofFunction spelled, UnaryOperator.ofLexeme?]
  | group inner span => simp [front_enclosed spelled, UnaryOperator.ofLexeme?]
  | reference name span => simp_all [ofExpression, UnaryOperator.ofLexeme?]
  | property parent name span =>
      obtain ⟨middle, ofParent⟩ := front_inOrder spelled
      exact front_ofExpression_of_member parent ofParent wellShaped.2 wellShaped.1
  | index parent key span =>
      obtain ⟨middle, ofParent⟩ := front_inOrder spelled
      exact front_ofExpression_of_member parent ofParent wellShaped.2.1 wellShaped.1
  | call callee arguments span =>
      obtain ⟨middle, ofCallee⟩ := front_inOrder spelled
      exact front_ofExpression_of_member callee ofCallee wellShaped.2.1 wellShaped.1
  | undefined span => exact absurd tight (by decide : ¬ Precedence.member ≤ .unary)
  | unary operator operand span => exact absurd tight (by decide : ¬ Precedence.member ≤ .unary)
  | binary left operator right span =>
      exact absurd tight (Nat.not_le.mpr operator.precedence_lt_member)
  | assign target value span => exact absurd tight (by decide : ¬ Precedence.member ≤ .assignment)

/-- A key is written without regard to its place. -/
theorem isWrittenAs_placeless (key : PropertyKey) : key.placeless.IsWrittenAs = key.IsWrittenAs := by
  cases key <;> rfl

end Spelling

/-- Places do not change which statements need a semicolon. -/
theorem Statement.needsSemicolon_placeless (statement : Statement) :
    statement.placeless.needsSemicolon = statement.needsSemicolon := by
  cases statement <;> rfl

/-- Places do not change which tokens continue a declared name. -/
theorem Declarator.continuedBy_placeless (item : Declarator) (lexeme : Lexeme) :
    item.placeless.ContinuedBy lexeme ↔ item.ContinuedBy lexeme := by
  rcases item with ⟨name, _ | value, span⟩ <;> rfl

/-- Places do not change which tokens continue a statement. -/
theorem Statement.continuedBy_placeless (statement : Statement) (lexeme : Lexeme) :
    statement.placeless.ContinuedBy lexeme ↔ statement.ContinuedBy lexeme := by
  cases statement with
  | declaration word items span =>
      rw [Statement.placeless, Declarator.placelessAll_eq_map, Statement.ContinuedBy,
        Statement.ContinuedBy, List.getLast?_map]
      cases items.getLast? <;> simp [Declarator.continuedBy_placeless]
  | returning value span => cases value <;> rfl
  | _ => rfl

/-- Places do not change where a statement may end. -/
theorem Statement.ending_placeless (statement : Statement) :
    statement.placeless.ending = statement.ending := by
  unfold Statement.ending
  rw [Statement.needsSemicolon_placeless]
  simp only [Statement.continuedBy_placeless]

namespace Spelling

mutual

/-- An expression is spelled without regard to places. -/
theorem ofExpression_placeless (expression : Expression) :
    ofExpression expression.placeless = ofExpression expression := by
  cases expression with
  | boolean value span => cases value <;> rfl
  | array items span =>
      rw [Expression.placeless, ofExpression, ofExpression, ofExpressions_placeless items]
  | object members span =>
      rw [Expression.placeless, ofExpression, ofExpression, ofMembers_placeless members]
  | function definition =>
      rw [Expression.placeless, ofExpression, ofExpression, ofFunction_placeless definition]
  | group inner span =>
      rw [Expression.placeless, ofExpression, ofExpression, ofExpression_placeless inner]
  | property parent name span =>
      rw [Expression.placeless, ofExpression, ofExpression, ofExpression_placeless parent]
  | index parent key span =>
      rw [Expression.placeless, ofExpression, ofExpression, ofExpression_placeless parent,
        ofExpression_placeless key]
  | call callee arguments span =>
      rw [Expression.placeless, ofExpression, ofExpression, ofExpression_placeless callee,
        ofExpressions_placeless arguments]
  | unary operator operand span =>
      rw [Expression.placeless, ofExpression, ofExpression, ofExpression_placeless operand]
  | binary left operator right span =>
      rw [Expression.placeless, ofExpression, ofExpression, ofExpression_placeless left,
        ofExpression_placeless right]
  | assign target value span =>
      rw [Expression.placeless, ofExpression, ofExpression, ofExpression_placeless target,
        ofExpression_placeless value]
  | _ => rfl

/-- Items are spelled without regard to places. -/
theorem ofExpressions_placeless (items : List Expression) :
    ofExpressions (Expression.placelessAll items) = ofExpressions items := by
  cases items with
  | nil => rfl
  | cons first rest =>
      rw [Expression.placelessAll, ofExpressions, ofExpressions, ofExpression_placeless first,
        ofExpressions_placeless rest]

/-- Members are spelled without regard to places. -/
theorem ofMembers_placeless (members : List Member) :
    ofMembers (Member.placelessAll members) = ofMembers members := by
  cases members with
  | nil => rfl
  | cons first rest =>
      cases first with
      | mk key value span =>
          rw [Member.placelessAll, ofMembers, ofMembers, isWrittenAs_placeless,
            ofExpression_placeless value, ofMembers_placeless rest]

/-- A function is spelled without regard to places. -/
theorem ofFunction_placeless (definition : FunctionDef) :
    ofFunction definition.placeless = ofFunction definition := by
  cases definition with
  | mk name parameters body span =>
      rw [FunctionDef.placeless, ofFunction, ofFunction, ofBlock_placeless body]

/-- A block is spelled without regard to places. -/
theorem ofBlock_placeless (block : Block) : ofBlock block.placeless = ofBlock block := by
  cases block with
  | mk items span => rw [Block.placeless, ofBlock, ofBlock, ofStatements_placeless items]

/-- A statement is spelled without regard to places. -/
theorem ofStatement_placeless (statement : Statement) :
    ofStatement statement.placeless = ofStatement statement := by
  cases statement with
  | expression value span =>
      rw [Statement.placeless, ofStatement, ofStatement, ofExpression_placeless value]
  | declaration word items span =>
      rw [Statement.placeless, ofStatement, ofStatement, ofDeclarators_placeless items]
  | function definition =>
      rw [Statement.placeless, ofStatement, ofStatement, ofFunction_placeless definition]
  | conditional condition consequent alternate span =>
      rw [Statement.placeless, ofStatement, ofStatement, ofExpression_placeless condition,
        ofBranch_placeless consequent, ofAlternate_placeless alternate]
  | returning value span =>
      cases value with
      | none => rfl
      | some value =>
          rw [Statement.placeless, Expression.placelessOption, ofStatement, ofStatement,
            ofExpression_placeless value]
  | block inner => rw [Statement.placeless, ofStatement, ofStatement, ofBlock_placeless inner]
  | empty span => rfl

/-- Statements are spelled without regard to places. -/
theorem ofStatements_placeless (items : List Statement) :
    ofStatements (Statement.placelessAll items) = ofStatements items := by
  cases items with
  | nil => rfl
  | cons first rest =>
      rw [Statement.placelessAll, ofStatements, ofStatements, ofStatement_placeless first,
        Statement.ending_placeless, ofStatements_placeless rest]

/-- Declared names are spelled without regard to places. -/
theorem ofDeclarators_placeless (items : List Declarator) :
    ofDeclarators (Declarator.placelessAll items) = ofDeclarators items := by
  cases items with
  | nil => rfl
  | cons first rest =>
      cases first with
      | mk name value span =>
          cases value with
          | none =>
              rw [Declarator.placelessAll, Expression.placelessOption, ofDeclarators,
                ofDeclarators, ofDeclarators_placeless rest]
          | some value =>
              rw [Declarator.placelessAll, Expression.placelessOption, ofDeclarators,
                ofDeclarators, ofExpression_placeless value, ofDeclarators_placeless rest]

/-- A branch is spelled without regard to places. -/
theorem ofBranch_placeless (branch : Branch) : ofBranch branch.placeless = ofBranch branch := by
  cases branch with
  | braced block => rw [Branch.placeless, ofBranch, ofBranch, ofBlock_placeless block]
  | single statement =>
      rw [Branch.placeless, ofBranch, ofBranch, ofStatement_placeless statement,
        Statement.ending_placeless]

/-- A second branch is spelled without regard to places. -/
theorem ofAlternate_placeless (branch : Option Branch) :
    ofAlternate (Branch.placelessOption branch) = ofAlternate branch := by
  cases branch with
  | none => rfl
  | some branch =>
      rw [Branch.placelessOption, ofAlternate, ofAlternate, ofBranch_placeless branch]

end

end Spelling

/-- Scripts that differ in their places only are spelled by the same tokens. -/
theorem Script.SpelledBy.of_placeless {stream : TokenStream} {script other : Script}
    (spelled : script.SpelledBy stream) (equal : script.placeless = other.placeless) :
    other.SpelledBy stream := by
  have sameItems : Statement.placelessAll script.items = Statement.placelessAll other.items :=
    congrArg Script.items equal
  rw [Script.SpelledBy, ← Spelling.ofStatements_placeless, ← sameItems,
    Spelling.ofStatements_placeless]
  exact spelled

end ScriptStrip
