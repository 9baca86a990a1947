import ScriptStrip.Proofs.GrammarReading
/-
This file shows that the readers of the grammar return well-shaped trees only, and that a tree is
spelled by the tokens that it was read from.
-/

namespace ScriptStrip

/-- The tokens between the streams spell a well-shaped expression. -/
structure Expression.Between (before : TokenStream) (expression : Expression)
    (after : TokenStream) : Prop where
  wellShaped : expression.WellShaped
  spelled : Spelling.ofExpression expression before after

/-- The tokens between the streams spell the variables of a declaration, which ends there. -/
structure Declarator.AllBetween (before : TokenStream) (items : List Declarator)
    (after : TokenStream) : Prop where
  nonempty : items ≠ []
  wellShaped : Declarator.AllWellShaped items
  spelled : Spelling.separated (Spelling.ofDeclarators items) before after
  notComma : after.front.lexeme ≠ .punctuator .comma
  notContinued : ∀ last, items.getLast? = some last → ¬ last.ContinuedBy after.front.lexeme

namespace Grammar
open ScriptStrip.Parser Spelling

/-- The readers of a level return what is spelled, and they read as much of it as there is. -/
structure Sound (below : Grammar) : Prop where
  expression : ∀ {before value after}, Reads below.expression before value after →
    value.Between before after ∧ ¬ after.front.lexeme.ContinuesExpression
  unary : ∀ {before value after}, Reads below.unary before value after →
    value.Between before after ∧ .unary ≤ value.precedence ∧
      ¬ after.front.lexeme.ContinuesAccess
  statement : ∀ {before value after}, Reads below.statement before value after →
    value.WellShaped ∧ ofStatement value before after ∧ value.EndsBefore after.front

/-- The items of a list are sound if each of them is. -/
theorem sound_itemsUntil {Item : Type} {close : Punctuator} {item : Parser Item}
    {spelling : Item → Spelling} {good : Item → Prop}
    (each : ∀ {before value after}, Reads item before value after →
      good value ∧ spelling value before after)
    {levels : Nat} {before after : TokenStream} {items : List Item} {stop : Span}
    (reads : Reads (itemsUntil close item levels) before (items, stop) after) :
    (∀ value ∈ items, good value) ∧ ∃ middle, listed (items.map spelling) before middle ∧
      middle.front.lexeme = .punctuator close ∧ after = middle.advance := by
  induction levels generalizing before items with
  | zero => exact absurd reads not_reads_tooDeep
  | succ levels inductionHypothesis =>
      rw [reads_itemsUntil_succ_iff] at reads
      rcases reads with ⟨isClose, rfl, _, rfl⟩ | ⟨_, first, middle, readsFirst, continues⟩
      · exact ⟨by simp, before, rfl, isClose, rfl⟩
      · obtain ⟨goodFirst, spelledFirst⟩ := each readsFirst
        rcases continues with ⟨isComma, rest, readsRest, rfl⟩ | ⟨_, isClose, rfl, rfl, _⟩
        · obtain ⟨goodRest, behind, spelledRest, isClose, rfl⟩ := inductionHypothesis readsRest
          refine ⟨List.forall_mem_cons.mpr ⟨goodFirst, goodRest⟩, behind, ?_, isClose, rfl⟩
          rw [List.map_cons, listed_cons_iff]
          exact ⟨middle, spelledFirst, .inr ⟨isComma, spelledRest⟩⟩
        · exact ⟨by simpa using goodFirst, middle,
            listed_cons_iff.mpr ⟨middle, spelledFirst, .inl ⟨rfl, rfl⟩⟩, isClose, rfl⟩

variable {below : Grammar} {levels : Nat} {before after : TokenStream}

/-- An operation is spelled by its operator and its operand. -/
theorem between_unaryOf {operator : UnaryOperator} {operand : Expression} {span : Span}
    (isOperator : before.front.lexeme = operator.lexeme) (tight : .unary ≤ operand.precedence)
    (between : operand.Between before.advance after) :
    (unaryOf operator operand span).Between before after ∧
      .unary ≤ (unaryOf operator operand span).precedence := by
  unfold unaryOf
  split
  · exact ⟨⟨trivial, _, ⟨isOperator, rfl⟩, between.spelled⟩, Nat.le_refl _⟩
  · rename_i other
    refine ⟨⟨⟨tight, ?_, between.wellShaped⟩, _, ⟨isOperator, rfl⟩, between.spelled⟩, Nat.le_refl _⟩
    rintro ⟨rfl, isZero⟩
    obtain ⟨span, rfl⟩ := Expression.isBareZero_iff.mp isZero
    exact other span rfl rfl

namespace Sound

/-- An expression takes at least one token. -/
theorem expression_advances {expression : Expression} (sound : below.Sound)
    (reads : Reads below.expression before expression after) : after.size < before.size :=
  (advances_ofExpression expression _ _ (sound.expression reads).1.spelled).2

/-- A statement takes at least one token. -/
theorem statement_advances {statement : Statement} (sound : below.Sound)
    (reads : Reads below.statement before statement after) : after.size < before.size :=
  (advances_ofStatement statement _ _ (sound.statement reads).2.1).2

/-- A member that is read is spelled by its tokens. -/
theorem member {member : Member} (sound : below.Sound)
    (reads : Reads below.member before member after) :
    member.value.WellShaped ∧
      inOrder [one member.key.IsWrittenAs, mark .colon, ofExpression member.value] before after := by
  obtain ⟨isKey, _, isColon, readsValue, _⟩ := reads_member_iff.mp reads
  obtain ⟨⟨wellShaped, spelled⟩, _⟩ := sound.expression readsValue
  exact ⟨wellShaped, _, ⟨isKey, rfl⟩, _, ⟨isColon, rfl⟩, spelled⟩

/-- The members that are read are spelled by their tokens. -/
theorem members {close : Punctuator} {members : List Member} {stop : Span} (sound : below.Sound)
    (reads : Reads (itemsUntil close below.member levels) before (members, stop) after) :
    Member.AllWellShaped members ∧ ∃ middle, listed (ofMembers members) before middle ∧
      middle.front.lexeme = .punctuator close ∧ after = middle.advance := by
  rw [Member.allWellShaped_iff, ofMembers_eq_map]
  exact sound_itemsUntil (fun readsMember => sound.member readsMember) reads

/-- The expressions that are read are spelled by their tokens. -/
theorem expressions {close : Punctuator} {items : List Expression} {stop : Span}
    (sound : below.Sound)
    (reads : Reads (itemsUntil close below.expression levels) before (items, stop) after) :
    Expression.AllWellShaped items ∧ ∃ middle, listed (ofExpressions items) before middle ∧
      middle.front.lexeme = .punctuator close ∧ after = middle.advance := by
  rw [Expression.allWellShaped_iff, ofExpressions_eq_map]
  refine sound_itemsUntil (fun readsItem => ?_) reads
  obtain ⟨⟨wellShaped, spelled⟩, _⟩ := sound.expression readsItem
  exact ⟨wellShaped, spelled⟩

/-- The statements that are read are spelled by their tokens. -/
theorem statements {statement : Parser Statement} {items : List Statement}
    (each : ∀ {before value after}, Reads statement before value after →
      value.WellShaped ∧ ofStatement value before after ∧ value.EndsBefore after.front)
    (reads : Reads (Grammar.statements statement levels) before items after) :
    Statement.AllWellShaped items ∧ ofStatements items before after := by
  induction levels generalizing before items with
  | zero => exact absurd reads not_reads_tooDeep
  | succ levels inductionHypothesis =>
      rw [reads_statements_succ_iff] at reads
      rcases reads with ⟨_, rfl, rfl⟩ |
        ⟨_, first, middle, readsFirst, behind, closes, rest, readsRest, rfl⟩
      · exact ⟨trivial, rfl⟩
      · obtain ⟨wellShaped, spelled, ends⟩ := each readsFirst
        obtain ⟨wellShapedRest, spelledRest⟩ := inductionHypothesis readsRest
        exact ⟨⟨wellShaped, wellShapedRest⟩, middle, spelled, behind,
          Statement.ending_of_closes closes ends, spelledRest⟩

/-- A block that is read is spelled by its tokens. -/
theorem block {block : Block} (sound : below.Sound) (reads : Reads below.block before block after) :
    block.WellShaped ∧ ofBlock block before after := by
  obtain ⟨isOpen, middle, readsItems, isClose, rfl, _⟩ := reads_block_iff.mp reads
  obtain ⟨wellShaped, spelled⟩ := statements sound.statement readsItems
  obtain ⟨items, span⟩ := block
  exact ⟨wellShaped, enclosed_iff.mpr ⟨isOpen, middle, spelled, isClose, rfl⟩⟩

/-- A function that is read is spelled by its tokens. -/
theorem functionDef {definition : FunctionDef} {named : Bool} (sound : below.Sound)
    (reads : Reads (below.functionDef named) before definition after) :
    definition.WellShaped ∧ ofFunction definition before after ∧
      (named = true → definition.name ≠ none) := by
  obtain ⟨isWord, hasName, behind, spelledName, isOpen, stop, middle, readsParameters, readsBody,
    _⟩ := reads_functionDef_iff.mp reads
  have eachParameter : ∀ {before parameter after},
      Reads (Prod.fst <$> identifier "function parameter") before parameter after →
        True ∧ Spelling.identifier parameter before after :=
    fun reads => ⟨trivial, reads_name_iff.mp reads⟩
  obtain ⟨_, inner, spelledParameters, isClose, rfl⟩ := sound_itemsUntil eachParameter readsParameters
  obtain ⟨wellShaped, spelledBody⟩ := sound.block readsBody
  obtain ⟨name, parameters, body, span⟩ := definition
  exact ⟨wellShaped, ⟨_, ⟨isWord, rfl⟩, behind, spelledName, _,
    enclosed_iff.mpr ⟨isOpen, inner, spelledParameters, isClose, rfl⟩, spelledBody⟩, hasName⟩

/-- The tightest expressions are spelled by their tokens. -/
theorem primary {expression : Expression} (sound : below.Sound)
    (reads : Reads below.primary before expression after) :
    expression.Between before after ∧ expression.precedence = .primary := by
  rw [Grammar.primary, reads_peek_bind_iff, reads_ite_iff] at reads
  rcases reads with ⟨_, readsFunction⟩ | ⟨_, readsRest⟩
  · obtain ⟨definition, _, readsDefinition, rfl, rfl⟩ := by
      simpa only [reads_bind_iff, reads_pure_iff] using readsFunction
    obtain ⟨wellShaped, spelled, _⟩ := sound.functionDef readsDefinition
    exact ⟨⟨wellShaped, spelled⟩, rfl⟩
  · rw [reads_next_bind_iff] at readsRest
    split at readsRest
    · rename_i digits isNumber
      obtain ⟨rfl, rfl⟩ := reads_pure_iff.mp readsRest
      exact ⟨⟨trivial, isNumber, rfl⟩, rfl⟩
    · rename_i content quote isString
      obtain ⟨rfl, rfl⟩ := reads_pure_iff.mp readsRest
      exact ⟨⟨trivial, isString, rfl⟩, rfl⟩
    · rename_i isWord
      obtain ⟨rfl, rfl⟩ := reads_pure_iff.mp readsRest
      exact ⟨⟨trivial, isWord, rfl⟩, rfl⟩
    · rename_i isWord
      obtain ⟨rfl, rfl⟩ := reads_pure_iff.mp readsRest
      exact ⟨⟨trivial, isWord, rfl⟩, rfl⟩
    · rename_i isWord
      obtain ⟨rfl, rfl⟩ := reads_pure_iff.mp readsRest
      exact ⟨⟨trivial, isWord, rfl⟩, rfl⟩
    · rename_i name isName
      obtain ⟨rfl, rfl⟩ := reads_pure_iff.mp readsRest
      exact ⟨⟨trivial, isName, rfl⟩, rfl⟩
    · rename_i isOpen
      simp only [reads_bind_iff, reads_expect_iff, reads_pure_iff] at readsRest
      obtain ⟨inner, middle, readsInner, _, _, ⟨isClose, rfl, rfl⟩, rfl, rfl⟩ := readsRest
      obtain ⟨⟨wellShaped, spelled⟩, _⟩ := sound.expression readsInner
      exact ⟨⟨wellShaped, enclosed_iff.mpr ⟨isOpen, middle, spelled, isClose, rfl⟩⟩, rfl⟩
    · rename_i isOpen
      simp only [reads_bind_iff, reads_pure_iff] at readsRest
      obtain ⟨⟨items, stop⟩, _, readsItems, rfl, rfl⟩ := readsRest
      obtain ⟨wellShaped, middle, spelled, isClose, rfl⟩ := sound.expressions readsItems
      exact ⟨⟨wellShaped, enclosed_iff.mpr ⟨isOpen, middle, spelled, isClose, rfl⟩⟩, rfl⟩
    · rename_i isOpen
      simp only [reads_bind_iff, reads_pure_iff] at readsRest
      obtain ⟨⟨members, stop⟩, _, readsMembers, rfl, rfl⟩ := readsRest
      obtain ⟨wellShaped, middle, spelled, isClose, rfl⟩ := sound.members readsMembers
      exact ⟨⟨wellShaped, enclosed_iff.mpr ⟨isOpen, middle, spelled, isClose, rfl⟩⟩, rfl⟩
    · exact absurd readsRest not_reads_refuse

/-- What has been read stays the first part of what is read next. -/
theorem accesses {start : TokenStream} {head expression : Expression} (sound : below.Sound)
    (between : head.Between start before) (tight : .member ≤ head.precedence)
    (reads : Reads (below.accesses levels head) before expression after) :
    expression.Between start after ∧ .member ≤ expression.precedence ∧
      ¬ after.front.lexeme.ContinuesAccess := by
  induction levels generalizing head before with
  | zero => exact absurd reads not_reads_tooDeep
  | succ levels inductionHypothesis =>
      by_cases continues : before.front.lexeme.ContinuesAccess
      · rcases continues with isDot | isBracket | isParenthesis
        · obtain ⟨name, isName, readsRest⟩ := (reads_accesses_dot_iff isDot).mp reads
          have betweenAccess : (Expression.property head name
              (head.span.union before.advance.front.span)).Between start before.advance.advance :=
            ⟨⟨tight, between.wellShaped⟩, before, between.spelled, _, ⟨isDot, rfl⟩, isName, rfl⟩
          exact inductionHypothesis betweenAccess (Nat.le_refl _) readsRest
        · obtain ⟨key, middle, readsKey, isClose, readsRest⟩ :=
            (reads_accesses_bracket_iff isBracket).mp reads
          obtain ⟨⟨wellShaped, spelled⟩, _⟩ := sound.expression readsKey
          have betweenAccess : (Expression.index head key
              (head.span.union middle.front.span)).Between start middle.advance :=
            ⟨⟨tight, between.wellShaped, wellShaped⟩, before, between.spelled,
              enclosed_iff.mpr ⟨isBracket, middle, spelled, isClose, rfl⟩⟩
          exact inductionHypothesis betweenAccess (Nat.le_refl _) readsRest
        · obtain ⟨arguments, stop, middle, readsArguments, readsRest⟩ :=
            (reads_accesses_parenthesis_iff isParenthesis).mp reads
          obtain ⟨wellShaped, inner, spelled, isClose, rfl⟩ := sound.expressions readsArguments
          have betweenCall : (Expression.call head arguments (head.span.union stop)).Between start
              inner.advance :=
            ⟨⟨tight, between.wellShaped, wellShaped⟩, before, between.spelled,
              enclosed_iff.mpr ⟨isParenthesis, inner, spelled, isClose, rfl⟩⟩
          exact inductionHypothesis betweenCall (Nat.le_refl _) readsRest
      · obtain ⟨rfl, rfl⟩ := (reads_accesses_of_not_continues continues).mp reads
        exact ⟨between, tight, continues⟩

/-- An expression with unary operators is spelled by its tokens. -/
theorem unaryExpression {expression : Expression} (sound : below.Sound)
    (reads : Reads below.unaryExpression before expression after) :
    expression.Between before after ∧ .unary ≤ expression.precedence ∧
      ¬ after.front.lexeme.ContinuesAccess := by
  cases known : UnaryOperator.ofLexeme? before.front.lexeme with
  | none =>
      rw [reads_unaryExpression_of_none known] at reads
      obtain ⟨head, middle, readsHead, readsRest⟩ := reads_access_iff.mp reads
      obtain ⟨between, isPrimary⟩ := sound.primary readsHead
      have tight : Precedence.member ≤ head.precedence := by rw [isPrimary]; decide
      obtain ⟨betweenAll, tightAll, ends⟩ := sound.accesses between tight readsRest
      exact ⟨betweenAll, Nat.le_trans (by decide) tightAll, ends⟩
  | some operator =>
      have isOperator := UnaryOperator.ofLexeme?_eq_some_iff.mp known
      rw [reads_unaryExpression_of_operator isOperator] at reads
      obtain ⟨operand, readsOperand, rfl⟩ := reads
      obtain ⟨between, tight, ends⟩ := sound.unary readsOperand
      obtain ⟨betweenAll, tightAll⟩ := between_unaryOf isOperator tight between
      exact ⟨betweenAll, tightAll, ends⟩

/-- An operator binds no tighter than the operation to the left of it, so the operation can become
its left operand. -/
theorem operations {start : TokenStream} {minimum : Precedence} {left expression : Expression}
    (sound : below.Sound) (between : left.Between start before)
    (tight : minimum ≤ left.precedence)
    (fits : ∀ operator : BinaryOperator, before.front.lexeme = operator.lexeme →
      operator.precedence ≤ left.precedence)
    (ends : ¬ before.front.lexeme.ContinuesAccess)
    (reads : Reads (below.operations levels minimum left) before expression after) :
    expression.Between start after ∧ minimum ≤ expression.precedence ∧
      (∀ operator : BinaryOperator, after.front.lexeme = operator.lexeme →
        operator.precedence < minimum) ∧
      ¬ after.front.lexeme.ContinuesAccess := by
  induction levels generalizing start minimum left before expression after with
  | zero => exact absurd reads not_reads_tooDeep
  | succ levels inductionHypothesis =>
      by_cases goesOn : ∃ operator : BinaryOperator, before.front.lexeme = operator.lexeme ∧
        minimum ≤ operator.precedence
      · obtain ⟨operator, isOperator, tightOperator⟩ := goesOn
        rw [reads_operations_of_operator isOperator tightOperator] at reads
        obtain ⟨operand, middle, readsOperand, right, behind, readsRight, readsRest⟩ := reads
        obtain ⟨betweenOperand, tightOperand, endsOperand⟩ := sound.unaryExpression readsOperand
        have loosest : ∀ other : BinaryOperator, other.precedence < operand.precedence :=
          fun other => Nat.lt_of_lt_of_le other.precedence_lt_unary tightOperand
        obtain ⟨betweenRight, tightRight, looser, endsRight⟩ := inductionHypothesis betweenOperand
          (loosest operator) (fun other _ => Nat.le_of_lt (loosest other)) endsOperand readsRight
        have betweenBinary : (Expression.binary left operator right
            (left.span.union right.span)).Between start behind :=
          ⟨⟨fits operator isOperator, tightRight, between.wellShaped, betweenRight.wellShaped⟩,
            before, between.spelled, _, ⟨isOperator, rfl⟩, betweenRight.spelled⟩
        exact inductionHypothesis betweenBinary tightOperator
          (fun other isOther => Nat.le_of_lt_succ (looser other isOther)) endsRight readsRest
      · have loose : ∀ operator : BinaryOperator, before.front.lexeme = operator.lexeme →
            operator.precedence < minimum := by
          intro operator isOperator
          exact Nat.lt_of_not_le fun tightOperator => goesOn ⟨operator, isOperator, tightOperator⟩
        rw [reads_operations_of_looser loose] at reads
        obtain ⟨rfl, rfl⟩ := reads
        exact ⟨between, tight, loose, ends⟩

/-- An expression with binary operators is spelled and binds as tightly as it was asked for. -/
theorem binaryExpression {minimum : Precedence} {expression : Expression} (sound : below.Sound)
    (low : minimum ≤ .unary) (reads : Reads (below.binaryExpression minimum) before expression after) :
    expression.Between before after ∧ minimum ≤ expression.precedence ∧
      (∀ operator : BinaryOperator, after.front.lexeme = operator.lexeme →
        operator.precedence < minimum) ∧
      ¬ after.front.lexeme.ContinuesAccess := by
  obtain ⟨left, middle, readsLeft, readsRest⟩ := reads_binaryExpression_iff.mp reads
  obtain ⟨between, tight, ends⟩ := sound.unaryExpression readsLeft
  refine sound.operations between (Nat.le_trans low tight) (fun operator _ => ?_) ends readsRest
  exact Nat.le_of_lt (Nat.lt_of_lt_of_le operator.precedence_lt_unary tight)

/-- An assignment is spelled, and no operator that would continue it is left in front. -/
theorem assignment {expression : Expression} (sound : below.Sound)
    (reads : Reads below.assignment before expression after) :
    expression.Between before after ∧ ¬ after.front.lexeme.ContinuesExpression := by
  obtain ⟨target, middle, readsTarget, continues⟩ := reads_assignment_iff.mp reads
  obtain ⟨between, tight, looser, ends⟩ := sound.binaryExpression (by decide) readsTarget
  rcases continues with ⟨isMark, isTarget, value, readsValue, rfl⟩ | ⟨notMark, rfl, rfl⟩
  · obtain ⟨⟨wellShaped, spelled⟩, endsValue⟩ := sound.expression readsValue
    exact ⟨⟨⟨isTarget_iff.mp isTarget, between.wellShaped, wellShaped⟩, middle, between.spelled, _, ⟨isMark, rfl⟩,
      spelled⟩, endsValue⟩
  · refine ⟨between, ?_⟩
    rintro (⟨operator, isOperator⟩ | isMark | continues)
    · exact absurd (looser operator isOperator) (Nat.not_lt.mpr operator.logicalOr_le_precedence)
    · exact notMark isMark
    · exact ends continues

/-- A declared name is spelled by its tokens. -/
theorem declarator {item : Declarator} (sound : below.Sound)
    (reads : below.ReadsDeclarator before item after) :
    (∀ value, item.value = some value → value.WellShaped) ∧ ofDeclarator item before after ∧
      ¬ item.ContinuedBy after.front.lexeme := by
  obtain ⟨name, value, span⟩ := item
  obtain ⟨isName, ⟨isMark, value, readsValue, rfl, _⟩ | ⟨notMark, rfl, _, rfl⟩⟩ := reads
  · obtain ⟨⟨wellShaped, spelled⟩, ends⟩ := sound.expression readsValue
    refine ⟨?_, ⟨_, ⟨isName, rfl⟩, _, ⟨isMark, rfl⟩, spelled⟩, ends⟩
    rintro _ ⟨⟩
    exact wellShaped
  · exact ⟨by simp, ⟨isName, rfl⟩, notMark⟩

/-- The declared names are spelled by their tokens. -/
theorem declarators {items : List Declarator} (sound : below.Sound)
    (reads : Reads (below.declarators levels) before items after) :
    Declarator.AllBetween before items after := by
  induction levels generalizing before items with
  | zero => exact absurd reads not_reads_tooDeep
  | succ levels inductionHypothesis =>
      obtain ⟨first, middle, readsFirst, further⟩ := reads_declarators_succ_iff.mp reads
      obtain ⟨wellShaped, spelled, notContinued⟩ := sound.declarator readsFirst
      rcases further with ⟨isComma, rest, readsRest, rfl⟩ | ⟨notComma, rfl, rfl⟩
      · have between := inductionHypothesis readsRest
        refine ⟨List.cons_ne_nil _ _, Declarator.allWellShaped_cons_iff.mpr
          ⟨wellShaped, between.wellShaped⟩, ?_, between.notComma, ?_⟩
        · rw [ofDeclarators_cons, separated_cons_iff]
          exact ⟨middle, spelled, .inr ⟨mt ofDeclarators_eq_nil_iff.mp between.nonempty, isComma,
            between.spelled⟩⟩
        · rw [List.getLast?_cons_of_ne_nil between.nonempty]
          exact between.notContinued
      · refine ⟨List.cons_ne_nil _ _, Declarator.allWellShaped_cons_iff.mpr ⟨wellShaped, trivial⟩,
          ?_, notComma, ?_⟩
        · rw [ofDeclarators_cons, separated_cons_iff]
          exact ⟨after, spelled, .inl ⟨rfl, rfl⟩⟩
        · rintro _ ⟨⟩
          exact notContinued

/-- A declaration is spelled by its tokens. -/
theorem declaration {statement : Statement} (sound : below.Sound)
    (reads : Reads below.declaration before statement after) :
    statement.WellShaped ∧ ofStatement statement before after ∧
      statement.EndsBefore after.front := by
  obtain ⟨word, isWord, items, readsItems, rfl⟩ := reads_declaration_iff.mp reads
  have between := sound.declarators readsItems
  refine ⟨⟨between.nonempty, between.wellShaped⟩, ⟨_, ⟨isWord, rfl⟩, between.spelled⟩, ?_⟩
  refine ⟨?_, by simp [Statement.endsOpen], by simp⟩
  rintro (isComma | ⟨last, isLast, continued⟩)
  · exact between.notComma isComma
  · exact between.notContinued last isLast continued

/-- A branch is spelled, and if it ends open no second branch is left in front. -/
theorem branch {found : Branch} (sound : below.Sound)
    (reads : Reads (Grammar.branch below.statement) before found after) :
    found.WellShaped ∧ ofBranch found before after ∧
      (found.endsOpen = true → after.front.lexeme ≠ .keyword .elseKw) := by
  rcases reads_branch_iff.mp reads with ⟨inner, readsBlock, rfl⟩ |
    ⟨single, middle, readsSingle, other, closes, rfl⟩
  · obtain ⟨wellShaped, spelled, _⟩ := sound.statement readsBlock
    exact ⟨wellShaped, spelled, by simp [Branch.endsOpen]⟩
  · obtain ⟨wellShaped, spelled, ends⟩ := sound.statement readsSingle
    refine ⟨⟨other, wellShaped⟩, ⟨middle, spelled, Statement.ending_of_closes closes ends⟩, ?_⟩
    intro isOpen
    have needsNone : single.needsSemicolon = false := by
      cases single <;> first | rfl | cases isOpen
    rcases closes with ⟨needs, _⟩ | ⟨_, rfl⟩
    · simp [needsNone] at needs
    · exact ends.notElse isOpen

/-- A conditional is spelled, and its second branch goes to the nearest condition. -/
theorem conditional {statement : Statement} (sound : below.Sound)
    (reads : Reads below.conditional before statement after) :
    statement.WellShaped ∧ ofStatement statement before after ∧
      statement.EndsBefore after.front := by
  obtain ⟨isWord, isOpen, condition, middle, readsCondition, isClose, consequent, behind,
    readsConsequent, continues⟩ := reads_conditional_iff.mp reads
  obtain ⟨⟨wellShaped, spelled⟩, _⟩ := sound.expression readsCondition
  obtain ⟨wellShapedBranch, spelledBranch, notElse⟩ := sound.branch readsConsequent
  have parentheses : enclosed .openParenthesis .closeParenthesis (ofExpression condition)
      before.advance middle.advance :=
    enclosed_iff.mpr ⟨isOpen, middle, spelled, isClose, rfl⟩
  rcases continues with ⟨isElse, alternate, readsAlternate, rfl⟩ | ⟨isOther, rfl, rfl⟩
  · obtain ⟨wellShapedLast, spelledLast, notElseLast⟩ := sound.branch readsAlternate
    have closed : consequent.endsOpen = false := by
      rw [Bool.eq_false_iff]
      exact fun endsOpen => notElse endsOpen isElse
    refine ⟨⟨wellShaped, wellShapedBranch, fun _ => closed, wellShapedLast⟩, ?_, ?_⟩
    · exact ⟨_, ⟨isWord, rfl⟩, _, parentheses, behind, spelledBranch, _, ⟨isElse, rfl⟩,
        spelledLast⟩
    · exact ⟨id, notElseLast, by simp⟩
  · refine ⟨⟨wellShaped, wellShapedBranch, fun isSome => absurd rfl isSome, trivial⟩, ?_, ?_⟩
    · exact ⟨_, ⟨isWord, rfl⟩, _, parentheses, after, spelledBranch, rfl⟩
    · exact ⟨id, fun _ => isOther, by simp⟩

/-- A return statement is spelled, and its value starts on the same line. -/
theorem returning {statement : Statement} (sound : below.Sound)
    (isWord : before.front.lexeme = .keyword .returnKw)
    (reads : Reads below.returning before statement after) :
    statement.WellShaped ∧ ofStatement statement before after ∧
      statement.EndsBefore after.front := by
  rcases reads_returning_iff.mp reads with ⟨stops, rfl, rfl⟩ | ⟨goesOn, value, readsValue, rfl⟩
  · exact ⟨trivial, ⟨isWord, rfl⟩, id, by simp [Statement.endsOpen], fun _ _ => stops⟩
  · obtain ⟨⟨wellShaped, spelled⟩, ends⟩ := sound.expression readsValue
    have sameLine : before.advance.front.afterLineBreak = false := by
      rw [Bool.eq_false_iff]
      exact fun breaks => goesOn (.inl breaks)
    exact ⟨wellShaped, ⟨_, ⟨isWord, rfl⟩, sameLine, spelled⟩, ends, by simp [Statement.endsOpen],
      by simp⟩

/-- Every statement is spelled by its tokens, by its first one. -/
theorem anyStatement {statement : Statement} (sound : below.Sound)
    (reads : Reads below.anyStatement before statement after) :
    statement.WellShaped ∧ ofStatement statement before after ∧
      statement.EndsBefore after.front := by
  rw [Grammar.anyStatement, reads_peek_bind_iff] at reads
  split at reads
  · exact sound.declaration reads
  · exact sound.declaration reads
  · exact sound.declaration reads
  · obtain ⟨definition, readsDefinition, rfl⟩ := by simpa [reads_bind_iff] using reads
    obtain ⟨wellShaped, spelled, named⟩ := sound.functionDef readsDefinition
    exact ⟨⟨named rfl, wellShaped⟩, spelled, id, by simp [Statement.endsOpen], by simp⟩
  · exact sound.conditional reads
  · rename_i isWord
    exact sound.returning isWord reads
  · obtain ⟨block, readsBlock, rfl⟩ := by simpa [reads_bind_iff] using reads
    obtain ⟨wellShaped, spelled⟩ := sound.block readsBlock
    exact ⟨wellShaped, spelled, id, by simp [Statement.endsOpen], by simp⟩
  · rename_i isMark
    obtain ⟨rfl, rfl⟩ := by simpa using reads
    exact ⟨trivial, ⟨isMark, rfl⟩, id, by simp [Statement.endsOpen], by simp⟩
  · rename_i notFunction _ _ notBrace _
    obtain ⟨value, readsValue, rfl⟩ := by simpa [reads_bind_iff] using reads
    obtain ⟨⟨wellShaped, spelled⟩, ends⟩ := sound.assignment readsValue
    have opens := (front_ofExpression value spelled).2
    have closed : value.opensLikeStatement = false := by
      rw [Bool.eq_false_iff]
      exact fun isOpen => (opens.mp isOpen).elim notBrace notFunction
    exact ⟨⟨closed, wellShaped⟩, spelled, ends, by simp [Statement.endsOpen], by simp⟩

end Sound

/-- Every reader of the grammar returns what is spelled by the tokens that it takes. -/
theorem sound_within (levels : Nat) : (within levels).Sound := by
  induction levels with
  | zero =>
      exact ⟨fun reads => absurd reads not_reads_tooDeep,
        fun reads => absurd reads not_reads_tooDeep, fun reads => absurd reads not_reads_tooDeep⟩
  | succ levels inductionHypothesis =>
      exact ⟨inductionHypothesis.assignment, inductionHypothesis.unaryExpression,
        inductionHypothesis.anyStatement⟩

end Grammar

/-- The tokens of a script that is read spell it. -/
theorem Script.spelledBy_of_reads {before after : TokenStream} {script : Script}
    (reads : Parser.Reads Parser.script before script after) :
    script.WellShaped ∧ script.SpelledBy before := by
  obtain ⟨readsItems, atEnd, _⟩ := Parser.reads_script_iff.mp reads
  obtain ⟨wellShaped, spelled⟩ :=
    Grammar.Sound.statements (Grammar.sound_within _).anyStatement readsItems
  exact ⟨wellShaped, after, spelled, atEnd⟩

end ScriptStrip
