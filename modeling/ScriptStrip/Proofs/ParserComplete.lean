import ScriptStrip.Proofs.ParserSound
/-
This file shows that the readers of the grammar find every well-shaped tree that the tokens spell.
They run out of levels nowhere, as each level and each item takes a token of its own.
-/

namespace ScriptStrip

/-- The reader finds the value, places aside. -/
def Parser.Recovers {Value : Type} (placeless : Value → Value) (parser : Parser Value)
    (before : TokenStream) (value : Value) (after : TokenStream) : Prop :=
  ∃ found, Reads parser before found after ∧ placeless found = placeless value

/-- No expression starts or goes on with the mark. -/
def Punctuator.endsExpression : Punctuator → Bool
  | comma | semicolon | closeBrace | closeParenthesis | closeBracket => true
  | _ => false

/-- A mark that ends an expression does not continue it. -/
theorem Punctuator.not_continuesExpression {mark : Punctuator} (ends : mark.endsExpression = true) :
    ¬ (Lexeme.punctuator mark).ContinuesExpression := by
  rintro (⟨operator, same⟩ | same | same | same | same)
  · cases operator <;> cases same <;> cases ends
  all_goals
    cases same
    cases ends

/-- A mark that ends an expression starts none. -/
theorem Punctuator.not_startsExpression {mark : Punctuator} (ends : mark.endsExpression = true) :
    (Lexeme.punctuator mark).startsExpression = false := by
  cases mark <;> first | rfl | cases ends

/-- A comma continues no declared name. -/
theorem Declarator.not_continuedBy_comma (item : Declarator) {lexeme : Lexeme}
    (isComma : lexeme = .punctuator .comma) : ¬ item.ContinuedBy lexeme := by
  rw [isComma]
  rcases item with ⟨name, _ | value, span⟩
  · simp [Declarator.ContinuedBy]
  · exact Punctuator.not_continuesExpression rfl

/-- The same key at another place. -/
def PropertyKey.placedAt (span : Span) : PropertyKey → PropertyKey
  | identifier name _ => identifier name span
  | string content quote _ => string content quote span
  | number digits _ => number digits span

namespace PropertyKey

theorem span_placedAt (key : PropertyKey) (span : Span) : (key.placedAt span).span = span := by
  cases key <;> rfl

/-- A key that is put elsewhere is the same but for its place. -/
theorem placeless_placedAt (key : PropertyKey) (span : Span) :
    (key.placedAt span).placeless = key.placeless := by
  cases key <;> rfl

/-- A key that is put elsewhere is written alike. -/
theorem isWrittenAs_placedAt (key : PropertyKey) (span : Span) :
    (key.placedAt span).IsWrittenAs = key.IsWrittenAs := by
  cases key <;> rfl

end PropertyKey

/-- A statement that wants no semicolon ends before every token but an `else`. -/
theorem Statement.endsBefore_of_not_needs {statement : Statement} {token : Token}
    (needsNone : statement.needsSemicolon = false)
    (notElse : statement.endsOpen = true → token.lexeme ≠ .keyword .elseKw) :
    statement.EndsBefore token := by
  cases statement with
  | expression value span => cases needsNone
  | declaration word items span => cases needsNone
  | returning value span => cases needsNone
  | _ => exact ⟨id, notElse, by simp⟩

/-- A statement that is read again closes where the first one ended. -/
theorem Statement.closes_of_placeless {statement found : Statement} {before after : TokenStream}
    (same : found.placeless = statement.placeless) (ended : statement.ending before after) :
    found.Closes before after := by
  apply Statement.closes_of_ending
  rw [← Statement.ending_placeless, same, Statement.ending_placeless]
  exact ended

/-- Only a block is the same as a block. -/
theorem Statement.placeless_eq_block_iff {statement : Statement} {block : Block} :
    statement.placeless = (Statement.block block).placeless ↔
      ∃ inner, statement = .block inner ∧ inner.placeless = block.placeless := by
  cases statement <;> simp [Statement.placeless]

/-- No two binary operators have one token. -/
theorem BinaryOperator.lexeme_injective {operator other : BinaryOperator}
    (same : operator.lexeme = other.lexeme) : operator = other := by
  have found := BinaryOperator.ofLexeme?_eq_some_iff.mpr same
  rw [BinaryOperator.ofLexeme?_eq_some_iff.mpr rfl] at found
  exact Option.some.inj found

/-- A binary operator ends the accesses. -/
theorem BinaryOperator.not_continuesAccess (operator : BinaryOperator) :
    ¬ operator.lexeme.ContinuesAccess := by
  cases operator <;> simp [Lexeme.ContinuesAccess, BinaryOperator.lexeme, BinaryOperator.mark]

/-- A statement can start with the lexeme. -/
def Lexeme.startsStatement (lexeme : Lexeme) : Bool :=
  lexeme.startsExpression || lexeme == .punctuator .semicolon ||
    lexeme == .keyword .varKw || lexeme == .keyword .letKw || lexeme == .keyword .constKw ||
    lexeme == .keyword .ifKw || lexeme == .keyword .returnKw

/-- A statement starts with a token that starts statements. -/
theorem Spelling.front_ofStatement {statement : Statement} {before after : TokenStream}
    (spelled : ofStatement statement before after) :
    before.front.lexeme.startsStatement = true := by
  cases statement with
  | expression value span =>
      simp [Lexeme.startsStatement, (front_ofExpression value spelled).1]
  | declaration word items span =>
      obtain ⟨middle, isWord, _⟩ := front_inOrder spelled
      cases word <;> simp [Lexeme.startsStatement, isWord, DeclarationWord.keyword]
  | function definition =>
      simp [Lexeme.startsStatement, Lexeme.startsExpression, front_ofFunction spelled]
  | conditional condition consequent alternate span =>
      obtain ⟨middle, isWord, _⟩ := front_inOrder spelled
      simp [Lexeme.startsStatement, isWord]
  | returning value span =>
      cases value with
      | none => simp [Lexeme.startsStatement, spelled.1]
      | some value =>
          obtain ⟨middle, isWord, _⟩ := front_inOrder spelled
          simp [Lexeme.startsStatement, isWord]
  | block inner => simp [Lexeme.startsStatement, Lexeme.startsExpression, front_ofBlock spelled]
  | empty span => simp [Lexeme.startsStatement, spelled.1]

namespace Grammar
open ScriptStrip.Parser Spelling

/-- A statement that starts neither with a brace nor with a word of its own is an expression. -/
theorem reads_anyStatement_of_expression {below : Grammar} {before middle after : TokenStream}
    {statement : Statement} (expression : Expression)
    (spelled : ofExpression expression before middle)
    (closed : expression.opensLikeStatement = false) :
    Reads below.anyStatement before statement after ↔
      ∃ value, Reads below.assignment before value after ∧
        statement = .expression value value.span := by
  obtain ⟨starts, opens⟩ := front_ofExpression expression spelled
  simp only [closed, Bool.false_eq_true, false_iff, not_or] at opens
  obtain ⟨notBrace, notFunction⟩ := opens
  rw [Grammar.anyStatement, reads_peek_bind_iff]
  split
  · rename_i isWord
    exact absurd (isWord ▸ starts) (by decide)
  · rename_i isWord
    exact absurd (isWord ▸ starts) (by decide)
  · rename_i isWord
    exact absurd (isWord ▸ starts) (by decide)
  · rename_i isWord
    exact absurd isWord notFunction
  · rename_i isWord
    exact absurd (isWord ▸ starts) (by decide)
  · rename_i isWord
    exact absurd (isWord ▸ starts) (by decide)
  · rename_i isBrace
    exact absurd isBrace notBrace
  · rename_i isMark
    exact absurd (isMark ▸ starts) (by decide)
  · simp

/-- The readers of a level find what is spelled by fewer tokens than there are levels. -/
structure Complete (below : Grammar) : Prop where
  expression : ∀ {before value after}, before.size < below.levels →
    value.Between before after → ¬ after.front.lexeme.ContinuesExpression →
      Recovers Expression.placeless below.expression before value after
  unary : ∀ {before value after}, before.size < below.levels →
    value.Between before after → .unary ≤ value.precedence →
      ¬ after.front.lexeme.ContinuesAccess →
        Recovers Expression.placeless below.unary before value after
  statement : ∀ {before value after}, before.size < below.levels →
    value.WellShaped → ofStatement value before after → value.EndsBefore after.front →
      Recovers Statement.placeless below.statement before value after

/-- A comma or the closing mark stands behind each item of a list. -/
theorem complete_itemsUntil {Item : Type} {close : Punctuator} {item : Parser Item}
    {spelling : Item → Spelling} {placeless : Item → Item} (good : Item → Prop) (bound : Nat)
    (each : ∀ {before value after}, before.size ≤ bound → good value →
      spelling value before after →
      after.front.lexeme = .punctuator .comma ∨ after.front.lexeme = .punctuator close →
        Recovers placeless item before value after)
    (advances : ∀ value, (spelling value).Advances)
    (front : ∀ {before value after}, spelling value before after →
      before.front.lexeme ≠ .punctuator close)
    (other : close ≠ .comma) {levels : Nat} {before after : TokenStream} {items : List Item}
    (small : before.size < levels) (inside : before.size ≤ bound)
    (allGood : ∀ value ∈ items, good value)
    (spelled : listed (items.map spelling) before after)
    (isClose : after.front.lexeme = .punctuator close) :
    ∃ found, Reads (itemsUntil close item levels) before (found, after.front.span) after.advance ∧
      found.map placeless = items.map placeless := by
  induction levels generalizing before items with
  | zero => omega
  | succ levels inductionHypothesis =>
      cases items with
      | nil =>
          obtain rfl : after = before := spelled
          exact ⟨[], reads_itemsUntil_succ_iff.mpr (.inl ⟨isClose, rfl, rfl, rfl⟩), rfl⟩
      | cons first rest =>
          rw [List.forall_mem_cons] at allGood
          rw [List.map_cons, listed_cons_iff] at spelled
          obtain ⟨middle, spelledFirst, continues⟩ := spelled
          have shorter := advances first before middle spelledFirst
          have notClose := front spelledFirst
          -- The last item may have a comma behind it or not. Both are read as the same list.
          rcases continues with ⟨isLast, rfl⟩ | ⟨isComma, spelledRest⟩
          · obtain rfl : rest = [] := List.map_eq_nil_iff.mp isLast
            obtain ⟨found, reads, same⟩ := each inside allGood.1 spelledFirst (.inr isClose)
            have notComma : after.front.lexeme ≠ .punctuator .comma := by
              rw [isClose]
              simpa using other
            exact ⟨[found], reads_itemsUntil_succ_iff.mpr (.inr ⟨notClose, found, after, reads,
              .inr ⟨notComma, isClose, rfl, rfl, rfl⟩⟩), by simp [same]⟩
          · obtain ⟨found, reads, same⟩ := each inside allGood.1 spelledFirst (.inl isComma)
            have next : middle.advance.size < middle.size := size_advance_lt (by simp [isComma])
            obtain ⟨foundRest, readsRest, sameRest⟩ :=
              inductionHypothesis (by omega) (by omega) allGood.2 spelledRest
            exact ⟨found :: foundRest, reads_itemsUntil_succ_iff.mpr (.inr ⟨notClose, found, middle,
              reads, .inl ⟨isComma, foundRest, readsRest, rfl⟩⟩), by simp [same, sameRest]⟩

variable {below : Grammar} {levels : Nat} {before after : TokenStream}

namespace Complete

/-- The items that are spelled are read again, up to the closing mark. -/
theorem expressions {close : Punctuator} {items : List Expression} (complete : below.Complete)
    (closes : close.endsExpression = true) (other : close ≠ .comma)
    (inside : before.size < below.levels) (wellShaped : Expression.AllWellShaped items)
    (spelled : listed (ofExpressions items) before after)
    (isClose : after.front.lexeme = .punctuator close) :
    ∃ found, Reads (itemsUntil close below.expression below.levels) before
        (found, after.front.span) after.advance ∧
      Expression.placelessAll found = Expression.placelessAll items := by
  rw [Expression.allWellShaped_iff] at wellShaped
  rw [ofExpressions_eq_map] at spelled
  simp only [Expression.placelessAll_eq_map]
  refine complete_itemsUntil Expression.WellShaped before.size ?_ advances_ofExpression ?_ other
    inside (Nat.le_refl _) wellShaped spelled isClose
  · intro start value behind inside' wellShapedItem spelledItem stops
    refine complete.expression (Nat.lt_of_le_of_lt inside' inside)
      ⟨wellShapedItem, spelledItem⟩ ?_
    rcases stops with isComma | isClose
    · rw [isComma]
      exact Punctuator.not_continuesExpression rfl
    · rw [isClose]
      exact Punctuator.not_continuesExpression closes
  · intro start value behind spelledItem same
    have starts := (front_ofExpression value spelledItem).1
    rw [same, Punctuator.not_startsExpression closes] at starts
    cases starts

/-- A member that is spelled is read again. -/
theorem member {member : Member} (complete : below.Complete)
    (inside : before.size < below.levels) (wellShaped : member.value.WellShaped)
    (spelled : inOrder [one member.key.IsWrittenAs, mark .colon, ofExpression member.value] before
      after)
    (stops : ¬ after.front.lexeme.ContinuesExpression) :
    Recovers Member.placeless below.member before member after := by
  obtain ⟨_, ⟨isKey, rfl⟩, _, ⟨isColon, rfl⟩, spelledValue⟩ := spelled
  have shorter : before.advance.advance.size ≤ before.size := by
    simp only [TokenStream.size_advance]
    omega
  obtain ⟨value, reads, same⟩ :=
    complete.expression (Nat.lt_of_le_of_lt shorter inside) ⟨wellShaped, spelledValue⟩ stops
  have isPlacedKey : (member.key.placedAt before.front.span).IsWrittenAs before.front.lexeme := by
    rwa [PropertyKey.isWrittenAs_placedAt]
  refine ⟨⟨member.key.placedAt before.front.span, value,
    (member.key.placedAt before.front.span).span.union value.span⟩, ?_, ?_⟩
  · exact reads_member_iff.mpr ⟨isPlacedKey, PropertyKey.span_placedAt _ _, isColon, reads, rfl⟩
  · rw [Member.placeless, Member.placeless, PropertyKey.placeless_placedAt, same]

/-- The members that are spelled are read again, up to the closing mark. -/
theorem members {close : Punctuator} {members : List Member} (complete : below.Complete)
    (closes : close.endsExpression = true) (other : close ≠ .comma)
    (inside : before.size < below.levels) (wellShaped : Member.AllWellShaped members)
    (spelled : listed (ofMembers members) before after)
    (isClose : after.front.lexeme = .punctuator close) :
    ∃ found, Reads (itemsUntil close below.member below.levels) before
        (found, after.front.span) after.advance ∧
      Member.placelessAll found = Member.placelessAll members := by
  rw [Member.allWellShaped_iff] at wellShaped
  rw [ofMembers_eq_map] at spelled
  simp only [Member.placelessAll_eq_map]
  refine complete_itemsUntil (fun member => member.value.WellShaped) before.size ?_ ?_ ?_ other
    inside (Nat.le_refl _) wellShaped spelled isClose
  · intro start value behind inside' wellShapedMember spelledMember stops
    refine complete.member (Nat.lt_of_le_of_lt inside' inside) wellShapedMember spelledMember ?_
    rcases stops with isComma | isClose
    · rw [isComma]
      exact Punctuator.not_continuesExpression rfl
    · rw [isClose]
      exact Punctuator.not_continuesExpression closes
  · exact fun member => advances_member member.key (advances_ofExpression member.value)
  · intro start member behind spelledMember same
    obtain ⟨_, ⟨isKey, _⟩, _⟩ := spelledMember
    rw [same] at isKey
    cases keyCase : member.key <;>
      simp [keyCase, PropertyKey.IsWrittenAs, Lexeme.IsWord] at isKey

/-- What stands behind a statement of a list is the next statement or the end of the list. -/
theorem endsBefore_of_statements {first : Statement} {rest : List Statement}
    {middle behind : TokenStream} (ended : first.ending middle behind)
    (spelled : ofStatements rest behind after)
    (atEnd : after.front.lexeme = .punctuator .closeBrace ∨ after.front.lexeme = .endOfSource) :
    first.EndsBefore middle.front := by
  by_cases needs : first.needsSemicolon = true
  · exact Statement.endsBefore_of_ending needs ended
  · refine Statement.endsBefore_of_not_needs (by simpa using needs) fun _ isElse => ?_
    obtain rfl : behind = middle := by simpa [Statement.ending, needs] using ended
    cases rest with
    | nil =>
        obtain rfl : after = behind := spelled
        simp [isElse] at atEnd
    | cons second rest =>
        obtain ⟨_, spelledSecond, _⟩ := spelled
        have starts := front_ofStatement spelledSecond
        exact absurd (isElse ▸ starts) (by decide)

/-- The statements that are spelled are read again, up to a brace or the end. -/
theorem statements {statement : Parser Statement} {bound : Nat} {items : List Statement}
    (each : ∀ {before value after}, before.size ≤ bound → value.WellShaped →
      ofStatement value before after → value.EndsBefore after.front →
        Recovers Statement.placeless statement before value after)
    (small : before.size < levels) (inside : before.size ≤ bound)
    (wellShaped : Statement.AllWellShaped items) (spelled : ofStatements items before after)
    (atEnd : after.front.lexeme = .punctuator .closeBrace ∨ after.front.lexeme = .endOfSource) :
    Recovers Statement.placelessAll (Grammar.statements statement levels) before items after := by
  induction levels generalizing before items with
  | zero => omega
  | succ levels inductionHypothesis =>
      cases items with
      | nil =>
          obtain rfl : after = before := spelled
          exact ⟨[], reads_statements_succ_iff.mpr (.inl ⟨atEnd, rfl, rfl⟩), rfl⟩
      | cons first rest =>
          obtain ⟨middle, spelledFirst, behind, ended, spelledRest⟩ := spelled
          have starts := front_ofStatement spelledFirst
          have notEnd : ¬ (before.front.lexeme = .punctuator .closeBrace ∨
              before.front.lexeme = .endOfSource) := by
            rintro (same | same)
            · exact absurd (same ▸ starts) (by decide)
            · exact absurd (same ▸ starts) (by decide)
          have ends := endsBefore_of_statements ended spelledRest atEnd
          obtain ⟨found, reads, same⟩ := each inside wellShaped.1 spelledFirst ends
          have shorter := advances_ofStatement first before middle spelledFirst
          have noLonger := (bounded_ending first).size_le ended
          obtain ⟨foundRest, readsRest, sameRest⟩ :=
            inductionHypothesis (by omega) (by omega) wellShaped.2 spelledRest
          refine ⟨found :: foundRest, reads_statements_succ_iff.mpr (.inr ⟨notEnd, found, middle,
            reads, behind, Statement.closes_of_placeless same ended, foundRest, readsRest,
            rfl⟩), ?_⟩
          rw [Statement.placelessAll, Statement.placelessAll, same, sameRest]

/-- A block that is spelled is read again. -/
theorem block {block : Block} (complete : below.Complete) (inside : before.size ≤ below.levels)
    (wellShaped : block.WellShaped) (spelled : ofBlock block before after) :
    Recovers Block.placeless below.block before block after := by
  obtain ⟨items, span⟩ := block
  obtain ⟨isOpen, middle, spelledItems, isClose, rfl⟩ := enclosed_iff.mp spelled
  have shorter : before.advance.size < before.size := size_advance_lt (by simp [isOpen])
  obtain ⟨found, reads, same⟩ : Recovers Statement.placelessAll
      (Grammar.statements below.statement below.levels) before.advance items middle :=
    statements (fun small => complete.statement (Nat.lt_of_le_of_lt small (by omega))) (by omega)
      (Nat.le_refl _) wellShaped spelledItems (.inl isClose)
  refine ⟨⟨found, before.front.span.union middle.front.span⟩,
    reads_block_iff.mpr ⟨isOpen, middle, reads, isClose, rfl, rfl⟩, ?_⟩
  rw [Block.placeless, Block.placeless, same]

/-- The parameters of a function are read up to the closing parenthesis. -/
theorem parameters (levels : Nat) {names : List String} (inside : before.size < levels)
    (spelled : listed (names.map Spelling.identifier) before after)
    (isClose : after.front.lexeme = .punctuator .closeParenthesis) :
    Reads (itemsUntil .closeParenthesis (Prod.fst <$> Parser.identifier "function parameter")
      levels) before (names, after.front.span) after.advance := by
  have each : ∀ {start name behind}, start.size ≤ before.size → True →
      Spelling.identifier name start behind →
      behind.front.lexeme = .punctuator .comma ∨
        behind.front.lexeme = .punctuator .closeParenthesis →
          Recovers id (Prod.fst <$> Parser.identifier "function parameter") start name behind := by
    intro start name behind _ _ isName _
    have readsName : Reads (Parser.identifier "function parameter") start
        (name, start.front.span) behind :=
      reads_identifier_iff.mpr ⟨isName.1, rfl, isName.2⟩
    exact ⟨name, reads_map_iff.mpr ⟨_, readsName, rfl⟩, rfl⟩
  have front : ∀ {start name behind}, Spelling.identifier name start behind →
      start.front.lexeme ≠ .punctuator .closeParenthesis := by
    intro start name behind isName
    simp [isName.1]
  obtain ⟨found, reads, same⟩ := complete_itemsUntil (fun _ => True) before.size each
    advances_identifier front (by decide) inside (Nat.le_refl _) (fun _ _ => trivial) spelled isClose
  rw [List.map_id, List.map_id] at same
  rwa [same] at reads

/-- A function that is spelled is read again. -/
theorem functionDef {definition : FunctionDef} {named : Bool} (complete : below.Complete)
    (inside : before.size ≤ below.levels) (wellShaped : definition.WellShaped)
    (hasName : named = true → definition.name ≠ none)
    (spelled : ofFunction definition before after) :
    Recovers FunctionDef.placeless (below.functionDef named) before definition after := by
  obtain ⟨name, names, body, span⟩ := definition
  obtain ⟨_, ⟨isWord, rfl⟩, behind, spelledName, middle, spelledParameters, spelledBody⟩ := spelled
  obtain ⟨isOpen, inner, spelledNames, isClose, rfl⟩ := enclosed_iff.mp spelledParameters
  have afterWord : before.advance.size < before.size := size_advance_lt (by simp [isWord])
  have afterName := (bounded_name name).size_le spelledName
  have afterOpen : behind.advance.size < behind.size := size_advance_lt (by simp [isOpen])
  have afterNames := advances_parameters names _ _ spelledParameters
  have readsNames := parameters below.levels (by omega) spelledNames isClose
  obtain ⟨found, readsBody, same⟩ := complete.block (by omega) wellShaped spelledBody
  refine ⟨⟨name, names, found, before.front.span.union found.span⟩, ?_, ?_⟩
  · exact reads_functionDef_iff.mpr ⟨isWord, hasName, behind, spelledName, isOpen, _, _, readsNames,
      readsBody, rfl⟩
  · rw [FunctionDef.placeless, FunctionDef.placeless, same]

/-- The tightest expressions that are spelled are read again. -/
theorem primary {expression : Expression} (complete : below.Complete)
    (inside : before.size ≤ below.levels) (between : expression.Between before after)
    (isPrimary : expression.precedence = .primary) :
    Recovers Expression.placeless below.primary before expression after := by
  obtain ⟨wellShaped, spelled⟩ := between
  unfold Recovers
  rw [Grammar.primary]
  simp only [reads_peek_bind_iff, reads_ite_iff, reads_next_bind_iff]
  cases expression with
  | number digits span =>
      obtain ⟨isNumber, rfl⟩ := spelled
      exact ⟨.number digits before.front.span, .inr ⟨by simp [isNumber], by simp [isNumber]⟩, rfl⟩
  | string content quote span =>
      obtain ⟨isString, rfl⟩ := spelled
      exact ⟨.string content quote before.front.span,
        .inr ⟨by simp [isString], by simp [isString]⟩, rfl⟩
  | boolean value span =>
      refine ⟨.boolean value before.front.span, .inr ?_, rfl⟩
      cases value with
      | true =>
          obtain ⟨isWord, rfl⟩ := spelled
          exact ⟨by simp [isWord], by simp [isWord]⟩
      | false =>
          obtain ⟨isWord, rfl⟩ := spelled
          exact ⟨by simp [isWord], by simp [isWord]⟩
  | null span =>
      obtain ⟨isWord, rfl⟩ := spelled
      exact ⟨.null before.front.span, .inr ⟨by simp [isWord], by simp [isWord]⟩, rfl⟩
  | reference name span =>
      obtain ⟨isName, rfl⟩ := spelled
      exact ⟨.reference name before.front.span, .inr ⟨by simp [isName], by simp [isName]⟩, rfl⟩
  | function definition =>
      have isWord := front_ofFunction spelled
      obtain ⟨found, reads, same⟩ :=
        complete.functionDef inside wellShaped (fun isNamed => absurd isNamed Bool.false_ne_true) spelled
      refine ⟨.function found, .inl ⟨isWord, ?_⟩, by simp [Expression.placeless, same]⟩
      exact reads_bind_iff.mpr ⟨found, after, reads, reads_pure_iff.mpr ⟨rfl, rfl⟩⟩
  | group inner span =>
      obtain ⟨isOpen, middle, spelledInner, isClose, rfl⟩ := enclosed_iff.mp spelled
      have shorter : before.advance.size < before.size := size_advance_lt (by simp [isOpen])
      have stops : ¬ middle.front.lexeme.ContinuesExpression := by
        rw [isClose]
        exact Punctuator.not_continuesExpression rfl
      have betweenInner : inner.Between before.advance middle := ⟨wellShaped, spelledInner⟩
      obtain ⟨found, reads, same⟩ := complete.expression (by omega) betweenInner stops
      refine ⟨.group found (before.front.span.union middle.front.span),
        .inr ⟨by simp [isOpen], ?_⟩, by simp [Expression.placeless, same]⟩
      simp only [isOpen, reads_bind_iff, reads_expect_iff, reads_pure_iff]
      exact ⟨found, middle, reads, _, _, ⟨isClose, rfl, rfl⟩, rfl, rfl⟩
  | array items span =>
      obtain ⟨isOpen, middle, spelledItems, isClose, rfl⟩ := enclosed_iff.mp spelled
      have shorter : before.advance.size < before.size := size_advance_lt (by simp [isOpen])
      obtain ⟨found, reads, same⟩ :=
        complete.expressions rfl (by decide) (by omega) wellShaped spelledItems isClose
      refine ⟨.array found (before.front.span.union middle.front.span),
        .inr ⟨by simp [isOpen], ?_⟩, by simp [Expression.placeless, same]⟩
      simp only [isOpen, reads_bind_iff, reads_pure_iff]
      exact ⟨(found, middle.front.span), middle.advance, reads, rfl, rfl⟩
  | object members span =>
      obtain ⟨isOpen, middle, spelledMembers, isClose, rfl⟩ := enclosed_iff.mp spelled
      have shorter : before.advance.size < before.size := size_advance_lt (by simp [isOpen])
      obtain ⟨found, reads, same⟩ :=
        complete.members rfl (by decide) (by omega) wellShaped spelledMembers isClose
      refine ⟨.object found (before.front.span.union middle.front.span),
        .inr ⟨by simp [isOpen], ?_⟩, by simp [Expression.placeless, same]⟩
      simp only [isOpen, reads_bind_iff, reads_pure_iff]
      exact ⟨(found, middle.front.span), middle.advance, reads, rfl, rfl⟩
  -- No looser expression is a primary one.
  | binary left operator right span =>
      cases operator <;> cases isPrimary
  | _ => cases isPrimary

/-- The accesses and calls behind an expression go on from what has been read as that expression. -/
theorem chain (complete : below.Complete) (expression : Expression) {before after : TokenStream}
    (inside : before.size ≤ below.levels) (between : expression.Between before after)
    (tight : .member ≤ expression.precedence) :
    ∃ found levels, found.placeless = expression.placeless ∧ after.size < levels ∧
      ∀ {result behind}, Reads (below.accesses levels found) after result behind →
        Reads below.access before result behind := by
  -- A chain is read from its head on, so the induction goes down the parents, and each level
  -- hands on how the accesses behind it are read.
  by_cases isPrimary : expression.precedence = .primary
  · obtain ⟨found, reads, same⟩ := complete.primary inside between isPrimary
    have shorter := advances_ofExpression expression before after between.spelled
    exact ⟨found, below.levels, same, by omega,
      fun readsRest => reads_access_iff.mpr ⟨found, after, reads, readsRest⟩⟩
  · obtain ⟨wellShaped, spelled⟩ := between
    cases expression with
    | property parent name span =>
        obtain ⟨middle, spelledParent, _, ⟨isDot, rfl⟩, isName, rfl⟩ := spelled
        obtain ⟨found, levels, same, enough, goesOn⟩ :=
          chain complete parent inside ⟨wellShaped.2, spelledParent⟩ wellShaped.1
        obtain ⟨levels, rfl⟩ := Nat.exists_eq_succ_of_ne_zero (Nat.ne_zero_of_lt enough)
        have shorter : middle.advance.size < middle.size := size_advance_lt (by simp [isDot])
        have noLonger := middle.advance.size_advance
        refine ⟨.property found name (found.span.union middle.advance.front.span), levels,
          by simp [Expression.placeless, same], by omega, fun readsRest => goesOn ?_⟩
        exact (reads_accesses_dot_iff isDot).mpr ⟨name, isName, readsRest⟩
    | index parent key span =>
        obtain ⟨middle, spelledParent, spelledKey⟩ := spelled
        obtain ⟨isOpen, stop, spelledInner, isClose, rfl⟩ := enclosed_iff.mp spelledKey
        obtain ⟨found, levels, same, enough, goesOn⟩ :=
          chain complete parent inside ⟨wellShaped.2.1, spelledParent⟩ wellShaped.1
        obtain ⟨levels, rfl⟩ := Nat.exists_eq_succ_of_ne_zero (Nat.ne_zero_of_lt enough)
        have afterParent := advances_ofExpression parent before middle spelledParent
        have afterOpen : middle.advance.size < middle.size := size_advance_lt (by simp [isOpen])
        have afterKey := advances_ofExpression key middle.advance stop spelledInner
        have noLonger := stop.size_advance
        have stops : ¬ stop.front.lexeme.ContinuesExpression := by
          rw [isClose]
          exact Punctuator.not_continuesExpression rfl
        have betweenKey : key.Between middle.advance stop := ⟨wellShaped.2.2, spelledInner⟩
        obtain ⟨foundKey, readsKey, sameKey⟩ := complete.expression (by omega) betweenKey stops
        refine ⟨.index found foundKey (found.span.union stop.front.span), levels,
          by simp [Expression.placeless, same, sameKey], by omega, fun readsRest => goesOn ?_⟩
        exact (reads_accesses_bracket_iff isOpen).mpr ⟨foundKey, stop, readsKey, isClose, readsRest⟩
    | call callee arguments span =>
        obtain ⟨middle, spelledCallee, spelledArguments⟩ := spelled
        have afterArguments := advances_ofArguments arguments _ _ spelledArguments
        obtain ⟨isOpen, stop, spelledInner, isClose, rfl⟩ := enclosed_iff.mp spelledArguments
        obtain ⟨found, levels, same, enough, goesOn⟩ :=
          chain complete callee inside ⟨wellShaped.2.1, spelledCallee⟩ wellShaped.1
        obtain ⟨levels, rfl⟩ := Nat.exists_eq_succ_of_ne_zero (Nat.ne_zero_of_lt enough)
        have afterCallee := advances_ofExpression callee before middle spelledCallee
        have afterOpen : middle.advance.size < middle.size := size_advance_lt (by simp [isOpen])
        obtain ⟨items, readsItems, sameItems⟩ :=
          complete.expressions rfl (by decide) (by omega) wellShaped.2.2 spelledInner isClose
        refine ⟨.call found items (found.span.union stop.front.span), levels,
          by simp [Expression.placeless, same, sameItems], by omega, fun readsRest => goesOn ?_⟩
        exact (reads_accesses_parenthesis_iff isOpen).mpr ⟨items, _, _, readsItems, readsRest⟩
    | binary left operator right span =>
        exact absurd tight (Nat.not_le.mpr operator.precedence_lt_member)
    | unary operator operand span => exact absurd tight (by decide : ¬ Precedence.member ≤ .unary)
    | undefined span => exact absurd tight (by decide : ¬ Precedence.member ≤ .unary)
    | assign target value span =>
        exact absurd tight (by decide : ¬ Precedence.member ≤ .assignment)
    | _ => exact absurd rfl isPrimary

/-- Calls and properties that are spelled are read again. -/
theorem access {expression : Expression} (complete : below.Complete)
    (inside : before.size ≤ below.levels) (between : expression.Between before after)
    (tight : .member ≤ expression.precedence) (stops : ¬ after.front.lexeme.ContinuesAccess) :
    Recovers Expression.placeless below.access before expression after := by
  obtain ⟨found, levels, same, enough, goesOn⟩ := complete.chain expression inside between tight
  obtain ⟨levels, rfl⟩ := Nat.exists_eq_succ_of_ne_zero (Nat.ne_zero_of_lt enough)
  exact ⟨found, goesOn ((reads_accesses_of_not_continues stops).mpr ⟨rfl, rfl⟩), same⟩

/-- Expressions with unary operators that are spelled are read again. -/
theorem unaryExpression {expression : Expression} (complete : below.Complete)
    (inside : before.size ≤ below.levels) (between : expression.Between before after)
    (tight : .unary ≤ expression.precedence) (stops : ¬ after.front.lexeme.ContinuesAccess) :
    Recovers Expression.placeless below.unaryExpression before expression after := by
  by_cases isAccess : .member ≤ expression.precedence
  · have notOperator :=
      front_ofExpression_of_member expression between.spelled between.wellShaped isAccess
    obtain ⟨found, reads, same⟩ := complete.access inside between isAccess stops
    exact ⟨found, (reads_unaryExpression_of_none notOperator).mpr reads, same⟩
  · obtain ⟨wellShaped, spelled⟩ := between
    cases expression with
    | unary operator operand span =>
        obtain ⟨_, ⟨isOperator, rfl⟩, spelledOperand⟩ := spelled
        obtain ⟨tightOperand, notUndefined, wellShapedOperand⟩ := wellShaped
        have shorter : before.advance.size < before.size :=
          size_advance_lt (by cases operator <;> simp [isOperator, UnaryOperator.lexeme])
        have betweenOperand : operand.Between before.advance after :=
          ⟨wellShapedOperand, spelledOperand⟩
        obtain ⟨found, reads, same⟩ := complete.unary (by omega) betweenOperand tightOperand stops
        refine ⟨unaryOf operator found (before.front.span.union found.span),
          (reads_unaryExpression_of_operator isOperator).mpr ⟨found, reads, rfl⟩, ?_⟩
        have sameZero : found.isBareZero = operand.isBareZero := by
          rw [← Expression.isBareZero_placeless found, same, Expression.isBareZero_placeless]
        have kept : ∀ span, unaryOf operator found span = .unary operator found span := by
          intro span
          unfold unaryOf
          split
          · exact absurd ⟨rfl, sameZero.symm⟩ notUndefined
          · rfl
        rw [kept, Expression.placeless, Expression.placeless, same]
    | undefined span =>
        obtain ⟨_, ⟨isWord, rfl⟩, isZero⟩ := spelled
        have shorter : before.advance.size < before.size := size_advance_lt (by simp [isWord])
        have betweenZero : (Expression.number "0" .null).Between before.advance after :=
          ⟨trivial, isZero⟩
        obtain ⟨found, reads, same⟩ := complete.unary (by omega) betweenZero (by decide) stops
        obtain ⟨zeroSpan, rfl⟩ : ∃ span, found = .number "0" span := by
          rw [← Expression.isBareZero_iff, ← Expression.isBareZero_placeless, same]
          rfl
        have isOperator : before.front.lexeme = UnaryOperator.void.lexeme := isWord
        exact ⟨.undefined _, (reads_unaryExpression_of_operator isOperator).mpr
          ⟨_, reads, rfl⟩, rfl⟩
    | binary left operator right span =>
        exact absurd tight (Nat.not_le.mpr operator.precedence_lt_unary)
    | assign target value span => exact absurd tight (by decide : ¬ Precedence.unary ≤ .assignment)
    | _ => exact absurd (Nat.le_of_ble_eq_true rfl) isAccess

/-- The reader of operations is run on the operand in front of it. -/
def ReadsOperations (below : Grammar) (levels : Nat) (minimum : Precedence) (before : TokenStream)
    (result : Expression) (behind : TokenStream) : Prop :=
  ∃ operand middle, Reads below.unaryExpression before operand middle ∧
    Reads (below.operations levels minimum operand) middle result behind

/-- The operations behind an expression go on from what has been read as that expression. -/
theorem operands (complete : below.Complete) (expression : Expression) (levels : Nat)
    (minimum : Precedence) {before after : TokenStream} (inside : before.size ≤ below.levels)
    (small : before.size ≤ levels) (between : expression.Between before after)
    (high : .logicalOr ≤ expression.precedence) (tight : minimum ≤ expression.precedence)
    (stops : ¬ after.front.lexeme.ContinuesAccess)
    (fits : ∀ operator : BinaryOperator, after.front.lexeme = operator.lexeme →
      operator.precedence ≤ expression.precedence) :
    ∃ found enough, found.placeless = expression.placeless ∧ after.size < enough ∧
      ∀ {result behind}, Reads (below.operations enough minimum found) after result behind →
        ReadsOperations below levels minimum before result behind := by
  -- Operators of one precedence associate to the left. The left operand is read first, and what
  -- it hands on takes the operator and the right operand.
  by_cases isUnary : .unary ≤ expression.precedence
  · obtain ⟨found, reads, same⟩ := complete.unaryExpression inside between isUnary stops
    have shorter := advances_ofExpression expression before after between.spelled
    exact ⟨found, levels, same, by omega, fun readsRest => ⟨found, after, reads, readsRest⟩⟩
  · obtain ⟨wellShaped, spelled⟩ := between
    cases expression with
    | binary left operator right span =>
        obtain ⟨middle, spelledLeft, _, ⟨isOperator, rfl⟩, spelledRight⟩ := spelled
        obtain ⟨fitsLeft, tightRight, wellShapedLeft, wellShapedRight⟩ := wellShaped
        have notAccess : ¬ middle.front.lexeme.ContinuesAccess := by
          rw [isOperator]
          exact operator.not_continuesAccess
        have onlyOperator : ∀ other : BinaryOperator, middle.front.lexeme = other.lexeme →
            other.precedence ≤ left.precedence := by
          intro other isOther
          obtain rfl := BinaryOperator.lexeme_injective (isOperator.symm.trans isOther)
          exact fitsLeft
        have highLeft := Nat.le_trans high fitsLeft
        obtain ⟨foundLeft, enough, sameLeft, more, goesOn⟩ := operands complete left levels minimum
          inside small ⟨wellShapedLeft, spelledLeft⟩ highLeft (Nat.le_trans tight fitsLeft)
          notAccess onlyOperator
        obtain ⟨enough, rfl⟩ := Nat.exists_eq_succ_of_ne_zero (Nat.ne_zero_of_lt more)
        have afterLeft := advances_ofExpression left before middle spelledLeft
        have afterMark : middle.advance.size < middle.size :=
          size_advance_lt (by simp [isOperator, BinaryOperator.lexeme])
        have afterRight := advances_ofExpression right middle.advance after spelledRight
        -- Behind the right operand no operator binds more tightly, so its own loop stops there.
        have looser : ∀ other : BinaryOperator, after.front.lexeme = other.lexeme →
            other.precedence < operator.precedence + 1 :=
          fun other isOther => Nat.lt_succ_of_le (fits other isOther)
        have highRight := Nat.le_trans high (Nat.le_of_lt tightRight)
        obtain ⟨foundRight, enoughRight, sameRight, moreRight, goesOnRight⟩ :=
          operands complete right enough (operator.precedence + 1) (by omega) (by omega)
            ⟨wellShapedRight, spelledRight⟩ highRight tightRight stops
            (fun other isOther => Nat.le_trans (fits other isOther) (Nat.le_of_lt tightRight))
        obtain ⟨enoughRight, rfl⟩ := Nat.exists_eq_succ_of_ne_zero (Nat.ne_zero_of_lt moreRight)
        obtain ⟨operand, stop, readsOperand, readsRight⟩ :=
          goesOnRight ((reads_operations_of_looser looser).mpr ⟨rfl, rfl⟩)
        refine ⟨.binary foundLeft operator foundRight (foundLeft.span.union foundRight.span), enough,
          by simp [Expression.placeless, sameLeft, sameRight], by omega, fun readsRest =>
          goesOn ((reads_operations_of_operator isOperator tight).mpr ?_)⟩
        exact ⟨operand, stop, readsOperand, foundRight, after, readsRight, readsRest⟩
    | assign target value span => exact absurd high (by decide : ¬ Precedence.logicalOr ≤ .assignment)
    | _ => exact absurd (Nat.le_of_ble_eq_true rfl) isUnary

/-- Expressions with binary operators that are spelled are read again. -/
theorem binaryExpression {expression : Expression} (complete : below.Complete)
    (inside : before.size ≤ below.levels) (between : expression.Between before after)
    (high : .logicalOr ≤ expression.precedence) (stops : ¬ after.front.lexeme.ContinuesAccess)
    (notOperator : ∀ operator : BinaryOperator, after.front.lexeme ≠ operator.lexeme) :
    Recovers Expression.placeless (below.binaryExpression .logicalOr) before expression after := by
  obtain ⟨found, enough, same, more, goesOn⟩ := complete.operands expression below.levels
    .logicalOr inside inside between high high stops
    (fun operator isOperator => absurd isOperator (notOperator operator))
  obtain ⟨enough, rfl⟩ := Nat.exists_eq_succ_of_ne_zero (Nat.ne_zero_of_lt more)
  have ended : Reads (below.operations (enough + 1) .logicalOr found) after found after :=
    (reads_operations_of_looser fun operator isOperator =>
      absurd isOperator (notOperator operator)).mpr ⟨rfl, rfl⟩
  exact ⟨found, reads_binaryExpression_iff.mpr (goesOn ended), same⟩

/-- Assignments that are spelled are read again. -/
theorem assignment {expression : Expression} (complete : below.Complete)
    (inside : before.size ≤ below.levels) (between : expression.Between before after)
    (stops : ¬ after.front.lexeme.ContinuesExpression) :
    Recovers Expression.placeless below.assignment before expression after := by
  by_cases isOperation : .logicalOr ≤ expression.precedence
  · simp only [Lexeme.ContinuesExpression, not_or, not_exists] at stops
    obtain ⟨notOperator, notAssign, notAccess⟩ := stops
    obtain ⟨found, reads, same⟩ :=
      complete.binaryExpression inside between isOperation notAccess notOperator
    exact ⟨found, reads_assignment_iff.mpr ⟨found, after, reads, .inr ⟨notAssign, rfl, rfl⟩⟩, same⟩
  · obtain ⟨wellShaped, spelled⟩ := between
    cases expression with
    | assign target value span =>
        obtain ⟨middle, spelledTarget, _, ⟨isMark, rfl⟩, spelledValue⟩ := spelled
        obtain ⟨targets, wellShapedTarget, wellShapedValue⟩ := wellShaped
        have afterTarget := advances_ofExpression target before middle spelledTarget
        have afterMark : middle.advance.size < middle.size := size_advance_lt (by simp [isMark])
        have high : .logicalOr ≤ target.precedence := by
          cases target <;> first | exact Nat.le_of_ble_eq_true rfl | cases targets
        have notOperator : ∀ operator : BinaryOperator, middle.front.lexeme ≠ operator.lexeme := by
          intro operator
          cases operator <;> simp [isMark, BinaryOperator.lexeme, BinaryOperator.mark]
        obtain ⟨found, reads, same⟩ := complete.binaryExpression inside
          ⟨wellShapedTarget, spelledTarget⟩ high (by simp [isMark, Lexeme.ContinuesAccess])
          notOperator
        have betweenValue : value.Between middle.advance after := ⟨wellShapedValue, spelledValue⟩
        obtain ⟨foundValue, readsValue, sameValue⟩ :=
          complete.expression (by omega) betweenValue stops
        have isFoundTarget : isTarget found = true := by
          rw [isTarget_iff, ← Expression.isTarget_placeless, same, Expression.isTarget_placeless]
          exact targets
        refine ⟨.assign found foundValue (found.span.union foundValue.span), ?_,
          by simp [Expression.placeless, same, sameValue]⟩
        exact reads_assignment_iff.mpr ⟨found, middle, reads,
          .inl ⟨isMark, isFoundTarget, foundValue, readsValue, rfl⟩⟩
    | binary left operator right span => exact absurd operator.logicalOr_le_precedence isOperation
    | _ => exact absurd (Nat.le_of_ble_eq_true rfl) isOperation

/-- A declared name that is spelled is read again. -/
theorem declarator {item : Declarator} (complete : below.Complete)
    (inside : before.size < below.levels)
    (wellShaped : ∀ value, item.value = some value → value.WellShaped)
    (spelled : ofDeclarator item before after) (stops : ¬ item.ContinuedBy after.front.lexeme) :
    ∃ found, below.ReadsDeclarator before found after ∧ found.placeless = item.placeless := by
  rcases item with ⟨name, _ | value, span⟩
  · obtain ⟨isName, rfl⟩ := spelled
    exact ⟨⟨name, none, before.front.span⟩, ⟨isName, .inr ⟨stops, rfl, rfl, rfl⟩⟩, rfl⟩
  · obtain ⟨_, ⟨isName, rfl⟩, _, ⟨isMark, rfl⟩, spelledValue⟩ := spelled
    have afterName := before.size_advance
    have afterMark := before.advance.size_advance
    have between : value.Between before.advance.advance after :=
      ⟨wellShaped value rfl, spelledValue⟩
    obtain ⟨found, reads, same⟩ := complete.expression (by omega) between stops
    refine ⟨⟨name, some found, before.front.span.union found.span⟩,
      ⟨isName, .inl ⟨isMark, found, reads, rfl, rfl⟩⟩, ?_⟩
    simp [Declarator.placeless, Expression.placelessOption, same]

/-- The declared names that are spelled are read again. -/
theorem declarators {items : List Declarator} (complete : below.Complete)
    (small : before.size < levels) (inside : before.size < below.levels)
    (between : Declarator.AllBetween before items after) :
    Recovers Declarator.placelessAll (below.declarators levels) before items after := by
  simp only [Recovers, Declarator.placelessAll_eq_map]
  induction levels generalizing before items with
  | zero => omega
  | succ levels inductionHypothesis =>
      obtain ⟨nonempty, wellShaped, spelled, notComma, notContinued⟩ := between
      cases items with
      | nil => exact absurd rfl nonempty
      | cons first rest =>
          rw [Declarator.allWellShaped_cons_iff] at wellShaped
          rw [ofDeclarators_cons, separated_cons_iff] at spelled
          obtain ⟨middle, spelledFirst, continues⟩ := spelled
          rcases continues with ⟨isLast, rfl⟩ | ⟨notLast, isComma, spelledRest⟩
          · obtain rfl := ofDeclarators_eq_nil_iff.mp isLast
            obtain ⟨found, reads, same⟩ :=
              complete.declarator inside wellShaped.1 spelledFirst (notContinued first rfl)
            refine ⟨[found], reads_declarators_succ_iff.mpr
              ⟨found, after, reads, .inr ⟨notComma, rfl, rfl⟩⟩, ?_⟩
            rw [List.map_singleton, List.map_singleton, same]
          · have isSome := mt ofDeclarators_eq_nil_iff.mpr notLast
            obtain ⟨found, reads, same⟩ :=
              complete.declarator inside wellShaped.1 spelledFirst
                (first.not_continuedBy_comma isComma)
            have afterFirst := (bounded_ofDeclarator first).size_le spelledFirst
            have afterComma : middle.advance.size < middle.size :=
              size_advance_lt (by simp [isComma])
            rw [List.getLast?_cons_of_ne_nil isSome] at notContinued
            obtain ⟨foundRest, readsRest, sameRest⟩ := inductionHypothesis (by omega) (by omega)
              ⟨isSome, wellShaped.2, spelledRest, notComma, notContinued⟩
            refine ⟨found :: foundRest, reads_declarators_succ_iff.mpr
              ⟨found, middle, reads, .inl ⟨isComma, foundRest, readsRest, rfl⟩⟩, ?_⟩
            rw [List.map_cons, List.map_cons, same, sameRest]

/-- A declaration that is spelled is read again. -/
theorem declaration {word : DeclarationWord} {items : List Declarator} {span : Span}
    (complete : below.Complete) (inside : before.size ≤ below.levels)
    (wellShaped : (Statement.declaration word items span).WellShaped)
    (spelled : ofStatement (.declaration word items span) before after)
    (ends : (Statement.declaration word items span).EndsBefore after.front) :
    Recovers Statement.placeless below.declaration before (.declaration word items span) after := by
  obtain ⟨_, ⟨isWord, rfl⟩, spelledItems⟩ := spelled
  have shorter : before.advance.size < before.size := size_advance_lt (by simp [isWord])
  have notContinued := ends.notContinued
  simp only [Statement.ContinuedBy, not_or, not_exists, not_and] at notContinued
  have between : Declarator.AllBetween before.advance items after :=
    ⟨wellShaped.1, wellShaped.2, spelledItems, notContinued.1, notContinued.2⟩
  obtain ⟨found, reads, same⟩ : Recovers Declarator.placelessAll (below.declarators below.levels)
      before.advance items after := complete.declarators (by omega) (by omega) between
  refine ⟨_, reads_declaration_iff.mpr ⟨word, isWord, found, reads, rfl⟩, ?_⟩
  rw [Statement.placeless, Statement.placeless, same]

/-- A branch that is spelled is read again, unless a second branch follows an open one. -/
theorem branch {branch : Branch} (complete : below.Complete)
    (inside : before.size < below.levels) (wellShaped : branch.WellShaped)
    (spelled : ofBranch branch before after)
    (notElse : branch.endsOpen = true → after.front.lexeme ≠ .keyword .elseKw) :
    Recovers Branch.placeless (Grammar.branch below.statement) before branch after := by
  cases branch with
  | braced block =>
      have ends : (Statement.block block).EndsBefore after.front :=
        Statement.endsBefore_of_not_needs rfl (by simp [Statement.endsOpen])
      have wellShapedBlock : (Statement.block block).WellShaped := wellShaped
      obtain ⟨found, reads, same⟩ := complete.statement inside wellShapedBlock spelled ends
      obtain ⟨inner, rfl, sameBlock⟩ := Statement.placeless_eq_block_iff.mp same
      refine ⟨.braced inner, reads_branch_iff.mpr (.inl ⟨inner, reads, rfl⟩), ?_⟩
      rw [Branch.placeless, Branch.placeless, sameBlock]
  | single statement =>
      obtain ⟨middle, spelledStatement, ended⟩ := spelled
      have ends : statement.EndsBefore middle.front := by
        by_cases needs : statement.needsSemicolon = true
        · exact Statement.endsBefore_of_ending needs ended
        · obtain rfl : after = middle := by simpa [Statement.ending, needs] using ended
          exact Statement.endsBefore_of_not_needs (by simpa using needs) notElse
      obtain ⟨found, reads, same⟩ := complete.statement inside wellShaped.2 spelledStatement ends
      have other : ∀ inner, found ≠ .block inner := by
        rintro inner rfl
        obtain ⟨block, isBlock, _⟩ := Statement.placeless_eq_block_iff.mp same.symm
        exact wellShaped.1 block isBlock
      refine ⟨.single found, reads_branch_iff.mpr (.inr ⟨found, middle, reads, other,
        Statement.closes_of_placeless same ended, rfl⟩), ?_⟩
      rw [Branch.placeless, Branch.placeless, same]

/-- A conditional that is spelled is read again. -/
theorem conditional {condition : Expression} {consequent : Branch} {alternate : Option Branch}
    {span : Span} (complete : below.Complete) (inside : before.size ≤ below.levels)
    (wellShaped : (Statement.conditional condition consequent alternate span).WellShaped)
    (spelled : ofStatement (.conditional condition consequent alternate span) before after)
    (ends : (Statement.conditional condition consequent alternate span).EndsBefore after.front) :
    Recovers Statement.placeless below.conditional before
      (.conditional condition consequent alternate span) after := by
  obtain ⟨_, ⟨isWord, rfl⟩, start, spelledCondition, behind, spelledBranch, spelledAlternate⟩ :=
    spelled
  obtain ⟨isOpen, middle, spelledInner, isClose, rfl⟩ := enclosed_iff.mp spelledCondition
  obtain ⟨wellShapedCondition, wellShapedBranch, closed, wellShapedAlternate⟩ := wellShaped
  have afterWord : before.advance.size < before.size := size_advance_lt (by simp [isWord])
  have afterOpen := before.advance.size_advance
  have afterCondition := advances_ofExpression condition _ _ spelledInner
  have afterClose := middle.size_advance
  have afterBranch := advances_ofBranch consequent _ _ spelledBranch
  have stops : ¬ middle.front.lexeme.ContinuesExpression := by
    rw [isClose]
    exact Punctuator.not_continuesExpression rfl
  have between : condition.Between before.advance.advance middle :=
    ⟨wellShapedCondition, spelledInner⟩
  obtain ⟨foundCondition, readsCondition, sameCondition⟩ :=
    complete.expression (by omega) between stops
  cases alternate with
  | none =>
      obtain rfl : after = behind := spelledAlternate
      have notElse := ends.notElse rfl
      obtain ⟨found, reads, same⟩ :=
        complete.branch (by omega) wellShapedBranch spelledBranch fun _ => notElse
      refine ⟨_, reads_conditional_iff.mpr ⟨isWord, isOpen, foundCondition, middle, readsCondition,
        isClose, found, after, reads, .inr ⟨notElse, rfl, rfl⟩⟩, ?_⟩
      simp [Statement.placeless, sameCondition, same, Branch.placelessOption]
  | some alternate =>
      obtain ⟨_, ⟨isElse, rfl⟩, spelledLast⟩ := spelledAlternate
      have afterElse := behind.size_advance
      have isClosed := closed (by simp)
      obtain ⟨found, reads, same⟩ :=
        complete.branch (by omega) wellShapedBranch spelledBranch (by simp [isClosed])
      obtain ⟨foundLast, readsLast, sameLast⟩ :=
        complete.branch (by omega) wellShapedAlternate spelledLast ends.notElse
      refine ⟨_, reads_conditional_iff.mpr ⟨isWord, isOpen, foundCondition, middle, readsCondition,
        isClose, found, behind, reads, .inl ⟨isElse, foundLast, readsLast, rfl⟩⟩, ?_⟩
      simp [Statement.placeless, sameCondition, same, sameLast, Branch.placelessOption]

/-- A return statement that is spelled is read again. -/
theorem returning {value : Option Expression} {span : Span} (complete : below.Complete)
    (inside : before.size ≤ below.levels)
    (wellShaped : (Statement.returning value span).WellShaped)
    (spelled : ofStatement (.returning value span) before after)
    (ends : (Statement.returning value span).EndsBefore after.front) :
    Recovers Statement.placeless below.returning before (.returning value span) after := by
  cases value with
  | none =>
      obtain ⟨isWord, rfl⟩ := spelled
      exact ⟨_, reads_returning_iff.mpr (.inl ⟨ends.endsReturn span rfl, rfl, rfl⟩), rfl⟩
  | some value =>
      obtain ⟨_, ⟨isWord, rfl⟩, sameLine, spelledValue⟩ := spelled
      have shorter : before.advance.size < before.size := size_advance_lt (by simp [isWord])
      have between : value.Between before.advance after := ⟨wellShaped, spelledValue⟩
      obtain ⟨found, reads, same⟩ :=
        complete.expression (by omega) between ends.notContinued
      have starts := (front_ofExpression value spelledValue).1
      have goesOn : ¬ EndsReturn before.advance.front := by
        rintro (breaks | isMark | isBrace | atEnd)
        · simp [sameLine] at breaks
        · exact absurd (isMark ▸ starts) (by decide)
        · exact absurd (isBrace ▸ starts) (by decide)
        · exact absurd (atEnd ▸ starts) (by decide)
      refine ⟨_, reads_returning_iff.mpr (.inr ⟨goesOn, found, reads, rfl⟩), ?_⟩
      simp [Statement.placeless, Expression.placelessOption, same]

/-- Every statement that is spelled is read again, by its first token. -/
theorem anyStatement {statement : Statement} (complete : below.Complete)
    (inside : before.size ≤ below.levels) (wellShaped : statement.WellShaped)
    (spelled : ofStatement statement before after) (ends : statement.EndsBefore after.front) :
    Recovers Statement.placeless below.anyStatement before statement after := by
  cases statement with
  | expression value span =>
      have between : value.Between before after := ⟨wellShaped.2, spelled⟩
      obtain ⟨found, reads, same⟩ := complete.assignment inside between ends.notContinued
      refine ⟨.expression found found.span, ?_, by simp [Statement.placeless, same]⟩
      rw [reads_anyStatement_of_expression value spelled wellShaped.1]
      exact ⟨found, reads, rfl⟩
  | declaration word items span =>
      obtain ⟨found, reads, same⟩ := complete.declaration inside wellShaped spelled ends
      obtain ⟨_, ⟨isWord, _⟩, _⟩ := spelled
      refine ⟨found, ?_, same⟩
      rw [Grammar.anyStatement, reads_peek_bind_iff, isWord]
      cases word <;> exact reads
  | function definition =>
      have isWord := front_ofFunction spelled
      obtain ⟨found, reads, same⟩ :=
        complete.functionDef inside wellShaped.2 (fun _ => wellShaped.1) spelled
      refine ⟨.function found, ?_, by simp [Statement.placeless, same]⟩
      rw [Grammar.anyStatement, reads_peek_bind_iff, isWord]
      exact reads_bind_iff.mpr ⟨found, after, reads, reads_pure_iff.mpr ⟨rfl, rfl⟩⟩
  | conditional condition consequent alternate span =>
      obtain ⟨found, reads, same⟩ := complete.conditional inside wellShaped spelled ends
      obtain ⟨_, ⟨isWord, _⟩, _⟩ := spelled
      refine ⟨found, ?_, same⟩
      rw [Grammar.anyStatement, reads_peek_bind_iff, isWord]
      exact reads
  | returning value span =>
      have isWord : before.front.lexeme = .keyword .returnKw := by
        cases value with
        | none => exact spelled.1
        | some value => exact (front_inOrder spelled).elim fun _ => And.left
      obtain ⟨found, reads, same⟩ := complete.returning inside wellShaped spelled ends
      refine ⟨found, ?_, same⟩
      rw [Grammar.anyStatement, reads_peek_bind_iff, isWord]
      exact reads
  | block inner =>
      have isBrace := front_ofBlock spelled
      obtain ⟨found, reads, same⟩ := complete.block inside wellShaped spelled
      refine ⟨.block found, ?_, by simp [Statement.placeless, same]⟩
      rw [Grammar.anyStatement, reads_peek_bind_iff, isBrace]
      exact reads_bind_iff.mpr ⟨found, after, reads, reads_pure_iff.mpr ⟨rfl, rfl⟩⟩
  | empty span =>
      obtain ⟨isMark, rfl⟩ := spelled
      refine ⟨.empty before.front.span, ?_, rfl⟩
      rw [Grammar.anyStatement, reads_peek_bind_iff, isMark]
      exact reads_next_bind_iff.mpr (reads_pure_iff.mpr ⟨rfl, rfl⟩)

end Complete

/-- Every reader of the grammar finds what is spelled by fewer tokens than it has levels. -/
theorem complete_within (levels : Nat) : (within levels).Complete := by
  induction levels with
  | zero =>
      exact ⟨fun small => absurd small (Nat.not_lt_zero _),
        fun small => absurd small (Nat.not_lt_zero _), fun small => absurd small (Nat.not_lt_zero _)⟩
  | succ levels inductionHypothesis =>
      have inside : ∀ {before : TokenStream}, before.size < (within (levels + 1)).levels →
          before.size ≤ (within levels).levels := by
        intro before small
        rw [levels_within]
        exact Nat.le_of_lt_succ small
      exact ⟨fun small => inductionHypothesis.assignment (inside small),
        fun small => inductionHypothesis.unaryExpression (inside small),
        fun small => inductionHypothesis.anyStatement (inside small)⟩

end Grammar

/-- Any number of levels that is greater than the number of tokens is enough. -/
theorem Script.recovers_of_spelledBy {stream : TokenStream} {script : Script} {levels : Nat}
    (small : stream.size < levels) (wellShaped : script.WellShaped)
    (spelled : script.SpelledBy stream) :
    ∃ rest, rest.front.lexeme = .endOfSource ∧ Parser.Recovers Statement.placelessAll
      (Grammar.statements (Grammar.within levels).anyStatement levels) stream script.items rest := by
  obtain ⟨rest, spelledItems, atEnd⟩ := spelled
  have complete := Grammar.complete_within levels
  rw [← Grammar.levels_within levels] at small
  refine ⟨rest, atEnd, ?_⟩
  have recovers := Grammar.Complete.statements complete.anyStatement small (Nat.le_of_lt small)
    wellShaped spelledItems (.inr atEnd)
  rwa [Grammar.levels_within] at recovers

/-- What is spelled by a stream is read from it. -/
theorem Script.reads_of_spelledBy {stream : TokenStream} {script : Script}
    (wellShaped : script.WellShaped) (spelled : script.SpelledBy stream) :
    ∃ found rest, Parser.Reads Parser.script stream found rest ∧
      found.placeless = script.placeless := by
  obtain ⟨rest, atEnd, items, reads, same⟩ :=
    Script.recovers_of_spelledBy (Nat.lt_succ_self _) wellShaped spelled
  refine ⟨⟨items, ⟨0, rest.front.span.stop⟩⟩, rest,
    Parser.reads_script_iff.mpr ⟨reads, atEnd, rfl⟩, ?_⟩
  rw [Script.placeless, Script.placeless, same]

/-- The parser accepts exactly the token streams that spell a well-shaped script, and then it
returns that script. -/
theorem Script.reads_iff_spelledBy (stream : TokenStream) (script : Script) :
    (∃ found rest, Parser.Reads Parser.script stream found rest ∧
        found.placeless = script.placeless) ↔
      script.WellShaped ∧ script.SpelledBy stream := by
  constructor
  · rintro ⟨found, rest, reads, same⟩
    obtain ⟨wellShaped, spelled⟩ := Script.spelledBy_of_reads reads
    exact ⟨wellShaped.of_placeless same, spelled.of_placeless same⟩
  · rintro ⟨wellShaped, spelled⟩
    exact Script.reads_of_spelledBy wellShaped spelled

end ScriptStrip
