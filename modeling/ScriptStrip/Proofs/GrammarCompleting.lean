import ScriptStrip.Proofs.Completing
/-
This file shows of each reader of the grammar that what it has read in front of a refused token can
be completed.
-/

namespace ScriptStrip

namespace Grammar
open ScriptStrip.Parser ScriptStrip.TokenStream Spelling

/-- An expression that binds at least as tightly as `minimum`. -/
def tightExpression (minimum : Precedence) : Spelling :=
  oneOf (fun expression : Expression => minimum ≤ expression.precedence ∧ expression.WellShaped)
    ofExpression

/-- Some well shaped expression is written. -/
def anyExpression : Spelling := oneOf Expression.WellShaped ofExpression

/-- Items with commas between them and the mark behind them. -/
def closedList {Item : Type} (close : Punctuator) (good : Item → Prop)
    (spelling : Item → Spelling) : Spelling :=
  oneOf (fun items : List Item => ∀ item ∈ items, good item) fun items =>
    (listed (items.map spelling)).andThen (mark close)

/-- What stands behind the name of a function. -/
def parametersAndBody : Spelling :=
  (mark .openParenthesis).andThen
    ((closedList .closeParenthesis (fun _ => True) Spelling.identifier).andThen
      (oneOf Block.WellShaped ofBlock))

/-- One or more declared names are written. -/
def anyDeclarators : Spelling :=
  oneOf (fun items => items ≠ [] ∧ Declarator.AllWellShaped items) fun items =>
    separated (ofDeclarators items)

/-- The branches of a condition. -/
def anyBranches : Spelling :=
  oneOf (fun branches : Branch × Option Branch => branches.1.WellShaped ∧
      (branches.2 ≠ none → branches.1.endsOpen = false) ∧ Branch.AlternateWellShaped branches.2)
    fun branches => (ofBranch branches.1).andThen (ofAlternate branches.2)

/-- Where a reader of the level fails, what it has read can be completed. -/
structure Completes (below : Grammar) : Prop where
  expression : ∀ {before error}, before.size < below.levels →
    Refuses below.expression before error → Viable False False before error anyExpression
  unary : ∀ {before error}, before.size < below.levels →
    Refuses below.unary before error → Viable False False before error (tightExpression .unary)
  statement : ∀ {before error}, before.size < below.levels →
    Refuses below.statement before error →
      Viable True False before error (oneOf Statement.WellShaped ofStatement)

section

variable {closing : Prop}

/-- Wherever an expression is missing, a name can be written. -/
theorem fills_tightExpression : (tightExpression .primary).Fills closing :=
  (fills_identifier "x").mono fun spelled =>
    ⟨.reference "x" .null, ⟨Nat.le_refl _, trivial⟩, spelled⟩

/-- Wherever any expression is missing, a name can be written. -/
theorem fills_anyExpression : anyExpression.Fills closing :=
  fills_tightExpression.mono fun ⟨expression, ⟨_, wellShaped⟩, spelled⟩ =>
    ⟨expression, wellShaped, spelled⟩

/-- Wherever a list is to be closed, its mark can be written. -/
theorem fills_closedList {Item : Type} {close : Punctuator} {good : Item → Prop}
    {spelling : Item → Spelling} : (closedList close good spelling).Fills closing :=
  (fills_mark close).mono fun {before _} spelled => ⟨[], by simp, before, rfl, spelled⟩

/-- Wherever a block is missing, an empty one can be written. -/
theorem fills_ofBlock : (oneOf Block.WellShaped ofBlock).Fills closing :=
  ((fills_mark .openBrace).andThen (fills_mark .closeBrace)).mono
    fun ⟨middle, isOpen, isClose⟩ => ⟨⟨[], .null⟩, trivial, middle, isOpen, middle, rfl, isClose⟩

/-- Wherever a statement is missing, an empty one can be written. -/
theorem fills_ofStatement : (oneOf Statement.WellShaped ofStatement).Fills closing :=
  (fills_mark .semicolon).mono fun isMark => ⟨.empty .null, trivial, isMark⟩

/-- Wherever branches are missing, one empty block can be written. -/
theorem fills_anyBranches : anyBranches.Fills closing :=
  fills_ofBlock.mono fun {_ after} ⟨block, wellShaped, spelled⟩ =>
    ⟨(.braced block, none), ⟨wellShaped, fun isSome => absurd rfl isSome, trivial⟩, after, spelled,
      rfl⟩

/-- Wherever the rest of a function is missing, an empty one can be written. -/
theorem fills_parametersAndBody : parametersAndBody.Fills closing :=
  (fills_mark .openParenthesis).andThen (fills_closedList.andThen fills_ofBlock)

end

variable {below : Grammar} {levels : Nat} {before : TokenStream} {error : SyntaxError}

/-- In front of a closing brace, statements can end. -/
theorem closeBrace_closes (rest : TokenStream) :
    ∃ middle : TokenStream, (True → middle.front.ClosesStatements) ∧ mark .closeBrace middle rest :=
  ⟨rest.push ⟨.punctuator .closeBrace, .null, false⟩ (by simp), fun _ => .inl rfl, rfl, rfl⟩

/-- A list that is refused can be completed up to the error, if its items can. -/
theorem viable_itemsUntil {Item : Type} {close : Punctuator} {item : Parser Item}
    {good : Item → Prop} {spelling : Item → Spelling} {limit : Nat}
    (each : ∀ {before value after}, Reads item before value after →
      good value ∧ spelling value before after)
    (portable : ∀ value, (spelling value).Portable False)
    (advances : ∀ value, (spelling value).Advances)
    (completes : ∀ {before error}, before.size < limit → Refuses item before error →
      Viable False False before error (oneOf good spelling))
    (small : before.size < levels) (inside : before.size < limit)
    (refuses : Refuses (itemsUntil close item levels) before error) :
    Viable False False before error (closedList close good spelling) := by
  induction levels generalizing before with
  | zero => exact absurd small (Nat.not_lt_zero _)
  | succ levels step =>
      rw [itemsUntil, refuses_accept?_bind_iff] at refuses
      rcases refuses with ⟨_, refuses⟩ | ⟨_, refuses⟩
      · exact absurd refuses not_refuses_pure
      rcases refuses_bind_iff.mp refuses with refusesFirst | ⟨first, middle, readsFirst, refuses⟩
      -- The error is in the first item, and the list can be closed behind it.
      · refine ((completes inside refusesFirst).andFill (fills_mark close)).mono ?_
        rintro _ _ _ ⟨middle, ⟨value, isGood, spelled⟩, isClose⟩
        exact ⟨[value], by simpa using isGood, middle,
          listed_cons_iff.mpr ⟨middle, spelled, .inl ⟨rfl, rfl⟩⟩, isClose⟩
      · obtain ⟨isGood, spelled⟩ := each readsFirst
        have shorter := (advances first _ _ spelled).2
        rw [refuses_accept?_bind_iff] at refuses
        rcases refuses with ⟨isComma, refuses⟩ | ⟨_, refuses⟩
        · have further := middle.size_advance
          have refusesRest : Refuses (itemsUntil close item levels) middle.advance error := by
            simpa [refuses_bind_iff] using refuses
          have viable := (step (by omega) (by omega) refusesRest).after (portable_mark .comma)
            ⟨isComma, rfl⟩ False.elim
          refine (viable.after (portable first) spelled False.elim).mono ?_
          rintro _ _ _ ⟨behind, spelledFirst, _, ⟨isComma, rfl⟩, rest, goodRest, stop, spelledRest,
            isClose⟩
          exact ⟨first :: rest, List.forall_mem_cons.mpr ⟨isGood, goodRest⟩, stop,
            listed_cons_iff.mpr ⟨behind, spelledFirst, .inr ⟨isComma, spelledRest⟩⟩, isClose⟩
        -- There is no comma behind the item, so the error is the missing end of the list.
        · have viable : Viable False False middle error (mark close) :=
            .expectLast refuses (by simp)
          refine (viable.after (portable first) spelled False.elim).mono ?_
          rintro _ _ _ ⟨behind, spelledFirst, isClose⟩
          exact ⟨[first], by simpa using isGood, behind,
            listed_cons_iff.mpr ⟨behind, spelledFirst, .inl ⟨rfl, rfl⟩⟩, isClose⟩

namespace Completes

/-- A list of expressions can be completed up to the error. -/
theorem items {close : Punctuator} (sound : below.Sound) (completes : below.Completes)
    (inside : before.size < below.levels)
    (refuses : Refuses (itemsUntil close below.expression below.levels) before error) :
    Viable False False before error (closedList close Expression.WellShaped ofExpression) :=
  viable_itemsUntil
    (fun reads => ⟨(sound.expression reads).1.wellShaped, (sound.expression reads).1.spelled⟩)
    portable_ofExpression advances_ofExpression completes.expression inside inside refuses

/-- A member can be completed up to the error. -/
theorem member (completes : below.Completes) (inside : before.size < below.levels)
    (refuses : Refuses below.member before error) :
    Viable False False before error (oneOf (fun member : Member => member.value.WellShaped)
      fun member => inOrder [one member.key.IsWrittenAs, mark .colon, ofExpression member.value]) := by
  rcases refuses_bind_iff.mp refuses with refusesKey | ⟨key, _, readsKey, refuses⟩
  · obtain ⟨_, rfl⟩ := refuses_propertyKey_iff.mp refusesKey
    have isWritten : (PropertyKey.identifier "x" .null).IsWrittenAs (.identifier "x") := .inl rfl
    have fillsKey : (one (PropertyKey.identifier "x" .null).IsWrittenAs).Fills False :=
      fills_one isWritten (by simp)
    refine .here rfl ((fillsKey.andThen ((fills_mark .colon).andThen fills_anyExpression)).mono ?_)
    rintro _ _ ⟨_, isKey, _, isColon, value, wellShaped, spelled⟩
    exact ⟨⟨.identifier "x" .null, value, .null⟩, wellShaped, _, isKey, _, isColon, spelled⟩
  · obtain ⟨isKey, _, rfl⟩ := reads_propertyKey_iff.mp readsKey
    have shorter := before.size_advance
    have viable : Viable False False before.advance error ((mark .colon).andThen anyExpression) := by
      refine .expect refuses (by simp) fills_anyExpression fun further refuses => ?_
      exact completes.expression (by omega) (by simpa [refuses_bind_iff] using refuses)
    refine (viable.after (portable_key key) ⟨isKey, rfl⟩ False.elim).mono ?_
    rintro _ _ _ ⟨_, isKey, _, isColon, value, wellShaped, spelled⟩
    exact ⟨⟨key, value, .null⟩, wellShaped, _, isKey, _, isColon, spelled⟩

/-- The members of an object can be completed up to the error. -/
theorem members {close : Punctuator} (sound : below.Sound) (completes : below.Completes)
    (inside : before.size < below.levels)
    (refuses : Refuses (itemsUntil close below.member below.levels) before error) :
    Viable False False before error (oneOf Member.AllWellShaped fun members =>
      (listed (ofMembers members)).andThen (mark close)) := by
  have portable (member : Member) : (inOrder [one member.key.IsWrittenAs, mark .colon,
      ofExpression member.value]).Portable False :=
    (portable_key member.key).andThen
      ((portable_mark .colon).andThen (portable_ofExpression member.value))
  have viable := viable_itemsUntil (fun reads => sound.member reads) portable
    (fun member => advances_member member.key (advances_ofExpression member.value))
    completes.member inside inside refuses
  refine viable.mono ?_
  rintro _ _ _ ⟨members, wellShaped, spelled⟩
  rw [← ofMembers_eq_map] at spelled
  exact ⟨members, Member.allWellShaped_iff.mpr wellShaped, spelled⟩

/-- A statement that needs a semicolon is refused where the semicolon is. -/
theorem refuses_closing_iff {Value : Type} {statement : Statement} {following : Parser Value} :
    Refuses (do
        if statement.needsSemicolon then semicolon
        following) before error ↔
      statement.needsSemicolon = true ∧ Refuses semicolon before error ∨
        ∃ after, statement.Closes before after ∧ Refuses following after error := by
  by_cases needs : statement.needsSemicolon = true
  · simp [needs, Statement.Closes, refuses_bind_iff]
  · simp [needs, Statement.Closes]

/-- A semicolon that is refused is missing in front of something that closes the statement. -/
theorem viable_ending {statement : Statement} {settled : Prop}
    (refuses : Refuses semicolon before error) :
    Viable True settled before error statement.ending := by
  obtain ⟨_, _, rfl⟩ := refuses_semicolon_iff.mp refuses
  exact .done rfl fun _ closes => Statement.ending_of_closes_front closes

/-- Statements in a row can be completed up to the error. -/
theorem statements {statement : Parser Statement} {limit : Nat}
    (each : ∀ {before value after}, Reads statement before value after →
      value.WellShaped ∧ ofStatement value before after ∧ value.EndsBefore after.front)
    (completes : ∀ {before error}, before.size < limit → Refuses statement before error →
      Viable True False before error (oneOf Statement.WellShaped ofStatement))
    (small : before.size < levels) (inside : before.size < limit)
    (refuses : Refuses (Grammar.statements statement levels) before error) :
    Viable True True before error (oneOf Statement.AllWellShaped ofStatements) := by
  induction levels generalizing before with
  | zero => exact absurd small (Nat.not_lt_zero _)
  | succ levels step =>
      rw [Grammar.statements, refuses_peek_bind_iff, refuses_ite_iff] at refuses
      rcases refuses with ⟨_, refuses⟩ | ⟨_, refuses⟩
      · exact absurd refuses not_refuses_pure
      rcases refuses_bind_iff.mp refuses with refusesFirst | ⟨first, middle, readsFirst, refuses⟩
      · have viable : Viable True False before error
            (oneOf Statement.AllWellShaped ofStatements) := by
          refine (completes inside refusesFirst).mono ?_
          rintro _ rest closes ⟨single, wellShaped, spelled⟩
          exact ⟨[single], ⟨wellShaped, trivial⟩, rest, spelled, rest,
            Statement.ending_of_closes_front (closes trivial), rfl⟩
        exact viable.settle fun rest _ => ⟨[], trivial, rfl⟩
      · obtain ⟨wellShaped, spelled, ends⟩ := each readsFirst
        have shorter := (advances_ofStatement first _ _ spelled).2
        rcases refuses_closing_iff.mp refuses with ⟨_, refuses⟩ | ⟨behind, closes, refuses⟩
        · have viable : Viable True True middle error first.ending := viable_ending refuses
          refine (viable.after (portable_ofStatement first) spelled .inl).mono ?_
          rintro _ rest _ ⟨middle, spelled, ended⟩
          exact ⟨[first], ⟨wellShaped, trivial⟩, middle, spelled, rest, ended, rfl⟩
        · have ended := Statement.ending_of_closes closes ends
          have further := (bounded_ending first).size_le ended
          have refusesRest : Refuses (Grammar.statements statement levels) behind error := by
            simpa [refuses_bind_iff] using refuses
          have viable := (step (by omega) (by omega) refusesRest).after (portable_ending first)
            ended .inl
          refine (viable.after (portable_ofStatement first) spelled .inl).mono ?_
          rintro _ _ _ ⟨middle, spelled, behind, ended, rest, wellShapedRest, spelledRest⟩
          exact ⟨first :: rest, ⟨wellShaped, wellShapedRest⟩, middle, spelled, behind, ended,
            spelledRest⟩

/-- A block can be completed up to the error. -/
theorem block (sound : below.Sound) (completes : below.Completes)
    (inside : before.size ≤ below.levels) (refuses : Refuses below.block before error) :
    Viable False False before error (oneOf Block.WellShaped ofBlock) := by
  have viable : Viable False False before error ((mark .openBrace).andThen
      ((oneOf Statement.AllWellShaped ofStatements).andThen (mark .closeBrace))) := by
    refine .expect refuses (by simp) ?_ fun shorter refuses => ?_
    · exact (fills_mark .closeBrace).mono fun {middle _} isClose =>
        ⟨middle, ⟨[], trivial, rfl⟩, isClose⟩
    rcases refuses_bind_iff.mp refuses with refusesItems | ⟨items, middle, readsItems, refuses⟩
    · have viable :=
        statements sound.statement completes.statement (by omega) (by omega) refusesItems
      exact (viable.andThen fun rest _ => closeBrace_closes rest).weaken id
    · obtain ⟨wellShaped, spelled⟩ := Sound.statements sound.statement readsItems
      have same : error.span = middle.front.span := by
        obtain ⟨_, rfl⟩ := by simpa [refuses_bind_iff] using refuses
        rfl
      have nothingLeft : Viable True True middle error nothing := .done same fun _ _ => rfl
      have viable : Viable False True middle error (nothing.andThen (mark .closeBrace)) :=
        nothingLeft.andThen fun rest _ => closeBrace_closes rest
      refine ((viable.after (portable_ofStatements items) spelled .inl).weaken id).mono ?_
      rintro _ _ _ ⟨_, spelled, middle, rfl, isClose⟩
      exact ⟨middle, ⟨items, wellShaped, spelled⟩, isClose⟩
  refine viable.mono ?_
  rintro _ _ _ ⟨middle, isOpen, behind, ⟨items, wellShaped, spelled⟩, isClose⟩
  exact ⟨⟨items, .null⟩, wellShaped, middle, isOpen, behind, spelled, isClose⟩

/-- The parameters and the body of a function can be completed up to the error. -/
theorem functionTail {name : Option String} {start : Span} (sound : below.Sound)
    (completes : below.Completes) (inside : before.size < below.levels)
    (refuses : Refuses (below.functionTail start name) before error) :
    Viable False False before error parametersAndBody := by
  have eachParameter {before : TokenStream} {parameter : String} {after : TokenStream}
      (reads : Reads (Prod.fst <$> identifier "function parameter") before parameter after) :
      True ∧ Spelling.identifier parameter before after := ⟨trivial, reads_name_iff.mp reads⟩
  have parameterRefused {before : TokenStream} {error : SyntaxError}
      (refuses : Refuses (Prod.fst <$> identifier "function parameter") before error) :
      Viable False False before error (oneOf (fun _ => True) Spelling.identifier) := by
    obtain ⟨_, rfl⟩ := by simpa using refuses
    exact .here rfl ((fills_identifier "x").mono fun spelled => ⟨"x", trivial, spelled⟩)
  refine .expect refuses (by simp) (fills_closedList.andThen fills_ofBlock) fun shorter refuses => ?_
  rcases refuses_bind_iff.mp refuses with refusesParameters | ⟨⟨parameters, _⟩, _, reads, refuses⟩
  · have small : before.advance.size < below.levels := by omega
    have viable := viable_itemsUntil eachParameter portable_identifier advances_identifier
      (fun _ => parameterRefused) small small refusesParameters
    exact viable.andFill fills_ofBlock
  · obtain ⟨_, middle, spelled, isClose, rfl⟩ := sound_itemsUntil eachParameter reads
    have portable : (listed (parameters.map Spelling.identifier)).Portable False := by
      refine portable_listed fun spelling isParameter => ?_
      obtain ⟨name, _, rfl⟩ := List.mem_map.mp isParameter
      exact portable_identifier name
    have bounded := portable.bounded.size_le spelled
    have further := middle.size_advance
    have refusesBody : Refuses below.block middle.advance error := by
      simpa [refuses_bind_iff] using refuses
    have viable := (completes.block sound (by omega) refusesBody).after
      (portable.andThen (portable_mark .closeParenthesis)) ⟨middle, spelled, isClose, rfl⟩ False.elim
    refine viable.mono ?_
    rintro _ _ _ ⟨behind, spelled, body⟩
    exact ⟨behind, ⟨parameters, by simp, spelled⟩, body⟩

/-- The name of a function that has to have one. -/
theorem functionName {following : Option String → Parser FunctionDef} {rest : Spelling}
    (fills : rest.Fills False)
    (completes : ∀ {name : Option String} {middle : TokenStream}, middle.size ≤ before.size →
      Refuses (following name) middle error → Viable False False middle error rest)
    (refuses : Refuses (do
        let name ← some <$> Prod.fst <$> identifier "function name"
        following name) before error) :
    Viable False False before error (oneOf (fun name : Option String => name ≠ none)
      fun name => ((name.map Spelling.identifier).getD nothing).andThen rest) := by
  rcases refuses_bind_iff.mp refuses with refusesName | ⟨name, middle, readsName, refuses⟩
  · obtain ⟨_, rfl⟩ := by simpa using refusesName
    exact .here rfl (((fills_identifier "x").andThen fills).mono fun spelled =>
      ⟨some "x", by simp, spelled⟩)
  · obtain ⟨text, readsText, rfl⟩ := reads_map_iff.mp readsName
    obtain ⟨isName, rfl⟩ := reads_name_iff.mp readsText
    refine ((completes (isEndOf_advance before).size_le refuses).after (portable_identifier text)
      ⟨isName, rfl⟩ False.elim).mono fun _ spelled => ⟨some text, by simp, spelled⟩

/-- A function can be completed up to the error. -/
theorem functionDef {named : Bool} (sound : below.Sound) (completes : below.Completes)
    (isWord : before.front.lexeme = .keyword .functionKw) (inside : before.size ≤ below.levels)
    (refuses : Refuses (below.functionDef named) before error) :
    Viable False False before error (oneOf (fun definition : FunctionDef =>
      (named = true → definition.name ≠ none) ∧ definition.WellShaped) ofFunction) := by
  have shorter := size_advance_lt_of_front isWord (by simp)
  rcases refuses_expect_bind_iff.mp refuses with ⟨other, _⟩ | ⟨_, refuses⟩
  · exact absurd isWord other
  rw [refuses_peek_bind_iff] at refuses
  have viable : Viable False False before.advance error (oneOf (fun name : Option String =>
      named = true → name ≠ none) fun name =>
        ((name.map Spelling.identifier).getD nothing).andThen parametersAndBody) := by
    dsimp only at refuses
    split at refuses
    · refine (functionName fills_parametersAndBody (fun further refuses =>
        completes.functionTail sound (by omega) refuses) refuses).mono ?_
      rintro _ _ _ ⟨name, isNamed, spelled⟩
      exact ⟨name, fun _ => isNamed, spelled⟩
    · refine (functionName fills_parametersAndBody (fun further refuses =>
        completes.functionTail sound (by omega) refuses) refuses).mono ?_
      rintro _ _ _ ⟨name, isNamed, spelled⟩
      exact ⟨name, fun _ => isNamed, spelled⟩
    · rw [pure_bind] at refuses
      exact (completes.functionTail sound (by omega) refuses).mono fun {before' _} _ spelled =>
        ⟨none, by simp, before', rfl, spelled⟩
  refine (viable.after (portable_keyword .functionKw) ⟨isWord, rfl⟩ False.elim).mono ?_
  rintro _ _ _ ⟨start, isWord, name, isNamed, behind, spelledName, next, isOpen, middle,
    ⟨parameters, _, last, spelledParameters, isClose⟩, body, wellShaped, spelledBody⟩
  exact ⟨⟨name, parameters, body, .null⟩, ⟨isNamed, wellShaped⟩, start, isWord, behind, spelledName,
    middle, ⟨next, isOpen, last, spelledParameters, isClose⟩, spelledBody⟩

/-- An expression or the mark behind it is refused, or both have been read. -/
theorem closedExpression {Value : Type} {close : Punctuator}
    {following : Expression → Span → Parser Value} (sound : below.Sound)
    (completes : below.Completes) (inside : before.size < below.levels)
    (refuses : Refuses (do
        let inner ← below.expression
        let stop ← expect (.punctuator close)
        following inner stop) before error) :
    Viable False False before error (anyExpression.andThen (mark close)) ∨
      ∃ inner middle, inner.Between before middle ∧ middle.front.lexeme = .punctuator close ∧
        middle.advance.size < before.size ∧
        Refuses (following inner middle.front.span) middle.advance error := by
  rcases refuses_bind_iff.mp refuses with refusesInner | ⟨inner, middle, readsInner, refuses⟩
  · exact .inl ((completes.expression inside refusesInner).andFill (fills_mark close))
  have between := (sound.expression readsInner).1
  rcases refuses_expect_bind_iff.mp refuses with ⟨_, same⟩ | ⟨isClose, refuses⟩
  · have viable : Viable False False middle error (mark close) :=
      .here (by rw [same]) (fills_mark close)
    refine .inl ((viable.after (portable_ofExpression inner) between.spelled False.elim).mono ?_)
    rintro _ _ _ ⟨behind, spelled, isClose⟩
    exact ⟨behind, ⟨inner, between.wellShaped, spelled⟩, isClose⟩
  · have shorter := sound.expression_advances readsInner
    have further := middle.size_advance
    exact .inr ⟨inner, middle, between, isClose, by omega, refuses⟩

/-- The tightest expressions can be completed up to the error. -/
theorem primary (sound : below.Sound) (completes : below.Completes)
    (inside : before.size ≤ below.levels) (refuses : Refuses below.primary before error) :
    Viable False False before error (tightExpression .primary) := by
  rw [Grammar.primary, refuses_peek_bind_iff, refuses_ite_iff] at refuses
  rcases refuses with ⟨isWord, refuses⟩ | ⟨_, refuses⟩
  · have refusesFunction : Refuses (below.functionDef false) before error := by
      simpa [refuses_bind_iff] using refuses
    refine (completes.functionDef sound isWord inside refusesFunction).mono ?_
    rintro _ _ _ ⟨definition, ⟨_, wellShaped⟩, spelled⟩
    exact ⟨.function definition, ⟨Nat.le_refl _, wellShaped⟩, spelled⟩
  rw [refuses_next_bind_iff] at refuses
  have further {mark : Punctuator} (isMark : before.front.lexeme = .punctuator mark) :
      before.advance.size < before.size := size_advance_lt_of_front isMark (by simp)
  split at refuses
  case h_7 isOpen =>
    have shorter := further isOpen
    rcases completes.closedExpression sound (by omega) refuses with viable | ⟨_, _, _, _, _, refuses⟩
    · refine (viable.after (portable_mark .openParenthesis) ⟨isOpen, rfl⟩ False.elim).mono ?_
      rintro _ _ _ ⟨start, isOpen, middle, ⟨inner, wellShaped, spelled⟩, isClose⟩
      exact ⟨.group inner .null, ⟨Nat.le_refl _, wellShaped⟩, start, isOpen, middle, spelled,
        isClose⟩
    · exact absurd refuses not_refuses_pure
  case h_8 isOpen =>
    have shorter := further isOpen
    have refusesItems : Refuses (itemsUntil .closeBracket below.expression below.levels)
        before.advance error := by
      simpa [refuses_bind_iff] using refuses
    refine ((completes.items sound (by omega) refusesItems).after (portable_mark .openBracket)
      ⟨isOpen, rfl⟩ False.elim).mono ?_
    rintro _ _ _ ⟨start, isOpen, items, wellShaped, middle, spelled, isClose⟩
    rw [← ofExpressions_eq_map] at spelled
    exact ⟨.array items .null, ⟨Nat.le_refl _, Expression.allWellShaped_iff.mpr wellShaped⟩, start,
      isOpen, middle, spelled, isClose⟩
  case h_9 isOpen =>
    have shorter := further isOpen
    have refusesMembers : Refuses (itemsUntil .closeBrace below.member below.levels)
        before.advance error := by
      simpa [refuses_bind_iff] using refuses
    refine ((completes.members sound (by omega) refusesMembers).after (portable_mark .openBrace)
      ⟨isOpen, rfl⟩ False.elim).mono ?_
    rintro _ _ _ ⟨start, isOpen, members, wellShaped, middle, spelled, isClose⟩
    exact ⟨.object members .null, ⟨Nat.le_refl _, wellShaped⟩, start, isOpen, middle, spelled,
      isClose⟩
  case h_10 =>
    obtain rfl := refuses_refuse_iff.mp refuses
    exact .here rfl fills_tightExpression
  all_goals exact absurd refuses not_refuses_pure

/-- What has been read stays the first part of what is completed. -/
theorem behindExpression {start : TokenStream} {first : Expression} {following whole : Spelling}
    (between : first.Between start before) (viable : Viable False False before error following)
    (imp : ∀ {before' rest}, (ofExpression first).andThen following before' rest →
      whole before' rest) : Viable False False start error whole :=
  (viable.after (portable_ofExpression first) between.spelled False.elim).mono fun _ => imp

/-- Calls and properties can be completed up to the error. -/
theorem accesses {start : TokenStream} {head : Expression} (sound : below.Sound)
    (completes : below.Completes) (between : head.Between start before)
    (tight : .member ≤ head.precedence) (small : before.size < levels)
    (inside : before.size ≤ below.levels)
    (refuses : Refuses (below.accesses levels head) before error) :
    Viable False False start error (tightExpression .member) := by
  -- The tokens of the head have been read, so the completion starts in front of them.
  induction levels generalizing head before with
  | zero => exact absurd small (Nat.not_lt_zero _)
  | succ levels step =>
      rw [Grammar.accesses, refuses_peek_bind_iff] at refuses
      split at refuses
      · rename_i isDot
        have shorter := size_advance_lt_of_front isDot (by simp)
        rw [refuses_next_bind_iff] at refuses
        rcases refuses_bind_iff.mp refuses with refusesName | ⟨⟨name, stop⟩, _, readsName, refuses⟩
        · obtain ⟨_, same⟩ := refuses_propertyName_iff.mp refusesName
          have isWord : (Lexeme.identifier "x").IsWord "x" := .inl rfl
          have viable : Viable False False before.advance error (one (·.IsWord "x")) :=
            .here (by rw [same]) (fills_one isWord (by simp))
          refine behindExpression between
            (viable.after (portable_mark .dot) ⟨isDot, rfl⟩ False.elim) fun spelled => ?_
          exact ⟨.property head "x" .null, ⟨Nat.le_refl _, tight, between.wellShaped⟩, spelled⟩
        · obtain ⟨isName, _, rfl⟩ := reads_propertyName_iff.mp readsName
          have further := before.advance.size_advance
          have betweenAccess : (Expression.property head name (head.span.union stop)).Between start
              before.advance.advance :=
            ⟨⟨tight, between.wellShaped⟩, before, between.spelled, _, ⟨isDot, rfl⟩, isName, rfl⟩
          exact step betweenAccess (Nat.le_refl _) (by omega) (by omega) refuses
      · rename_i isBracket
        have shorter := size_advance_lt_of_front isBracket (by simp)
        rw [refuses_next_bind_iff] at refuses
        rcases completes.closedExpression sound (by omega) refuses with viable |
          ⟨key, middle, betweenKey, isClose, further, refuses⟩
        · refine behindExpression between
            (viable.after (portable_mark .openBracket) ⟨isBracket, rfl⟩ False.elim) ?_
          rintro _ _ ⟨middle, spelledHead, behind, isOpen, last, ⟨key, wellShaped, spelled⟩, isClose⟩
          exact ⟨.index head key .null, ⟨Nat.le_refl _, tight, between.wellShaped, wellShaped⟩, middle,
            spelledHead, behind, isOpen, last, spelled, isClose⟩
        · have betweenAccess : (Expression.index head key
              (head.span.union middle.front.span)).Between start middle.advance :=
            ⟨⟨tight, between.wellShaped, betweenKey.wellShaped⟩, before, between.spelled,
              enclosed_iff.mpr ⟨isBracket, middle, betweenKey.spelled, isClose, rfl⟩⟩
          exact step betweenAccess (Nat.le_refl _) (by omega) (by omega) refuses
      · rename_i isParenthesis
        have shorter := size_advance_lt_of_front isParenthesis (by simp)
        rw [refuses_next_bind_iff] at refuses
        rcases refuses_bind_iff.mp refuses with refusesArguments |
          ⟨⟨arguments, stop⟩, middle, readsArguments, refuses⟩
        · have viable := completes.items sound (by omega) refusesArguments
          refine behindExpression between
            (viable.after (portable_mark .openParenthesis) ⟨isParenthesis, rfl⟩ False.elim) ?_
          rintro _ _ ⟨middle, spelledHead, behind, isOpen, items, wellShaped, last, spelled, isClose⟩
          rw [← ofExpressions_eq_map] at spelled
          exact ⟨.call head items .null, ⟨Nat.le_refl _, tight, between.wellShaped,
            Expression.allWellShaped_iff.mpr wellShaped⟩, middle, spelledHead, behind, isOpen, last,
            spelled, isClose⟩
        · obtain ⟨wellShaped, inner, spelled, isClose, rfl⟩ := sound.expressions readsArguments
          have further := (bounded_listed (bounded_ofExpressions arguments)).size_le spelled
          have furtherStill := inner.size_advance
          have betweenCall : (Expression.call head arguments (head.span.union stop)).Between start
              inner.advance :=
            ⟨⟨tight, between.wellShaped, wellShaped⟩, before, between.spelled,
              enclosed_iff.mpr ⟨isParenthesis, inner, spelled, isClose, rfl⟩⟩
          exact step betweenCall (Nat.le_refl _) (by omega) (by omega) refuses
      · exact absurd refuses not_refuses_pure

/-- A completion that binds tightly serves where a looser one would do. -/
theorem mono_tightExpression {minimum tighter : Precedence} (looser : minimum ≤ tighter)
    (viable : Viable False False before error (tightExpression tighter)) :
    Viable False False before error (tightExpression minimum) :=
  viable.mono fun _ ⟨expression, ⟨tight, wellShaped⟩, spelled⟩ =>
    ⟨expression, ⟨Nat.le_trans looser tight, wellShaped⟩, spelled⟩

/-- An expression with unary operators can be completed up to the error. -/
theorem unaryExpression (sound : below.Sound) (completes : below.Completes)
    (inside : before.size ≤ below.levels) (refuses : Refuses below.unaryExpression before error) :
    Viable False False before error (tightExpression .unary) := by
  rw [Grammar.unaryExpression, refuses_peek_bind_iff] at refuses
  split at refuses
  · rcases refuses_bind_iff.mp refuses with refusesHead | ⟨head, middle, readsHead, refuses⟩
    · exact mono_tightExpression (by decide) (completes.primary sound inside refusesHead)
    · obtain ⟨between, isPrimary⟩ := sound.primary readsHead
      have shorter := (advances_ofExpression head _ _ between.spelled).2
      have tight : Precedence.member ≤ head.precedence := by
        rw [isPrimary]
        decide
      exact mono_tightExpression (by decide)
        (completes.accesses sound between tight (by omega) (by omega) refuses)
  · rename_i operator known
    have isOperator := UnaryOperator.ofLexeme?_eq_some_iff.mp known
    have shorter := (advances_unaryOperator operator before _ ⟨isOperator, rfl⟩).2
    rw [refuses_next_bind_iff] at refuses
    have refusesOperand : Refuses below.unary before.advance error := by
      simpa [refuses_bind_iff] using refuses
    refine ((completes.unary (by omega) refusesOperand).after (portable_unaryOperator operator)
      ⟨isOperator, rfl⟩ False.elim).mono ?_
    rintro _ _ _ ⟨_, ⟨isOperator, rfl⟩, operand, ⟨tight, wellShaped⟩, spelled⟩
    obtain ⟨between, tightAll⟩ := between_unaryOf isOperator tight ⟨wellShaped, spelled⟩
    exact ⟨unaryOf operator operand .null, ⟨tightAll, between.wellShaped⟩, between.spelled⟩

/-- Binary operations can be completed up to the error. -/
theorem operations {start : TokenStream} {minimum : Precedence} {left : Expression}
    (sound : below.Sound) (completes : below.Completes) (between : left.Between start before)
    (fits : ∀ operator : BinaryOperator, before.front.lexeme = operator.lexeme →
      operator.precedence ≤ left.precedence)
    (ends : ¬ before.front.lexeme.ContinuesAccess) (small : before.size < levels)
    (inside : before.size ≤ below.levels)
    (refuses : Refuses (below.operations levels minimum left) before error) :
    Viable False False start error (tightExpression minimum) := by
  induction levels generalizing start minimum left before with
  | zero => exact absurd small (Nat.not_lt_zero _)
  | succ levels step =>
      rw [Grammar.operations, refuses_peek_bind_iff] at refuses
      split at refuses
      · exact absurd refuses not_refuses_pure
      rename_i operator known
      have isOperator := BinaryOperator.ofLexeme?_eq_some_iff.mp known
      have shorter := (advances_binaryOperator operator before _ ⟨isOperator, rfl⟩).2
      rw [refuses_ite_iff] at refuses
      rcases refuses with ⟨_, refuses⟩ | ⟨notLooser, refuses⟩
      · exact absurd refuses not_refuses_pure
      have tightOperator : minimum ≤ operator.precedence := Nat.not_lt.mp notLooser
      -- Wherever the right operand can be completed, so can the whole operation.
      have ofRight (viable : Viable False False before.advance error
          (tightExpression (operator.precedence + 1))) :
          Viable False False start error (tightExpression minimum) := by
        refine behindExpression between (viable.after (portable_binaryOperator operator)
          ⟨isOperator, rfl⟩ False.elim) ?_
        rintro _ _ ⟨middle, spelledLeft, behind, isMark, right, ⟨tight, wellShaped⟩, spelled⟩
        exact ⟨.binary left operator right .null, ⟨tightOperator, fits operator isOperator, tight,
          between.wellShaped, wellShaped⟩, middle, spelledLeft, behind, isMark, spelled⟩
      rw [refuses_next_bind_iff] at refuses
      rcases refuses_bind_iff.mp refuses with refusesOperand | ⟨operand, middle, readsOperand, refuses⟩
      · exact ofRight (mono_tightExpression operator.precedence_lt_unary
          (completes.unaryExpression sound (by omega) refusesOperand))
      obtain ⟨betweenOperand, tightOperand, endsOperand⟩ := sound.unaryExpression readsOperand
      have shorterOperand := (advances_ofExpression operand _ _ betweenOperand.spelled).2
      have loosest (other : BinaryOperator) : other.precedence < operand.precedence :=
        Nat.lt_of_lt_of_le other.precedence_lt_unary tightOperand
      rcases refuses_bind_iff.mp refuses with refusesRight | ⟨right, behind, readsRight, refuses⟩
      · exact ofRight (step betweenOperand (fun other _ => Nat.le_of_lt (loosest other)) endsOperand
          (by omega) (by omega) refusesRight)
      · obtain ⟨betweenRight, tightRight, looser, endsRight⟩ := sound.operations betweenOperand
          (loosest operator) (fun other _ => Nat.le_of_lt (loosest other)) endsOperand readsRight
        have shorterRight := (advances_ofExpression right _ _ betweenRight.spelled).2
        have betweenBinary : (Expression.binary left operator right
            (left.span.union right.span)).Between start behind :=
          ⟨⟨fits operator isOperator, tightRight, between.wellShaped, betweenRight.wellShaped⟩,
            before, between.spelled, _, ⟨isOperator, rfl⟩, betweenRight.spelled⟩
        exact step betweenBinary (fun other isOther => Nat.le_of_lt_succ (looser other isOther))
          endsRight (by omega) (by omega) refuses

/-- An expression with binary operators can be completed up to the error. -/
theorem binaryExpression {minimum : Precedence} (sound : below.Sound) (completes : below.Completes)
    (low : minimum ≤ .unary) (inside : before.size ≤ below.levels)
    (refuses : Refuses (below.binaryExpression minimum) before error) :
    Viable False False before error (tightExpression minimum) := by
  rcases refuses_bind_iff.mp refuses with refusesLeft | ⟨left, middle, readsLeft, refuses⟩
  · exact mono_tightExpression low (completes.unaryExpression sound inside refusesLeft)
  · obtain ⟨between, tight, ends⟩ := sound.unaryExpression readsLeft
    have shorter := (advances_ofExpression left _ _ between.spelled).2
    have fits (operator : BinaryOperator) : operator.precedence ≤ left.precedence :=
      Nat.le_of_lt (Nat.lt_of_lt_of_le operator.precedence_lt_unary tight)
    exact completes.operations sound between (fun operator _ => fits operator) ends (by omega)
      (by omega) refuses

/-- A target that cannot be assigned to is an expression in front of the mark that is refused. -/
theorem assignment (sound : below.Sound) (completes : below.Completes)
    (inside : before.size ≤ below.levels) (refuses : Refuses below.assignment before error) :
    Viable False False before error anyExpression := by
  rcases refuses_bind_iff.mp refuses with refusesTarget | ⟨target, middle, readsTarget, refuses⟩
  · exact (completes.binaryExpression sound (by decide) inside refusesTarget).mono
      fun _ ⟨expression, ⟨_, wellShaped⟩, spelled⟩ => ⟨expression, wellShaped, spelled⟩
  obtain ⟨between, _⟩ := sound.binaryExpression (by decide) readsTarget
  have shorter := (advances_ofExpression target _ _ between.spelled).2
  rw [refuses_peek_bind_iff, refuses_ite_iff] at refuses
  rcases refuses with ⟨isMark, refuses⟩ | ⟨_, refuses⟩
  · have further := middle.size_advance
    rw [refuses_next_bind_iff, refuses_ite_iff] at refuses
    rcases refuses with ⟨isTarget, refuses⟩ | ⟨_, refuses⟩
    · have refusesValue : Refuses below.expression middle.advance error := by
        simpa [refuses_bind_iff] using refuses
      refine behindExpression between ((completes.expression (by omega) refusesValue).after
        (portable_mark .assign) ⟨isMark, rfl⟩ False.elim) ?_
      rintro _ _ ⟨middle, spelledTarget, behind, isMark, value, wellShaped, spelled⟩
      exact ⟨.assign target value .null, ⟨isTarget_iff.mp isTarget, between.wellShaped, wellShaped⟩, middle,
        spelledTarget, behind, isMark, spelled⟩
    · have viable : Viable False False middle error nothing :=
        .here (by rw [refuses_refuse_iff.mp refuses]) fills_nothing
      refine behindExpression between viable ?_
      rintro _ _ ⟨_, spelled, rfl⟩
      exact ⟨target, between.wellShaped, spelled⟩
  · exact absurd refuses not_refuses_pure

/-- Declared names can be completed up to the error. -/
theorem declarators (sound : below.Sound) (completes : below.Completes)
    (small : before.size < levels) (inside : before.size ≤ below.levels)
    (refuses : Refuses (below.declarators levels) before error) :
    Viable False False before error anyDeclarators := by
  induction levels generalizing before with
  | zero => exact absurd small (Nat.not_lt_zero _)
  | succ levels step =>
      -- Once a name has been read, an error can only be behind a comma.
      have further {first : Declarator} {middle : TokenStream}
          (reads : below.ReadsDeclarator before first middle)
          (refuses : Refuses (below.declaratorsTail levels first) middle error) :
          Viable False False before error anyDeclarators := by
        obtain ⟨wellShaped, spelled, _⟩ := sound.declarator reads
        have portable : (ofDeclarator first).Portable False :=
          portable_ofDeclarators [first] _ (by simp [ofDeclarators_cons])
        have bounded := portable.bounded.size_le spelled
        rcases refuses_accept?_bind_iff.mp refuses with ⟨isComma, refuses⟩ | ⟨_, refuses⟩
        · have shorter := size_advance_lt_of_front isComma (by simp)
          have refusesRest : Refuses (below.declarators levels) middle.advance error := by
            simpa [refuses_bind_iff] using refuses
          have viable := (step (by omega) (by omega) refusesRest).after (portable_mark .comma)
            ⟨isComma, rfl⟩ False.elim
          refine (viable.after portable spelled False.elim).mono ?_
          rintro _ _ _ ⟨behind, spelledFirst, _, ⟨isComma, rfl⟩, rest, ⟨nonempty, wellShapedRest⟩,
            spelledRest⟩
          refine ⟨first :: rest, ⟨List.cons_ne_nil _ _,
            Declarator.allWellShaped_cons_iff.mpr ⟨wellShaped, wellShapedRest⟩⟩, ?_⟩
          dsimp only
          rw [ofDeclarators_cons, separated_cons_iff]
          exact ⟨behind, spelledFirst, .inr ⟨mt ofDeclarators_eq_nil_iff.mp nonempty, isComma,
            spelledRest⟩⟩
        · exact absurd refuses not_refuses_pure
      rw [Grammar.declarators] at refuses
      rcases refuses_bind_iff.mp refuses with refusesName | ⟨⟨name, _⟩, _, readsName, refuses⟩
      · obtain ⟨_, same⟩ := refuses_identifier_iff.mp refusesName
        exact .here (by rw [same]) ((fills_identifier "x").mono fun spelled =>
          ⟨[⟨"x", none, .null⟩], ⟨by simp, trivial⟩, spelled⟩)
      obtain ⟨isName, rfl, rfl⟩ := reads_identifier_iff.mp readsName
      dsimp only at refuses
      rcases refuses_accept?_bind_iff.mp refuses with ⟨isMark, refuses⟩ | ⟨notMark, refuses⟩
      · rcases refuses_bind_iff.mp refuses with refusesValue | ⟨_, middle, readsSome, refuses⟩
        · have shorter := size_advance_lt_of_front isName (by simp)
          have furtherStill := before.advance.size_advance
          have viable := (completes.expression (by omega) (refuses_map_iff.mp refusesValue)).after
            (portable_mark .assign) ⟨isMark, rfl⟩ False.elim
          refine (viable.after (portable_identifier name) ⟨isName, rfl⟩ False.elim).mono ?_
          rintro _ _ _ ⟨behind, isName, next, isMark, value, wellShaped, spelled⟩
          exact ⟨[⟨name, some value, .null⟩], ⟨by simp, wellShaped, trivial⟩, behind, isName, next,
            isMark, spelled⟩
        · obtain ⟨value, readsValue, rfl⟩ := reads_map_iff.mp readsSome
          exact further ⟨isName, .inl ⟨isMark, value, readsValue, rfl, rfl⟩⟩ refuses
      · exact further ⟨isName, .inr ⟨notMark, rfl, rfl, rfl⟩⟩ refuses

/-- A declaration can be completed up to the error. -/
theorem declaration {word : DeclarationWord} (sound : below.Sound) (completes : below.Completes)
    (isWord : before.front.lexeme = .keyword word.keyword) (inside : before.size ≤ below.levels)
    (refuses : Refuses below.declaration before error) :
    Viable False False before error (oneOf Statement.WellShaped ofStatement) := by
  have shorter := size_advance_lt_of_front isWord (by simp)
  rw [Grammar.declaration, refuses_next_bind_iff,
    DeclarationWord.ofLexeme?_eq_some_iff.mpr isWord] at refuses
  have refusesItems : Refuses (below.declarators below.levels) before.advance error := by
    simpa [refuses_bind_iff] using refuses
  refine ((completes.declarators sound (by omega) (by omega) refusesItems).after
    (portable_keyword word.keyword) ⟨isWord, rfl⟩ False.elim).mono ?_
  rintro _ _ _ ⟨behind, isWord, items, wellShaped, spelled⟩
  exact ⟨.declaration word items .null, wellShaped, behind, isWord, spelled⟩

/-- A branch can be completed up to the error. -/
theorem branch (sound : below.Sound) (completes : below.Completes)
    (inside : before.size < below.levels)
    (refuses : Refuses (Grammar.branch below.statement) before error) :
    Viable True False before error (oneOf Branch.WellShaped ofBranch) := by
  rcases refuses_bind_iff.mp refuses with refusesSingle | ⟨single, middle, readsSingle, refuses⟩
  · refine (completes.statement inside refusesSingle).mono ?_
    rintro _ rest closes ⟨single, wellShaped, spelled⟩
    by_cases isBlock : ∃ inner, single = .block inner
    · obtain ⟨inner, rfl⟩ := isBlock
      exact ⟨.braced inner, wellShaped, spelled⟩
    · exact ⟨.single single, ⟨fun inner same => isBlock ⟨inner, same⟩, wellShaped⟩, rest, spelled,
        Statement.ending_of_closes_front (closes trivial)⟩
  · obtain ⟨wellShaped, spelled, _⟩ := sound.statement readsSingle
    split at refuses
    · exact absurd refuses not_refuses_pure
    rename_i other
    rcases refuses_closing_iff.mp refuses with ⟨_, refuses⟩ | ⟨_, _, refuses⟩
    · have viable : Viable True True middle error single.ending := viable_ending refuses
      refine (viable.after (portable_ofStatement single) spelled False.elim).mono ?_
      rintro _ rest _ ⟨behind, spelled, ended⟩
      exact ⟨.single single, ⟨other, wellShaped⟩, behind, spelled, ended⟩
    · exact absurd refuses not_refuses_pure

/-- The branches of a conditional can be completed up to the error. -/
theorem branches {condition : Expression} {start : Span} (sound : below.Sound)
    (completes : below.Completes) (inside : before.size < below.levels)
    (refuses : Refuses (do
        let consequent ← Grammar.branch below.statement
        if (← accept? (.keyword .elseKw)).isSome then
          let alternate ← Grammar.branch below.statement
          return Statement.conditional condition consequent (some alternate)
            (start.union alternate.span)
        else return .conditional condition consequent none (start.union consequent.span))
        before error) :
    Viable True False before error anyBranches := by
  rcases refuses_bind_iff.mp refuses with refusesFirst | ⟨consequent, middle, readsFirst, refuses⟩
  · refine (completes.branch sound inside refusesFirst).mono ?_
    rintro _ rest _ ⟨consequent, wellShaped, spelled⟩
    exact ⟨(consequent, none), ⟨wellShaped, fun isSome => absurd rfl isSome, trivial⟩, rest, spelled,
      rfl⟩
  obtain ⟨wellShaped, spelled, notElse⟩ := sound.branch readsFirst
  rcases refuses_accept?_bind_iff.mp refuses with ⟨isElse, refuses⟩ | ⟨_, refuses⟩
  · have shorter := (advances_ofBranch consequent _ _ spelled).2
    have further := size_advance_lt_of_front isElse (by simp)
    have refusesLast : Refuses (Grammar.branch below.statement) middle.advance error := by
      simpa [refuses_bind_iff] using refuses
    have closed : consequent.endsOpen = false := by
      rw [Bool.eq_false_iff]
      exact fun endsOpen => notElse endsOpen isElse
    have viable : Viable True True middle error
        ((keyword .elseKw).andThen (oneOf Branch.WellShaped ofBranch)) :=
      (completes.branch sound (by omega) refusesLast).after (portable_keyword .elseKw) ⟨isElse, rfl⟩
        fun _ => .inr further
    refine (viable.after (portable_ofBranch consequent) spelled False.elim).mono ?_
    rintro _ _ _ ⟨behind, spelledFirst, next, isElse, alternate, wellShapedLast, spelledLast⟩
    exact ⟨(consequent, some alternate), ⟨wellShaped, fun _ => closed, wellShapedLast⟩, behind,
      spelledFirst, next, isElse, spelledLast⟩
  · exact absurd refuses not_refuses_pure

/-- A conditional can be completed up to the error. -/
theorem conditional (sound : below.Sound) (completes : below.Completes)
    (isWord : before.front.lexeme = .keyword .ifKw) (inside : before.size ≤ below.levels)
    (refuses : Refuses below.conditional before error) :
    Viable True False before error (oneOf Statement.WellShaped ofStatement) := by
  have shorter := size_advance_lt_of_front isWord (by simp)
  rcases refuses_expect_bind_iff.mp refuses with ⟨other, _⟩ | ⟨_, refuses⟩
  · exact absurd isWord other
  have viable : Viable True False before.advance error ((mark .openParenthesis).andThen
      ((anyExpression.andThen (mark .closeParenthesis)).andThen anyBranches)) := by
    refine .expect refuses (by simp)
      ((fills_anyExpression.andThen (fills_mark .closeParenthesis)).andThen fills_anyBranches)
      fun further refuses => ?_
    rcases completes.closedExpression sound (by omega) refuses with viable |
      ⟨condition, middle, between, isClose, furtherStill, refuses⟩
    · exact viable.andFill fills_anyBranches
    · have portable : ((ofExpression condition).andThen (mark .closeParenthesis)).Portable False :=
        (portable_ofExpression condition).andThen (portable_mark .closeParenthesis)
      refine ((completes.branches sound (by omega) refuses).after portable
        ⟨middle, between.spelled, isClose, rfl⟩ False.elim).mono ?_
      rintro _ _ _ ⟨behind, ⟨middle, spelled, isClose⟩, last⟩
      exact ⟨behind, ⟨middle, ⟨condition, between.wellShaped, spelled⟩, isClose⟩, last⟩
  refine (viable.after (portable_keyword .ifKw) ⟨isWord, rfl⟩ False.elim).mono ?_
  rintro _ _ _ ⟨next, isWord, start, isOpen, behind, ⟨middle, ⟨condition, wellShaped, spelled⟩,
    isClose⟩, ⟨consequent, alternate⟩, ⟨wellShapedFirst, closed, wellShapedLast⟩, last, spelledFirst,
    spelledLast⟩
  exact ⟨.conditional condition consequent alternate .null,
    ⟨wellShaped, wellShapedFirst, closed, wellShapedLast⟩, next, isWord, behind,
    ⟨start, isOpen, middle, spelled, isClose⟩, last, spelledFirst, spelledLast⟩

/-- The value of a `return` is completed on the line of the word. -/
theorem returning (completes : below.Completes) (isWord : before.front.lexeme = .keyword .returnKw)
    (inside : before.size ≤ below.levels) (refuses : Refuses below.returning before error) :
    Viable False False before error (oneOf Statement.WellShaped ofStatement) := by
  have shorter := size_advance_lt_of_front isWord (by simp)
  rw [Grammar.returning, refuses_next_bind_iff, refuses_peek_bind_iff, refuses_ite_iff] at refuses
  rcases refuses with ⟨_, refuses⟩ | ⟨goesOn, refuses⟩
  · exact absurd refuses not_refuses_pure
  have refusesValue : Refuses below.expression before.advance error := by
    simpa [refuses_bind_iff] using refuses
  have sameLine : before.advance.front.afterLineBreak = false := by
    rw [Bool.eq_false_iff]
    exact fun breaks => goesOn (.inl breaks)
  have viable : Viable False False before.advance error (onSameLine anyExpression) := by
    refine (completes.expression (by omega) refusesValue).keepFront ?_ fun alike spelled => ?_
    · exact fun rest _ => ⟨rest.push ⟨.identifier "x", .null, false⟩ (by simp), rfl,
        .reference "x" .null, trivial, rfl, rfl⟩
    · exact ⟨alike.2 ▸ sameLine, spelled⟩
  refine (viable.after (portable_keyword .returnKw) ⟨isWord, rfl⟩ False.elim).mono ?_
  rintro _ _ _ ⟨behind, isWord, sameLine, value, wellShaped, spelled⟩
  exact ⟨.returning (some value) .null, wellShaped, behind, isWord, sameLine, spelled⟩

/-- A value that starts like a statement is not put in front of a refused token. -/
theorem anyStatement (sound : below.Sound) (completes : below.Completes)
    (inside : before.size ≤ below.levels) (refuses : Refuses below.anyStatement before error) :
    Viable True False before error (oneOf Statement.WellShaped ofStatement) := by
  have ofDeclaration (word : DeclarationWord) (isWord : before.front.lexeme = .keyword word.keyword)
      (refuses : Refuses below.declaration before error) :
      Viable True False before error (oneOf Statement.WellShaped ofStatement) :=
    (completes.declaration sound isWord inside refuses).weaken False.elim
  rw [Grammar.anyStatement, refuses_peek_bind_iff] at refuses
  split at refuses
  · rename_i isWord
    exact ofDeclaration .byVar isWord refuses
  · rename_i isWord
    exact ofDeclaration .byLet isWord refuses
  · rename_i isWord
    exact ofDeclaration .byConst isWord refuses
  · rename_i isWord
    have refusesFunction : Refuses (below.functionDef true) before error := by
      simpa [refuses_bind_iff] using refuses
    refine ((completes.functionDef sound isWord inside refusesFunction).weaken False.elim).mono ?_
    rintro _ _ _ ⟨definition, ⟨isNamed, wellShaped⟩, spelled⟩
    exact ⟨.function definition, ⟨isNamed rfl, wellShaped⟩, spelled⟩
  · rename_i isWord
    exact completes.conditional sound isWord inside refuses
  · rename_i isWord
    exact (completes.returning isWord inside refuses).weaken False.elim
  · have refusesBlock : Refuses below.block before error := by
      simpa [refuses_bind_iff] using refuses
    refine ((completes.block sound inside refusesBlock).weaken False.elim).mono ?_
    rintro _ _ _ ⟨inner, wellShaped, spelled⟩
    exact ⟨.block inner, wellShaped, spelled⟩
  · simp at refuses
  · rename_i notFunction _ _ notBrace _
    have refusesValue : Refuses below.assignment before error := by
      simpa [refuses_bind_iff] using refuses
    refine ((completes.assignment sound inside refusesValue).keepFront fills_ofStatement ?_).weaken
      False.elim
    rintro before' _ alike ⟨value, wellShaped, spelled⟩
    have opens := (front_ofExpression value spelled).2
    rw [← alike.1] at opens
    have closed : value.opensLikeStatement = false := by
      rw [Bool.eq_false_iff]
      exact fun isOpen => (opens.mp isOpen).elim notBrace notFunction
    exact ⟨.expression value .null, ⟨closed, wellShaped⟩, spelled⟩

end Completes

/-- Wherever a reader of the grammar fails, what it has read can be completed. -/
theorem completes_within (levels : Nat) : (within levels).Completes := by
  induction levels with
  | zero =>
      exact ⟨fun small => absurd small (Nat.not_lt_zero _),
        fun small => absurd small (Nat.not_lt_zero _), fun small => absurd small (Nat.not_lt_zero _)⟩
  | succ levels step =>
      have inside {before : TokenStream} (small : before.size < (within (levels + 1)).levels) :
          before.size ≤ (within levels).levels := by
        rw [levels_within]
        exact Nat.le_of_lt_succ small
      have sound := sound_within levels
      exact ⟨fun small => step.assignment sound (inside small),
        fun small => step.unaryExpression sound (inside small),
        fun small => step.anyStatement sound (inside small)⟩

end Grammar

end ScriptStrip
