import ScriptStrip.Proofs.Retracing
/-
This file shows of each reader of the grammar that it looks no farther than one token ahead. The
second of two readers may be given more levels than the first.
-/

namespace ScriptStrip

/-- A block is told apart, because a branch takes it as a braced one. -/
def Statement.isBlock : Statement → Bool
  | .block _ => true
  | _ => false

theorem Statement.isBlock_iff {statement : Statement} :
    statement.isBlock = true ↔ ∃ inner, statement = .block inner := by
  cases statement <;> simp [isBlock]

/-- What is read behind a statement depends on this much of it. -/
def Statement.manner (statement : Statement) : Bool × Bool :=
  (statement.needsSemicolon, statement.isBlock)

namespace Grammar
open ScriptStrip.Parser ScriptStrip.TokenStream

/-- The readers of the second grammar do what those of the first one do. -/
structure Retraces (stop stop' : TokenStream) (below below' : Grammar) : Prop where
  levels : below.levels ≤ below'.levels
  expression : ∀ {before}, before.size < below.levels →
    Parser.Retraces stop stop' isTarget below.expression below'.expression before
  unary : ∀ {before}, before.size < below.levels →
    Parser.Retraces stop stop' isTarget below.unary below'.unary before
  statement : ∀ {before}, before.size < below.levels →
    Parser.Retraces stop stop' Statement.manner below.statement below'.statement before

variable {stop stop' before : TokenStream} {levels levels' : Nat}

/-- Lists of items are retraced if the items are and each of them takes a token. -/
theorem retraces_itemsUntil {Item Key : Type} {key : Item → Key} {close : Punctuator}
    {item item' : Parser Item} {limit : Nat}
    (each : ∀ {before}, before.size < limit → Parser.Retraces stop stop' key item item' before)
    (advances : ∀ {before value after}, Reads item before value after → after.size < before.size)
    (small : before.size < levels) (more : levels ≤ levels') (inside : before.size < limit) :
    Parser.Retraces stop stop' (fun _ => ()) (itemsUntil close item levels)
      (itemsUntil close item' levels') before := by
  induction levels generalizing before levels' with
  | zero => exact absurd small (Nat.not_lt_zero _)
  | succ levels step =>
      obtain ⟨levels', rfl⟩ := Nat.exists_eq_succ_of_ne_zero (Nat.ne_zero_of_lt more)
      rw [itemsUntil, itemsUntil]
      refine Retraces.accept?_bind (by simp) (fun _ _ => .pure rfl) fun _ => ?_
      refine (each inside).bind fun {_ middle _} readsFirst _ _ => ?_
      have shorter := advances readsFirst
      refine Retraces.accept?_bind (by simp) (fun isComma _ => ?_) fun _ => ?_
      · have further := Spelling.size_advance_lt_of_front isComma (by simp)
        exact (step (by omega) (by omega) (by omega)).bind fun _ _ _ => .pure rfl
      · exact (Retraces.expect (by simp)).bind fun _ _ _ => .pure rfl

variable {below below' : Grammar}

namespace Retraces

/-- Members of objects are retraced, since their values are. -/
theorem member (retraces : below.Retraces stop stop' below') (inside : before.size < below.levels) :
    Parser.Retraces stop stop' (fun _ => ()) below.member below'.member before := by
  refine Retraces.propertyKey.bind fun _ shorter _ => ?_
  refine Retraces.expect_bind (by simp) fun _ further _ _ => ?_
  exact (retraces.expression (by omega)).bind fun _ _ _ => .pure rfl

/-- Lists of expressions are retraced, since each expression takes a token. -/
theorem items {close : Punctuator} (sound : below.Sound) (retraces : below.Retraces stop stop' below')
    (inside : before.size < below.levels) :
    Parser.Retraces stop stop' (fun _ => ()) (itemsUntil close below.expression below.levels)
      (itemsUntil close below'.expression below'.levels) before :=
  retraces_itemsUntil retraces.expression sound.expression_advances inside retraces.levels inside

/-- Lists of members are retraced, since each member takes a token. -/
theorem members {close : Punctuator} (sound : below.Sound)
    (retraces : below.Retraces stop stop' below') (inside : before.size < below.levels) :
    Parser.Retraces stop stop' (fun _ => ()) (itemsUntil close below.member below.levels)
      (itemsUntil close below'.member below'.levels) before := by
  refine retraces_itemsUntil retraces.member (fun {_ member _} reads => ?_) inside retraces.levels inside
  obtain ⟨_, spelled⟩ := sound.member reads
  exact (Spelling.advances_member member.key (Spelling.advances_ofExpression member.value) _ _ spelled).2

/-- The semicolon behind a statement is read in both streams or in none. -/
theorem closing {Value Key : Type} {key : Value → Key} {statement statement' : Statement}
    {following following' : Parser Value} (same : statement'.manner = statement.manner)
    (retraces : ∀ {after}, after.size ≤ before.size →
      Parser.Retraces stop stop' key following following' after) :
    Parser.Retraces stop stop' key
      (do
        if statement.needsSemicolon then semicolon
        following)
      (do
        if statement'.needsSemicolon then semicolon
        following') before := by
  have sameNeed : statement'.needsSemicolon = statement.needsSemicolon := congrArg Prod.fst same
  rw [sameNeed]
  split
  · exact Retraces.semicolon.bind fun _ shorter _ => retraces shorter
  · exact retraces (Nat.le_refl _)

/-- Statements in a row are retraced up to a token that starts none. -/
theorem statements {statement statement' : Parser Statement} {limit : Nat}
    (each : ∀ {before}, before.size < limit →
      Parser.Retraces stop stop' Statement.manner statement statement' before)
    (advances : ∀ {before value after}, Reads statement before value after → after.size < before.size)
    (small : before.size < levels) (more : levels ≤ levels') (inside : before.size < limit) :
    Parser.Retraces stop stop' (fun _ => ()) (Grammar.statements statement levels)
      (Grammar.statements statement' levels') before := by
  induction levels generalizing before levels' with
  | zero => exact absurd small (Nat.not_lt_zero _)
  | succ levels step =>
      obtain ⟨levels', rfl⟩ := Nat.exists_eq_succ_of_ne_zero (Nat.ne_zero_of_lt more)
      rw [Grammar.statements, Grammar.statements]
      refine Retraces.peek_bind fun alike => ?_
      rw [← alike.1]
      split
      · exact .pure rfl
      · refine (each inside).bind fun readsFirst _ same => ?_
        have shorter := advances readsFirst
        refine closing same fun further => ?_
        exact (step (by omega) (by omega) (by omega)).bind fun _ _ _ => .pure rfl

/-- Blocks are retraced. -/
theorem block (sound : below.Sound) (retraces : below.Retraces stop stop' below')
    (inside : before.size ≤ below.levels) :
    Parser.Retraces stop stop' (fun _ => ()) below.block below'.block before := by
  refine Retraces.expect_bind (by simp) fun _ shorter _ _ => ?_
  refine (statements retraces.statement sound.statement_advances (by omega) retraces.levels
    (by omega)).bind fun _ _ _ => ?_
  exact Retraces.expect_bind (by simp) fun _ _ _ _ => .pure rfl

/-- Functions are retraced with and without a name. -/
theorem functionDef {named : Bool} (sound : below.Sound) (retraces : below.Retraces stop stop' below')
    (inside : before.size ≤ below.levels) :
    Parser.Retraces stop stop' (fun _ => ()) (below.functionDef named) (below'.functionDef named)
      before := by
  have readsName {place : String} {stream : TokenStream} : Parser.Retraces stop stop' (fun _ => ())
      (Prod.fst <$> identifier place) (Prod.fst <$> identifier place) stream :=
    Retraces.identifier.map fun _ => rfl
  have nameAdvances {place name : String} {stream after : TokenStream}
      (reads : Reads (Prod.fst <$> identifier place) stream name after) : after.size < stream.size :=
    (Spelling.advances_identifier name _ _ (reads_name_iff.mp reads)).2
  have rest {name name' : Option String} {start start' : Span} {stream : TokenStream}
      (small : stream.size < below.levels) : Parser.Retraces stop stop' (fun _ => ())
        (below.functionTail start name) (below'.functionTail start' name') stream := by
    refine Retraces.expect_bind (by simp) fun _ shorter _ _ => ?_
    have small : stream.advance.size < below.levels := by omega
    refine (retraces_itemsUntil (fun _ => readsName) nameAdvances small retraces.levels small).bind
      fun _ further _ => ?_
    exact (retraces.block sound (by omega)).bind fun _ _ _ => .pure rfl
  refine Retraces.expect_bind (by simp) fun _ shorter _ _ => ?_
  refine Retraces.peek_bind fun alike => ?_
  have readsSome : Parser.Retraces stop stop' (fun _ => ())
      (some <$> Prod.fst <$> identifier "function name")
      (some <$> Prod.fst <$> identifier "function name") before.advance := readsName.map fun _ => rfl
  have readsNone : Parser.Retraces stop stop' (fun _ => ()) (pure (none : Option String)) (pure none)
      before.advance := .pure rfl
  rw [← alike.1]
  dsimp only
  split
  · exact readsSome.bind fun _ further _ => rest (by omega)
  · exact readsSome.bind fun _ further _ => rest (by omega)
  · exact readsNone.bind fun _ further _ => rest (by omega)

/-- The tightest expressions are retraced, and a target stays a target. -/
theorem primary (sound : below.Sound) (retraces : below.Retraces stop stop' below')
    (inside : before.size ≤ below.levels) :
    Parser.Retraces stop stop' isTarget below.primary below'.primary before := by
  have further {lexeme : Lexeme} (isFront : before.front.lexeme = lexeme)
      (other : lexeme ≠ .endOfSource) : before.advance.size < below.levels :=
    Nat.lt_of_lt_of_le (Spelling.size_advance_lt_of_front isFront other) inside
  refine Retraces.peek_bind fun alike => ?_
  rw [← alike.1]
  split
  · exact (retraces.functionDef sound inside).bind fun _ _ _ => .pure rfl
  · refine Retraces.next_bind_or fun alike => ?_
    rw [← alike.1]
    split
    · rename_i isNumber
      exact .inl ⟨by simp [isNumber], .pure rfl⟩
    · rename_i isString
      exact .inl ⟨by simp [isString], .pure rfl⟩
    · rename_i isWord
      exact .inl ⟨by simp [isWord], .pure rfl⟩
    · rename_i isWord
      exact .inl ⟨by simp [isWord], .pure rfl⟩
    · rename_i isWord
      exact .inl ⟨by simp [isWord], .pure rfl⟩
    · rename_i isName
      exact .inl ⟨by simp [isName], .pure rfl⟩
    · rename_i isOpen
      refine .inl ⟨by simp [isOpen], ?_⟩
      refine (retraces.expression (further isOpen (by simp))).bind fun _ _ _ => ?_
      exact Retraces.expect_bind (by simp) fun _ _ _ _ => .pure rfl
    · rename_i isOpen
      refine .inl ⟨by simp [isOpen], ?_⟩
      exact (retraces.items sound (further isOpen (by simp))).bind fun _ _ _ => .pure rfl
    · rename_i isOpen
      refine .inl ⟨by simp [isOpen], ?_⟩
      exact (retraces.members sound (further isOpen (by simp))).bind fun _ _ _ => .pure rfl
    · exact .inr ⟨_, _, rfl, rfl⟩

/-- What is read behind an expression does not depend on the expression. -/
theorem accesses {head head' : Expression} (sound : below.Sound)
    (retraces : below.Retraces stop stop' below') (small : before.size < levels)
    (more : levels ≤ levels') (inside : before.size ≤ below.levels)
    (same : isTarget head' = isTarget head) :
    Parser.Retraces stop stop' isTarget (below.accesses levels head) (below'.accesses levels' head')
      before := by
  induction levels generalizing before levels' head head' with
  | zero => exact absurd small (Nat.not_lt_zero _)
  | succ levels step =>
      obtain ⟨levels', rfl⟩ := Nat.exists_eq_succ_of_ne_zero (Nat.ne_zero_of_lt more)
      rw [Grammar.accesses, Grammar.accesses]
      refine Retraces.peek_bind fun alike => ?_
      rw [← alike.1]
      split
      · rename_i isDot
        have shorter := Spelling.size_advance_lt_of_front isDot (by simp)
        refine Retraces.next_bind (by simp [isDot]) fun _ => ?_
        exact Retraces.propertyName.bind fun _ further _ => step (by omega) (by omega) (by omega) rfl
      · rename_i isBracket
        have shorter := Spelling.size_advance_lt_of_front isBracket (by simp)
        refine Retraces.next_bind (by simp [isBracket]) fun _ => ?_
        refine (retraces.expression (by omega)).bind fun _ further _ => ?_
        exact Retraces.expect_bind (by simp) fun _ _ _ _ => step (by omega) (by omega) (by omega) rfl
      · rename_i isParenthesis
        have shorter := Spelling.size_advance_lt_of_front isParenthesis (by simp)
        refine Retraces.next_bind (by simp [isParenthesis]) fun _ => ?_
        exact (retraces.items sound (by omega)).bind fun _ further _ =>
          step (by omega) (by omega) (by omega) rfl
      · exact .pure same

/-- Calls and properties are retraced. -/
theorem access (sound : below.Sound) (retraces : below.Retraces stop stop' below')
    (inside : before.size ≤ below.levels) :
    Parser.Retraces stop stop' isTarget below.access below'.access before := by
  refine (retraces.primary sound inside).bind fun {head _ _} reads _ same => ?_
  have shorter := (Spelling.advances_ofExpression head _ _ (sound.primary reads).1.spelled).2
  exact retraces.accesses sound (by omega) retraces.levels (by omega) same

/-- Expressions with unary operators are retraced. -/
theorem unaryExpression (sound : below.Sound) (retraces : below.Retraces stop stop' below')
    (inside : before.size ≤ below.levels) :
    Parser.Retraces stop stop' isTarget below.unaryExpression below'.unaryExpression before := by
  have notTarget (operator : UnaryOperator) (operand : Expression) (span : Span) :
      isTarget (unaryOf operator operand span) = false := by
    unfold unaryOf
    split <;> rfl
  refine Retraces.peek_bind fun alike => ?_
  rw [← alike.1]
  split
  · exact retraces.access sound inside
  · rename_i operator isOperator
    have isFront := UnaryOperator.ofLexeme?_eq_some_iff.mp isOperator
    have atOperator : before.front.lexeme ≠ .endOfSource := by
      rw [isFront]
      cases operator <;> simp [UnaryOperator.lexeme]
    have shorter := Spelling.size_advance_lt atOperator
    refine Retraces.next_bind atOperator fun _ => ?_
    refine (retraces.unary (by omega)).bind fun _ _ _ => .pure ?_
    rw [notTarget, notTarget]

/-- Binary operations are retraced for as many levels as there are tokens. -/
theorem operations {minimum : Precedence} {left left' : Expression} (sound : below.Sound)
    (retraces : below.Retraces stop stop' below') (small : before.size < levels)
    (more : levels ≤ levels') (inside : before.size ≤ below.levels)
    (same : isTarget left' = isTarget left) :
    Parser.Retraces stop stop' isTarget (below.operations levels minimum left)
      (below'.operations levels' minimum left') before := by
  induction levels generalizing before levels' minimum left left' with
  | zero => exact absurd small (Nat.not_lt_zero _)
  | succ levels step =>
      obtain ⟨levels', rfl⟩ := Nat.exists_eq_succ_of_ne_zero (Nat.ne_zero_of_lt more)
      rw [Grammar.operations, Grammar.operations]
      refine Retraces.peek_bind fun alike => ?_
      rw [← alike.1]
      split
      · exact .pure same
      · rename_i operator isOperator
        have isFront := BinaryOperator.ofLexeme?_eq_some_iff.mp isOperator
        have atOperator : before.front.lexeme ≠ .endOfSource := by simp [isFront, BinaryOperator.lexeme]
        have shorter := Spelling.size_advance_lt atOperator
        split
        · exact .pure same
        · refine Retraces.next_bind atOperator fun _ => ?_
          refine (retraces.unaryExpression sound (by omega)).bind fun _ _ same => ?_
          refine (step (by omega) (by omega) (by omega) same).bind fun _ _ _ => ?_
          exact step (by omega) (by omega) (by omega) rfl

/-- Expressions with binary operators are retraced. -/
theorem binaryExpression {minimum : Precedence} (sound : below.Sound)
    (retraces : below.Retraces stop stop' below') (inside : before.size ≤ below.levels) :
    Parser.Retraces stop stop' isTarget (below.binaryExpression minimum)
      (below'.binaryExpression minimum) before := by
  refine (retraces.unaryExpression sound inside).bind fun {left _ _} reads _ same => ?_
  have between := (sound.unaryExpression reads).1
  have shorter := (Spelling.advances_ofExpression left _ _ between.spelled).2
  exact retraces.operations sound (by omega) retraces.levels (by omega) same

/-- What can be assigned to in one stream can be in the other. -/
theorem assignment (sound : below.Sound) (retraces : below.Retraces stop stop' below')
    (inside : before.size ≤ below.levels) :
    Parser.Retraces stop stop' isTarget below.assignment below'.assignment before := by
  refine (retraces.binaryExpression sound inside).bind fun {_ middle _} _ shorter same => ?_
  refine Retraces.peek_bind fun alike => ?_
  rw [← alike.1, same]
  split
  · rename_i isAssign
    have further := Spelling.size_advance_lt_of_front isAssign (by simp)
    refine Retraces.next_bind_or fun _ => ?_
    split
    · refine .inl ⟨by simp [isAssign], ?_⟩
      exact (retraces.expression (by omega)).bind fun _ _ _ => .pure rfl
    · exact .inr ⟨_, _, rfl, rfl⟩
  · exact .pure same

/-- Declared names are retraced for as many levels as there are tokens. -/
theorem declarators (retraces : below.Retraces stop stop' below')
    (small : before.size < levels) (more : levels ≤ levels') (inside : before.size < below.levels) :
    Parser.Retraces stop stop' (fun _ => ()) (below.declarators levels) (below'.declarators levels')
      before := by
  induction levels generalizing before levels' with
  | zero => exact absurd small (Nat.not_lt_zero _)
  | succ levels step =>
      obtain ⟨levels', rfl⟩ := Nat.exists_eq_succ_of_ne_zero (Nat.ne_zero_of_lt more)
      rw [Grammar.declarators, Grammar.declarators]
      have further {first first' : Declarator} {stream : TokenStream} (fewer : stream.size < levels)
          (insideStream : stream.size < below.levels) :
          Parser.Retraces stop stop' (fun _ => ()) (below.declaratorsTail levels first)
            (below'.declaratorsTail levels' first') stream := by
        refine Retraces.accept?_bind (by simp) (fun _ _ => ?_) fun _ => .pure rfl
        have shorter := (isEndOf_advance stream).size_le
        exact (step (by omega) (by omega) (by omega)).bind fun _ _ _ => .pure rfl
      refine Retraces.identifier.bind fun readsName _ _ => ?_
      obtain ⟨isName, _, rfl⟩ := reads_identifier_iff.mp readsName
      have shorter := Spelling.size_advance_lt_of_front isName (by simp)
      have shorterStill := (isEndOf_advance before.advance).size_le
      refine Retraces.accept?_bind (by simp) (fun _ _ => ?_) fun _ => ?_
      · have value : Parser.Retraces stop stop' (fun _ => ()) (some <$> below.expression)
            (some <$> below'.expression) before.advance.advance :=
          (retraces.expression (by omega)).map fun _ => rfl
        exact value.bind fun _ _ _ => further (by omega) (by omega)
      · have none : Parser.Retraces stop stop' (fun _ => ()) (pure (none : Option Expression))
            (pure none) before.advance := .pure rfl
        exact none.bind fun _ _ _ => further (by omega) (by omega)

/-- Declarations are retraced. -/
theorem declaration (retraces : below.Retraces stop stop' below')
    (inside : before.size ≤ below.levels) :
    Parser.Retraces stop stop' Statement.manner below.declaration below'.declaration before := by
  refine Retraces.next_bind_or fun alike => ?_
  rw [← alike.1]
  split
  · exact .inr ⟨_, _, rfl, rfl⟩
  · rename_i word isWord
    have isFront := DeclarationWord.ofLexeme?_eq_some_iff.mp isWord
    have shorter := Spelling.size_advance_lt_of_front isFront (by simp)
    refine .inl ⟨by simp [isFront], ?_⟩
    exact (retraces.declarators (by omega) retraces.levels (by omega)).bind
      fun _ _ _ => .pure rfl

/-- Branches are retraced, because the manner of a statement tells what a branch does with it. -/
theorem branch (retraces : below.Retraces stop stop' below') (inside : before.size < below.levels) :
    Parser.Retraces stop stop' (fun _ => ()) (Grammar.branch below.statement)
      (Grammar.branch below'.statement) before := by
  refine (retraces.statement inside).bind fun {single _ single'} _ _ same => ?_
  have sameKind : single'.isBlock = single.isBlock := congrArg Prod.snd same
  cases single with
  | block inner =>
      obtain ⟨inner', rfl⟩ := Statement.isBlock_iff.mp sameKind
      exact .pure rfl
  | _ =>
      cases single' with
      | block inner' => cases sameKind
      | _ => exact closing same fun _ => .pure rfl

/-- Conditionals are retraced. -/
theorem conditional (retraces : below.Retraces stop stop' below')
    (inside : before.size ≤ below.levels) :
    Parser.Retraces stop stop' Statement.manner below.conditional below'.conditional before := by
  refine Retraces.expect_bind (by simp) fun _ shorter _ _ => ?_
  refine Retraces.expect_bind (by simp) fun _ further _ _ => ?_
  refine (retraces.expression (by omega)).bind fun _ _ _ => ?_
  refine Retraces.expect_bind (by simp) fun _ _ _ _ => ?_
  refine (retraces.branch (by omega)).bind fun {_ behind _} _ _ _ => ?_
  have lastShorter := (isEndOf_advance behind).size_le
  refine Retraces.accept?_bind (by simp) (fun _ _ => ?_) fun _ => .pure rfl
  exact (retraces.branch (by omega)).bind fun _ _ _ => .pure rfl

/-- Return statements are retraced, which look at the line of the next token. -/
theorem returning (retraces : below.Retraces stop stop' below')
    (isWord : before.front.lexeme ≠ .endOfSource) (inside : before.size ≤ below.levels) :
    Parser.Retraces stop stop' Statement.manner below.returning below'.returning before := by
  have shorter := Spelling.size_advance_lt isWord
  refine Retraces.next_bind isWord fun _ => ?_
  refine Retraces.peek_bind fun alike => ?_
  rw [← alike.1, ← alike.2]
  split
  · exact .pure rfl
  · exact (retraces.expression (by omega)).bind fun _ _ _ => .pure rfl

/-- Every statement is retraced, by its first token. -/
theorem anyStatement (sound : below.Sound) (retraces : below.Retraces stop stop' below')
    (inside : before.size ≤ below.levels) :
    Parser.Retraces stop stop' Statement.manner below.anyStatement below'.anyStatement before := by
  refine Retraces.peek_bind fun alike => ?_
  rw [← alike.1]
  split
  · exact retraces.declaration inside
  · exact retraces.declaration inside
  · exact retraces.declaration inside
  · exact (retraces.functionDef sound inside).bind fun _ _ _ => .pure rfl
  · exact retraces.conditional inside
  · rename_i isWord
    exact retraces.returning (by simp [isWord]) inside
  · exact (retraces.block sound inside).bind fun _ _ _ => .pure rfl
  · rename_i isMark
    exact Retraces.next_bind (by simp [isMark]) fun _ => .pure rfl
  · exact (retraces.assignment sound inside).bind fun _ _ _ => .pure rfl

end Retraces

/-- More levels do not change what is read, by induction on the levels. -/
theorem retraces_within {levels levels' : Nat} (more : levels ≤ levels') :
    (within levels).Retraces stop stop' (within levels') := by
  induction levels generalizing levels' with
  | zero =>
      exact ⟨Nat.zero_le _, fun small => absurd small (Nat.not_lt_zero _),
        fun small => absurd small (Nat.not_lt_zero _), fun small => absurd small (Nat.not_lt_zero _)⟩
  | succ levels step =>
      obtain ⟨levels', rfl⟩ := Nat.exists_eq_succ_of_ne_zero (Nat.ne_zero_of_lt more)
      have retraces := step (Nat.le_of_succ_le_succ more)
      have sound := sound_within levels
      refine ⟨by rwa [levels_within, levels_within], fun small => ?_, fun small => ?_, fun small => ?_⟩
      · refine retraces.assignment sound ?_
        rw [levels_within] at small ⊢
        exact Nat.le_of_lt_succ small
      · refine retraces.unaryExpression sound ?_
        rw [levels_within] at small ⊢
        exact Nat.le_of_lt_succ small
      · refine retraces.anyStatement sound ?_
        rw [levels_within] at small ⊢
        exact Nat.le_of_lt_succ small

end Grammar

end ScriptStrip
