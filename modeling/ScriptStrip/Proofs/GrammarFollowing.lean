import ScriptStrip.Proofs.Following
import ScriptStrip.Proofs.ParserSound
/-
This file shows that a reader by index that is given more levels than there are tokens ahead does
what the reader of the grammar does. So it comes to its end, and more levels change nothing.
-/

namespace ScriptStrip.Grammar
open ScriptStrip.Parser ScriptStrip.Cursor ScriptStrip.Cursor.Reader

/-- The readers by index do what those of the grammar do where fewer tokens than levels are
ahead. -/
structure IsFollowed (below : Grammar) (readers : Readers) : Prop where
  levels : below.levels ≤ readers.levels
  expression : ∀ {before}, before.size < below.levels →
    Follows below.expression readers.expression before
  unary : ∀ {before}, before.size < below.levels → Follows below.unary readers.unary before
  statement : ∀ {before}, before.size < below.levels →
    Follows below.statement readers.statement before

variable {before : TokenStream} {levels levels' limit : Nat}

/-- Lists of items follow if the items do and each of them takes a token. -/
theorem follows_itemsUntil {Item : Type} {close : Punctuator} {item : Parser Item}
    {item' : Reader Item} (each : ∀ {before}, before.size < limit → Follows item item' before)
    (advances : ∀ {before value after}, Reads item before value after → after.size < before.size)
    (small : before.size < levels) (more : levels ≤ levels') (inside : before.size < limit) :
    Follows (Parser.itemsUntil close item levels) (Reader.itemsUntil close item' levels')
      before := by
  induction levels generalizing before levels' with
  | zero => exact absurd small (Nat.not_lt_zero _)
  | succ levels step =>
      obtain ⟨levels', rfl⟩ := Nat.exists_eq_succ_of_ne_zero (Nat.ne_zero_of_lt more)
      rw [Parser.itemsUntil, Reader.itemsUntil]
      refine Follows.accept?.bind fun {found middle} _ shorter => ?_
      cases found with
      | some span => exact .pure _
      | none =>
          refine (each (by omega)).bind fun readsFirst _ => ?_
          have further := advances readsFirst
          refine Follows.accept?.bind fun _ shorter => ?_
          split
          · exact (step (by omega) (by omega) (by omega)).bind fun _ _ => .pure _
          · exact Follows.expect.bind fun _ _ => .pure _

/-- A semicolon behind a statement is read by both. -/
theorem follows_closing {Value : Type} {statement : Statement} {following : Parser Value}
    {following' : Reader Value}
    (follows : ∀ {after}, after.size ≤ before.size → Follows following following' after) :
    Follows
      (do
        if statement.needsSemicolon then Parser.semicolon
        following)
      (do
        if statement.needsSemicolon then Reader.semicolon
        following') before := by
  split
  · exact Follows.semicolon.bind fun _ shorter => follows shorter
  · exact follows (Nat.le_refl _)

/-- Lists of statements follow if the statements do and each of them takes a token. -/
theorem follows_statements {statement : Parser Statement} {statement' : Reader Statement}
    (each : ∀ {before}, before.size < limit → Follows statement statement' before)
    (advances : ∀ {before value after}, Reads statement before value after →
      after.size < before.size)
    (small : before.size < levels) (more : levels ≤ levels') (inside : before.size < limit) :
    Follows (statements statement levels) (Readers.statements statement' levels') before := by
  induction levels generalizing before levels' with
  | zero => exact absurd small (Nat.not_lt_zero _)
  | succ levels step =>
      obtain ⟨levels', rfl⟩ := Nat.exists_eq_succ_of_ne_zero (Nat.ne_zero_of_lt more)
      rw [statements, Readers.statements]
      refine Follows.peek_bind ?_
      split
      · exact .pure _
      · refine (each inside).bind fun readsFirst _ => ?_
        have further := advances readsFirst
        exact follows_closing fun shorter =>
          (step (by omega) (by omega) (by omega)).bind fun _ _ => .pure _

/-- A branch follows if its statement does. -/
theorem follows_branch {statement : Parser Statement} {statement' : Reader Statement}
    (follows : Follows statement statement' before) :
    Follows (branch statement) (Readers.branch statement') before := by
  refine follows.bind fun {single _} _ _ => ?_
  cases single with
  | block inner => exact .pure _
  | _ => exact follows_closing fun _ => .pure _

variable {below : Grammar} {readers : Readers}

namespace IsFollowed

/-- Members of objects follow, since their values do. -/
theorem member (followed : below.IsFollowed readers) (inside : before.size < below.levels) :
    Follows below.member readers.member before := by
  refine Follows.propertyKey.bind fun _ shorter => ?_
  refine Follows.expect_bind (by simp) fun further _ => ?_
  exact (followed.expression (by omega)).bind fun _ _ => .pure _

/-- Lists of expressions follow, since each expression takes a token. -/
theorem items {close : Punctuator} (sound : below.Sound) (followed : below.IsFollowed readers)
    (inside : before.size < below.levels) :
    Follows (Parser.itemsUntil close below.expression below.levels)
      (Reader.itemsUntil close readers.expression readers.levels) before :=
  follows_itemsUntil followed.expression sound.expression_advances inside followed.levels inside

/-- Lists of members follow, since each member takes a token. -/
theorem members {close : Punctuator} (sound : below.Sound) (followed : below.IsFollowed readers)
    (inside : before.size < below.levels) :
    Follows (Parser.itemsUntil close below.member below.levels)
      (Reader.itemsUntil close readers.member readers.levels) before := by
  refine follows_itemsUntil followed.member (fun {_ member _} reads => ?_) inside followed.levels
    inside
  obtain ⟨_, spelled⟩ := sound.member reads
  have ofValue := Spelling.advances_ofExpression member.value
  exact (Spelling.advances_member member.key ofValue _ _ spelled).2

/-- Blocks follow, since their statements do. -/
theorem block (sound : below.Sound) (followed : below.IsFollowed readers)
    (inside : before.size ≤ below.levels) : Follows below.block readers.block before := by
  refine Follows.expect_bind (by simp) fun shorter _ => ?_
  refine (follows_statements followed.statement sound.statement_advances (by omega)
    followed.levels (by omega)).bind fun _ _ => ?_
  exact Follows.expect.bind fun _ _ => .pure _

/-- The parameters and the body of a function follow. -/
theorem functionTail {start : Span} {name : Option String} (sound : below.Sound)
    (followed : below.IsFollowed readers) (inside : before.size < below.levels) :
    Follows (below.functionTail start name) (readers.functionTail start name) before := by
  have nameAdvances {place name : String} {stream after : TokenStream}
      (reads : Reads (Prod.fst <$> Parser.identifier place) stream name after) :
      after.size < stream.size :=
    (Spelling.advances_identifier name _ _ (reads_name_iff.mp reads)).2
  refine Follows.expect_bind (by simp) fun shorter _ => ?_
  refine (follows_itemsUntil (fun _ => Follows.identifier.map _) nameAdvances (by omega)
    followed.levels (Nat.lt_of_lt_of_le shorter (Nat.le_of_lt inside))).bind fun _ further => ?_
  exact (followed.block sound (by omega)).bind fun _ _ => .pure _

/-- Functions follow with and without a name. -/
theorem functionDef {named : Bool} (sound : below.Sound) (followed : below.IsFollowed readers)
    (inside : before.size ≤ below.levels) :
    Follows (below.functionDef named) (readers.functionDef named) before := by
  refine Follows.expect_bind (by simp) fun shorter start => ?_
  refine Follows.peek_bind ?_
  have withName : Follows
      (do
        let name ← some <$> Prod.fst <$> Parser.identifier "function name"
        below.functionTail start name)
      (do
        let name ← some <$> Prod.fst <$> Reader.identifier "function name"
        readers.functionTail start name) before.advance :=
    ((Follows.identifier.map _).map _).bind fun _ further =>
      followed.functionTail sound (by omega)
  cases named with
  | true => exact withName
  | false =>
      cases before.advance.front.lexeme with
      | identifier => exact withName
      | _ => exact (Follows.pure none).bind fun _ _ => followed.functionTail sound (by omega)

/-- The tightest expressions follow. -/
theorem primary (sound : below.Sound) (followed : below.IsFollowed readers)
    (inside : before.size ≤ below.levels) : Follows below.primary readers.primary before := by
  refine Follows.peek_bind ?_
  split
  · exact (followed.functionDef sound inside).bind fun _ _ => .pure _
  · refine Follows.next_bind ?_
    cases isFront : before.front.lexeme with
    | number | string | identifier => exact .pure _
    | endOfSource => exact .refuse _ _
    | keyword word =>
        cases word with
        | trueKw | falseKw | nullKw => exact .pure _
        | _ => exact .refuse _ _
    | punctuator mark =>
        have fewer : before.advance.size < below.levels :=
          Nat.lt_of_lt_of_le (Spelling.size_advance_lt_of_front isFront (by simp)) inside
        cases mark with
        | openParenthesis =>
            refine (followed.expression fewer).bind fun _ _ => ?_
            exact Follows.expect.bind fun _ _ => .pure _
        | openBracket => exact (followed.items sound fewer).bind fun _ _ => .pure _
        | openBrace => exact (followed.members sound fewer).bind fun _ _ => .pure _
        | _ => exact .refuse _ _

/-- Calls and properties follow for as many levels as there are tokens. -/
theorem accesses {head : Expression} (sound : below.Sound) (followed : below.IsFollowed readers)
    (small : before.size < levels) (more : levels ≤ levels') (inside : before.size ≤ below.levels) :
    Follows (below.accesses levels head) (readers.accesses levels' head) before := by
  induction levels generalizing before levels' head with
  | zero => exact absurd small (Nat.not_lt_zero _)
  | succ levels step =>
      obtain ⟨levels', rfl⟩ := Nat.exists_eq_succ_of_ne_zero (Nat.ne_zero_of_lt more)
      rw [Grammar.accesses, Readers.accesses]
      refine Follows.peek_bind ?_
      cases isFront : before.front.lexeme with
      | punctuator mark =>
          have shorter := Spelling.size_advance_lt_of_front isFront (by simp)
          cases mark with
          | dot =>
              refine Follows.next_bind ?_
              exact Follows.propertyName.bind fun _ further =>
                step (by omega) (by omega) (by omega)
          | openBracket =>
              refine Follows.next_bind ?_
              refine (followed.expression (by omega)).bind fun _ further => ?_
              exact Follows.expect.bind fun _ _ => step (by omega) (by omega) (by omega)
          | openParenthesis =>
              refine Follows.next_bind ?_
              exact (followed.items sound (by omega)).bind fun _ further =>
                step (by omega) (by omega) (by omega)
          | _ => exact .pure _
      | _ => exact .pure _

/-- Expressions with unary operators follow. -/
theorem unaryExpression (sound : below.Sound) (followed : below.IsFollowed readers)
    (inside : before.size ≤ below.levels) :
    Follows below.unaryExpression readers.unaryExpression before := by
  refine Follows.peek_bind ?_
  cases isOperator : UnaryOperator.ofLexeme? before.front.lexeme with
  | none =>
      refine (followed.primary sound inside).bind fun {head _} reads _ => ?_
      have shorter := (Spelling.advances_ofExpression head _ _ (sound.primary reads).1.spelled).2
      exact followed.accesses sound (by omega) followed.levels (by omega)
  | some operator =>
      have isFront := UnaryOperator.ofLexeme?_eq_some_iff.mp isOperator
      have atOperator : before.front.lexeme ≠ .endOfSource := by
        rw [isFront]
        cases operator <;> simp [UnaryOperator.lexeme]
      have shorter := Spelling.size_advance_lt atOperator
      refine Follows.next_bind ?_
      exact (followed.unary (by omega)).bind fun _ _ => .pure _

/-- Binary operations follow for as many levels as there are tokens. -/
theorem operations {minimum : Precedence} {left : Expression} (sound : below.Sound)
    (followed : below.IsFollowed readers) (small : before.size < levels) (more : levels ≤ levels')
    (inside : before.size ≤ below.levels) :
    Follows (below.operations levels minimum left) (readers.operations levels' minimum left)
      before := by
  induction levels generalizing before levels' minimum left with
  | zero => exact absurd small (Nat.not_lt_zero _)
  | succ levels step =>
      obtain ⟨levels', rfl⟩ := Nat.exists_eq_succ_of_ne_zero (Nat.ne_zero_of_lt more)
      rw [Grammar.operations, Readers.operations]
      refine Follows.peek_bind ?_
      cases isOperator : BinaryOperator.ofLexeme? before.front.lexeme with
      | none => exact .pure _
      | some operator =>
          have isFront := BinaryOperator.ofLexeme?_eq_some_iff.mp isOperator
          have shorter :=
            Spelling.size_advance_lt_of_front isFront (by simp [BinaryOperator.lexeme])
          dsimp only
          split
          · exact .pure _
          · refine Follows.next_bind ?_
            refine (followed.unaryExpression sound (by omega)).bind fun _ _ => ?_
            refine (step (by omega) (by omega) (by omega)).bind fun _ _ => ?_
            exact step (by omega) (by omega) (by omega)

/-- Expressions with binary operators follow. -/
theorem binaryExpression {minimum : Precedence} (sound : below.Sound)
    (followed : below.IsFollowed readers) (inside : before.size ≤ below.levels) :
    Follows (below.binaryExpression minimum) (readers.binaryExpression minimum) before := by
  refine (followed.unaryExpression sound inside).bind fun {left _} reads _ => ?_
  have between := (sound.unaryExpression reads).1
  have shorter := (Spelling.advances_ofExpression left _ _ between.spelled).2
  exact followed.operations sound (by omega) followed.levels (by omega)

/-- Assignments follow. -/
theorem assignment (sound : below.Sound) (followed : below.IsFollowed readers)
    (inside : before.size ≤ below.levels) : Follows below.assignment readers.assignment before := by
  refine (followed.binaryExpression sound inside).bind fun {_ middle} _ shorter => ?_
  refine Follows.peek_bind ?_
  split
  · rename_i isAssign
    have further := Spelling.size_advance_lt_of_front isAssign (by simp)
    refine Follows.next_bind ?_
    split
    · exact (followed.expression (by omega)).bind fun _ _ => .pure _
    · exact .refuse _ _
  · exact .pure _

/-- Expressions follow at every precedence. -/
theorem expressionAt {minimum : Precedence} (sound : below.Sound)
    (followed : below.IsFollowed readers) (inside : before.size ≤ below.levels) :
    Follows (below.expressionAt minimum) (readers.expressionAt minimum) before := by
  rw [Grammar.expressionAt, Readers.expressionAt]
  split
  · exact followed.assignment sound inside
  · exact followed.binaryExpression sound inside

/-- Declared names follow for as many levels as there are tokens. -/
theorem declarators (followed : below.IsFollowed readers) (small : before.size < levels)
    (more : levels ≤ levels') (inside : before.size < below.levels) :
    Follows (below.declarators levels) (readers.declarators levels') before := by
  induction levels generalizing before levels' with
  | zero => exact absurd small (Nat.not_lt_zero _)
  | succ levels step =>
      obtain ⟨levels', rfl⟩ := Nat.exists_eq_succ_of_ne_zero (Nat.ne_zero_of_lt more)
      have further {first : Declarator} {stream : TokenStream} (fewer : stream.size < levels)
          (insideStream : stream.size < below.levels) : Follows (below.declaratorsTail levels first)
            (readers.declaratorsTail levels' first) stream := by
        refine Follows.accept?.bind fun _ shorter => ?_
        split
        · exact (step (by omega) (by omega) (by omega)).bind fun _ _ => .pure _
        · exact .pure _
      rw [Grammar.declarators, Readers.declarators]
      refine Follows.identifier.bind fun readsName _ => ?_
      obtain ⟨isName, _, rfl⟩ := reads_identifier_iff.mp readsName
      have shorter := Spelling.size_advance_lt_of_front isName (by simp)
      refine Follows.accept?.bind fun {found _} _ _ => ?_
      cases found with
      | some span =>
          exact ((followed.expression (by omega)).map _).bind fun _ _ =>
            further (by omega) (by omega)
      | none => exact (Follows.pure none).bind fun _ _ => further (by omega) (by omega)

/-- Declarations follow. -/
theorem declaration (followed : below.IsFollowed readers) (inside : before.size ≤ below.levels) :
    Follows below.declaration readers.declaration before := by
  refine Follows.next_bind ?_
  cases isWord : DeclarationWord.ofLexeme? before.front.lexeme with
  | none => exact .refuse _ _
  | some word =>
      have isFront := DeclarationWord.ofLexeme?_eq_some_iff.mp isWord
      have shorter := Spelling.size_advance_lt_of_front isFront (by simp)
      exact (followed.declarators (by omega) followed.levels (by omega)).bind fun _ _ => .pure _

/-- Conditionals follow. -/
theorem conditional (followed : below.IsFollowed readers) (inside : before.size ≤ below.levels) :
    Follows below.conditional readers.conditional before := by
  refine Follows.expect_bind (by simp) fun shorter _ => ?_
  refine Follows.expect_bind (by simp) fun further _ => ?_
  refine (followed.expression (by omega)).bind fun _ _ => ?_
  refine Follows.expect.bind fun _ _ => ?_
  refine (follows_branch (followed.statement (by omega))).bind fun _ _ => ?_
  refine Follows.accept?.bind fun _ _ => ?_
  split
  · exact (follows_branch (followed.statement (by omega))).bind fun _ _ => .pure _
  · exact .pure _

/-- Return statements follow, which look at the line of the next token. -/
theorem returning (followed : below.IsFollowed readers)
    (isWord : before.front.lexeme ≠ .endOfSource) (inside : before.size ≤ below.levels) :
    Follows below.returning readers.returning before := by
  have shorter := Spelling.size_advance_lt isWord
  refine Follows.next_bind ?_
  refine Follows.peek_bind ?_
  split
  · exact .pure _
  · exact (followed.expression (by omega)).bind fun _ _ => .pure _

/-- Every statement follows, by its first token. -/
theorem anyStatement (sound : below.Sound) (followed : below.IsFollowed readers)
    (inside : before.size ≤ below.levels) :
    Follows below.anyStatement readers.anyStatement before := by
  have ofExpression : Follows
      (do let value ← below.assignment; return (.expression value value.span : Statement))
      (do let value ← readers.assignment; return (.expression value value.span : Statement))
      before :=
    (followed.assignment sound inside).bind fun _ _ => .pure _
  refine Follows.peek_bind ?_
  cases isFront : before.front.lexeme with
  | keyword word =>
      cases word with
      | varKw | letKw | constKw => exact followed.declaration inside
      | functionKw => exact (followed.functionDef sound inside).bind fun _ _ => .pure _
      | ifKw => exact followed.conditional inside
      | returnKw => exact followed.returning (by simp [isFront]) inside
      | _ => exact ofExpression
  | punctuator mark =>
      cases mark with
      | openBrace => exact (followed.block sound inside).bind fun _ _ => .pure _
      | semicolon => exact Follows.next_bind (.pure _)
      | _ => exact ofExpression
  | _ => exact ofExpression

end IsFollowed

/-- The reader by index follows the parser on every level, by induction on the levels. -/
theorem isFollowed_within (more : levels ≤ levels') :
    (within levels).IsFollowed (Readers.within levels') := by
  induction levels generalizing levels' with
  | zero =>
      exact ⟨Nat.zero_le _, fun small => absurd small (Nat.not_lt_zero _),
        fun small => absurd small (Nat.not_lt_zero _),
        fun small => absurd small (Nat.not_lt_zero _)⟩
  | succ levels step =>
      obtain ⟨levels', rfl⟩ := Nat.exists_eq_succ_of_ne_zero (Nat.ne_zero_of_lt more)
      have followed := step (Nat.le_of_succ_le_succ more)
      have sound := sound_within levels
      have inside {before : TokenStream} (small : before.size < levels + 1) :
          before.size ≤ (within levels).levels := by
        rw [levels_within]
        exact Nat.le_of_lt_succ small
      exact ⟨more, fun small => followed.assignment sound (inside small),
        fun small => followed.unaryExpression sound (inside small),
        fun small => followed.anyStatement sound (inside small)⟩

end ScriptStrip.Grammar
