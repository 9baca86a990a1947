import ScriptStrip.Proofs.Reading
/-
This file says of each reader of tokens when it refuses a token, and with which error.
-/

namespace ScriptStrip

/-- The reader fails in front of the stream. -/
def Parser.Refuses {Value : Type} (parser : Parser Value) (before : TokenStream)
    (error : SyntaxError) : Prop :=
  ∃ rest, parser.run before = .error error rest

namespace Parser

variable {Value Result : Type} {before after : TokenStream} {value : Value} {error : SyntaxError}

/-- A parser reads at most one value from a stream, and leaves one rest. -/
theorem Reads.unique {parser : Parser Value} {value' : Value} {after' : TokenStream}
    (reads : Reads parser before value after) (reads' : Reads parser before value' after') :
    value' = value ∧ after' = after := by
  rw [Reads, reads] at reads'
  cases reads'
  exact ⟨rfl, rfl⟩

@[simp] theorem not_refuses_pure {returned : Value} : ¬ Refuses (pure returned) before error := by
  simp [Refuses]

/-- Two parsers in a row refuse where the first does, or where the second does behind it. -/
theorem refuses_bind_iff {first : Parser Value} {next : Value → Parser Result} :
    Refuses (first >>= next) before error ↔
      Refuses first before error ∨
        ∃ value middle, Reads first before value middle ∧ Refuses (next value) middle error := by
  unfold Refuses Reads
  rw [EStateM.run_bind]
  constructor
  · intro ran
    split at ran
    · rename_i value middle first
      exact .inr ⟨value, middle, first, ran⟩
    · rename_i found rest first
      obtain ⟨_, same⟩ := ran
      obtain ⟨rfl, _⟩ := EStateM.Result.error.inj same
      exact .inl ⟨rest, first⟩
  · rintro (⟨rest, ran⟩ | ⟨value, middle, first, ran⟩)
    · rw [ran]
      exact ⟨rest, rfl⟩
    · rw [first]
      exact ran

/-- A function on the result changes nothing about the errors. -/
@[simp] theorem refuses_map_iff {first : Parser Value} {function : Value → Result} :
    Refuses (function <$> first) before error ↔ Refuses first before error := by
  rw [map_eq_pure_bind, refuses_bind_iff]
  simp

/-- Looking at a token never fails. -/
@[simp] theorem not_refuses_peek : ¬ Refuses peek before error := by
  rintro ⟨rest, ⟨⟩⟩

/-- Taking a token never fails. -/
@[simp] theorem not_refuses_next : ¬ Refuses next before error := by
  rintro ⟨rest, ⟨⟩⟩

/-- A parser that looks first refuses as it does knowing the token in front. -/
@[simp] theorem refuses_peek_bind_iff {next : Token → Parser Value} :
    Refuses (peek >>= next) before error ↔ Refuses (next before.front) before error := by
  simp [refuses_bind_iff, and_assoc]

/-- A parser that takes a token first refuses as what follows does. -/
@[simp] theorem refuses_next_bind_iff {following : Token → Parser Value} :
    Refuses (next >>= following) before error ↔
      Refuses (following before.front) before.advance error := by
  simp [refuses_bind_iff, and_assoc]

/-- A refusal gives the cause for the token, at the place of the token. -/
@[simp] theorem refuses_refuse_iff {token : Token} {cause : Lexeme → SyntaxError.Cause} :
    Refuses (refuse token cause : Parser Value) before error ↔
      error = ⟨cause token.lexeme, token.span⟩ := by
  constructor
  · rintro ⟨rest, ⟨⟩⟩
    rfl
  · rintro rfl
    exact ⟨before, rfl⟩

/-- A choice refuses as the branch that it takes. -/
theorem refuses_ite_iff {condition : Prop} [Decidable condition] {first second : Parser Value} :
    Refuses (if condition then first else second) before error ↔
      condition ∧ Refuses first before error ∨ ¬ condition ∧ Refuses second before error := by
  by_cases holds : condition <;> simp [holds]

/-- An optional token never fails. -/
@[simp] theorem not_refuses_accept? {wanted : Lexeme} : ¬ Refuses (accept? wanted) before error := by
  simp [accept?, refuses_ite_iff]

/-- What follows an optional token refuses with the token taken or left. -/
theorem refuses_accept?_bind_iff {wanted : Lexeme} {next : Option Span → Parser Value} :
    Refuses (accept? wanted >>= next) before error ↔
      before.front.lexeme = wanted ∧ Refuses (next (some before.front.span)) before.advance error ∨
        before.front.lexeme ≠ wanted ∧ Refuses (next none) before error := by
  rw [accept?, bind_assoc, refuses_peek_bind_iff]
  by_cases isWanted : before.front.lexeme = wanted <;> simp [isWanted]

/-- An expected token is refused exactly where another one is in front. -/
@[simp] theorem refuses_expect_iff {wanted : Lexeme} :
    Refuses (expect wanted) before error ↔ before.front.lexeme ≠ wanted ∧
      error = ⟨.expectedLexeme wanted before.front.lexeme, before.front.span⟩ := by
  simp [expect, refuses_ite_iff]

/-- Behind an expected token an error is that of the token or of what follows. -/
theorem refuses_expect_bind_iff {wanted : Lexeme} {next : Span → Parser Value} :
    Refuses (expect wanted >>= next) before error ↔
      before.front.lexeme ≠ wanted ∧
          error = ⟨.expectedLexeme wanted before.front.lexeme, before.front.span⟩ ∨
        before.front.lexeme = wanted ∧ Refuses (next before.front.span) before.advance error := by
  simp [refuses_bind_iff, and_assoc]

/-- A name is refused exactly where the token is no name. -/
@[simp] theorem refuses_identifier_iff {place : String} :
    Refuses (identifier place) before error ↔
      (∀ name, before.front.lexeme ≠ .identifier name) ∧
        error = ⟨.expectedIdentifier place before.front.lexeme, before.front.span⟩ := by
  rw [identifier, refuses_next_bind_iff]
  cases front : before.front.lexeme <;> simp [front]

/-- The name of a property is refused exactly where the token is no word. -/
@[simp] theorem refuses_propertyName_iff :
    Refuses propertyName before error ↔
      (∀ name, ¬ before.front.lexeme.IsWord name) ∧
        error = ⟨.expectedIdentifier "property access" before.front.lexeme, before.front.span⟩ := by
  rw [propertyName, refuses_next_bind_iff]
  cases front : before.front.lexeme <;> simp [front, Lexeme.IsWord]

/-- A key is refused exactly where the token writes none. -/
@[simp] theorem refuses_propertyKey_iff :
    Refuses propertyKey before error ↔
      (∀ key : PropertyKey, ¬ key.IsWrittenAs before.front.lexeme) ∧
        error = ⟨.expectedPropertyKey before.front.lexeme, before.front.span⟩ := by
  have forall_iff {holds : PropertyKey → Prop} : (∀ key, holds key) ↔
      (∀ name span, holds (.identifier name span)) ∧
        (∀ content quote span, holds (.string content quote span)) ∧
        ∀ digits span, holds (.number digits span) :=
    ⟨fun all => ⟨fun _ _ => all _, fun _ _ _ => all _, fun _ _ => all _⟩,
      fun ⟨identifier, string, number⟩ key => by
        cases key with
        | identifier name span => exact identifier name span
        | string content quote span => exact string content quote span
        | number digits span => exact number digits span⟩
  have someSpan : Nonempty Span := ⟨.null⟩
  rw [propertyKey, refuses_next_bind_iff]
  cases front : before.front.lexeme <;>
    simp [front, forall_iff, PropertyKey.IsWrittenAs, Lexeme.IsWord]

/-- A semicolon is missed only where neither a line break, a brace nor the end allows it. -/
@[simp] theorem refuses_semicolon_iff :
    Refuses semicolon before error ↔
      before.front.lexeme ≠ .punctuator .semicolon ∧
        ¬ (before.front.afterLineBreak = true ∨ before.front.lexeme = .punctuator .closeBrace ∨
          before.front.lexeme = .endOfSource) ∧
        error = ⟨.expectedSemicolon before.front.lexeme, before.front.span⟩ := by
  rw [semicolon, refuses_accept?_bind_iff]
  simp [refuses_ite_iff]

/-- The end is refused exactly where tokens are left. -/
@[simp] theorem refuses_finish_iff :
    Refuses finish before error ↔ before.front.lexeme ≠ .endOfSource ∧
      error = ⟨.expectedEnd before.front.lexeme, before.front.span⟩ := by
  rw [finish, refuses_peek_bind_iff]
  by_cases atEnd : before.front.lexeme = .endOfSource <;> simp [atEnd]

/-- A reader refuses as its part does with one level more than there are tokens. -/
theorem refuses_reader_iff {part : Grammar → Parser Value} :
    Refuses (Grammar.reader part) before error ↔
      Refuses (part (Grammar.within (before.size + 1))) before error := by
  have notRefusesGet : ¬ Refuses get before error := by
    rintro ⟨rest, ⟨⟩⟩
  simp [Grammar.reader, refuses_bind_iff, notRefusesGet, reads_get_iff, and_assoc]

/-- A text is rejected where the reader fails or where more tokens stand behind what it reads. -/
theorem refuses_of_readAll {reader : Parser Value} {source : String}
    (scanned : TokenStream.ofSource source = .ok before)
    (rejected : reader.readAll source = .error error) :
    Refuses reader before error ∨ ∃ value after, Reads reader before value after ∧
      Refuses finish after error := by
  have refuses : Refuses (do let value ← reader; finish; return value) before error := by
    rw [readAll, scanned] at rejected
    dsimp only [bind, Except.bind] at rejected
    split at rejected
    · cases rejected
    · rename_i rest ran
      cases rejected
      exact ⟨rest, ran⟩
  simpa [refuses_bind_iff] using refuses

end Parser

end ScriptStrip
