import ScriptStrip.Parser.Grammar
/-
This file says of each reader of tokens when it succeeds, what it returns and what it leaves.
-/

namespace ScriptStrip

/-- The reader returns the value in front of one stream and leaves the other one. -/
def Parser.Reads {Value : Type} (parser : Parser Value) (before : TokenStream) (value : Value)
    (after : TokenStream) : Prop :=
  parser.run before = .ok value after

namespace Parser

variable {Value Result : Type} {before after : TokenStream} {value : Value} {result : Result}

/-- A value alone is read without any token. -/
@[simp] theorem reads_pure_iff {returned : Value} :
    Reads (pure returned) before value after ↔ value = returned ∧ after = before := by
  simp [Reads, eq_comm]

/-- Two parsers in a row read where the first leaves a stream for the second. -/
theorem reads_bind_iff {first : Parser Value} {next : Value → Parser Result} :
    Reads (first >>= next) before result after ↔
      ∃ value middle, Reads first before value middle ∧ Reads (next value) middle result after := by
  unfold Reads
  rw [EStateM.run_bind]
  constructor
  · intro ran
    split at ran
    · rename_i value middle first
      exact ⟨value, middle, first, ran⟩
    · cases ran
  · rintro ⟨value, middle, first, second⟩
    rw [first]
    exact second

/-- A function acts on the value that is read. -/
@[simp] theorem reads_map_iff {first : Parser Value} {function : Value → Result} :
    Reads (function <$> first) before result after ↔
      ∃ value, Reads first before value after ∧ result = function value := by
  rw [map_eq_pure_bind, reads_bind_iff]
  simp only [reads_pure_iff]
  constructor
  · rintro ⟨value, _, reads, same, rfl⟩
    exact ⟨value, reads, same⟩
  · rintro ⟨value, reads, same⟩
    exact ⟨value, after, reads, same, rfl⟩

/-- The stream itself is looked at and left as it is. -/
theorem reads_get_iff {stream : TokenStream} :
    Reads get before stream after ↔ stream = before ∧ after = before := by
  simp [Reads, eq_comm]

/-- Looking at a token leaves the stream as it is. -/
@[simp] theorem reads_peek_iff {token : Token} :
    Reads peek before token after ↔ token = before.front ∧ after = before := by
  simp only [peek, reads_bind_iff, reads_get_iff, reads_pure_iff]
  constructor
  · rintro ⟨_, _, ⟨rfl, rfl⟩, same⟩
    exact same
  · intro same
    exact ⟨before, before, ⟨rfl, rfl⟩, same⟩

/-- Taking a token leaves the stream behind it. -/
@[simp] theorem reads_next_iff {token : Token} :
    Reads next before token after ↔ token = before.front ∧ after = before.advance := by
  constructor
  · intro reads
    cases reads
    exact ⟨rfl, rfl⟩
  · rintro ⟨rfl, rfl⟩
    rfl

/-- Looking at the front token takes nothing from the stream. -/
@[simp] theorem reads_peek_bind_iff {next : Token → Parser Value} :
    Reads (peek >>= next) before value after ↔ Reads (next before.front) before value after := by
  simp [reads_bind_iff, and_assoc]

/-- Behind a token that is taken the rest of the parser reads on. -/
@[simp] theorem reads_next_bind_iff {following : Token → Parser Value} :
    Reads (next >>= following) before value after ↔
      Reads (following before.front) before.advance value after := by
  simp [reads_bind_iff, and_assoc]

/-- A refusal reads nothing. -/
@[simp] theorem not_reads_refuse {token : Token} {cause : Lexeme → SyntaxError.Cause} :
    ¬ Reads (refuse token cause) before value after := by
  intro reads
  cases reads

/-- Without any level left nothing is read. -/
@[simp] theorem not_reads_tooDeep : ¬ Reads tooDeep before value after := by
  simp [tooDeep]

/-- A condition on what has been read decides which reader goes on. -/
theorem reads_ite_iff {condition : Prop} [Decidable condition] {first second : Parser Value} :
    Reads (if condition then first else second) before value after ↔
      condition ∧ Reads first before value after ∨ ¬ condition ∧ Reads second before value after := by
  by_cases holds : condition <;> simp [holds]

/-- The span is there exactly if the front token was the wanted one and has been taken. -/
theorem reads_accept?_bind_iff {wanted : Lexeme} {next : Option Span → Parser Value} :
    Reads (accept? wanted >>= next) before value after ↔
      before.front.lexeme = wanted ∧
          Reads (next (some before.front.span)) before.advance value after ∨
        before.front.lexeme ≠ wanted ∧ Reads (next none) before value after := by
  rw [accept?, bind_assoc, reads_peek_bind_iff]
  by_cases isWanted : before.front.lexeme = wanted <;> simp [isWanted]

/-- An optional token is taken exactly where it is in front. -/
theorem reads_accept?_iff {wanted : Lexeme} {found : Option Span} :
    Reads (accept? wanted) before found after ↔
      before.front.lexeme = wanted ∧ found = some before.front.span ∧ after = before.advance ∨
        before.front.lexeme ≠ wanted ∧ found = none ∧ after = before := by
  rw [← bind_pure (accept? wanted), reads_accept?_bind_iff]
  simp

/-- An expected token is taken with its place. -/
@[simp] theorem reads_expect_iff {wanted : Lexeme} {span : Span} :
    Reads (expect wanted) before span after ↔
      before.front.lexeme = wanted ∧ span = before.front.span ∧ after = before.advance := by
  simp [expect, reads_ite_iff]

/-- A name is taken with its place. -/
@[simp] theorem reads_identifier_iff {place : String} {name : String × Span} :
    Reads (identifier place) before name after ↔
      before.front.lexeme = .identifier name.1 ∧ name.2 = before.front.span ∧
        after = before.advance := by
  obtain ⟨name, span⟩ := name
  rw [identifier, reads_next_bind_iff]
  cases before.front.lexeme <;> simp [and_assoc, eq_comm]

/-- The end is read without a step. -/
@[simp] theorem reads_finish_iff {returned : Unit} :
    Reads finish before returned after ↔ before.front.lexeme = .endOfSource ∧ after = before := by
  rw [finish, reads_peek_bind_iff]
  by_cases atEnd : before.front.lexeme = .endOfSource <;> simp [atEnd]

end Parser

/-- The lexeme can be written where a name of any kind is wanted. -/
def Lexeme.IsWord (lexeme : Lexeme) (name : String) : Prop :=
  lexeme = .identifier name ∨ ∃ word : Keyword, lexeme = .keyword word ∧ name = word.text

/-- The lexeme is read as the key of a member. -/
def PropertyKey.IsWrittenAs : PropertyKey → Lexeme → Prop
  | .identifier name _, lexeme => lexeme.IsWord name
  | .string content quote _, lexeme => lexeme = .string content quote
  | .number digits _, lexeme => lexeme = .number digits

namespace Parser

variable {Value Result : Type} {before after : TokenStream} {value : Value} {result : Result}

/-- The name of a property may be any word. -/
@[simp] theorem reads_propertyName_iff {name : String × Span} :
    Reads propertyName before name after ↔
      before.front.lexeme.IsWord name.1 ∧ name.2 = before.front.span ∧ after = before.advance := by
  obtain ⟨name, span⟩ := name
  rw [propertyName, reads_next_bind_iff]
  cases before.front.lexeme <;> simp [Lexeme.IsWord, and_assoc, eq_comm]

/-- A key is taken from the token that writes it. -/
@[simp] theorem reads_propertyKey_iff {key : PropertyKey} :
    Reads propertyKey before key after ↔
      key.IsWrittenAs before.front.lexeme ∧ key.span = before.front.span ∧
        after = before.advance := by
  rw [propertyKey, reads_next_bind_iff]
  cases before.front.lexeme <;> cases key <;>
    simp [PropertyKey.IsWrittenAs, PropertyKey.span, Lexeme.IsWord, and_assoc, eq_comm]

/-- A semicolon is taken, or left out where that is allowed. -/
@[simp] theorem reads_semicolon_iff {returned : Unit} :
    Reads semicolon before returned after ↔
      before.front.lexeme = .punctuator .semicolon ∧ after = before.advance ∨
        before.front.lexeme ≠ .punctuator .semicolon ∧ after = before ∧
          (before.front.afterLineBreak = true ∨ before.front.lexeme = .punctuator .closeBrace ∨
            before.front.lexeme = .endOfSource) := by
  rw [semicolon, reads_accept?_bind_iff]
  by_cases isMark : before.front.lexeme = .punctuator .semicolon
  · simp [isMark]
  · simp [isMark, reads_ite_iff, and_comm]

end Parser

end ScriptStrip
