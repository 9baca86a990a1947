import ScriptStrip.Proofs.Cursor
import ScriptStrip.Proofs.SpellingLaws
/-
This file shows that the readers of single tokens do by index what they do in front of a stream.
-/

namespace ScriptStrip

/-- The end of the source is not passed. -/
theorem TokenStream.advance_eq_self {stream : TokenStream}
    (atEnd : stream.front.lexeme = .endOfSource) : stream.advance = stream := by
  have isEmpty := stream.front_lexeme_eq_end_iff.mp atEnd
  obtain ⟨ahead, last, _, _⟩ := stream
  obtain rfl : ahead = [] := isEmpty
  rfl

namespace Cursor
open ScriptStrip.Parser

/-- The index of the first end of the source. -/
def firstEnd (cursor : Cursor) : Nat :=
  cursor.tokens.findIdx fun token => token.lexeme = .endOfSource

/-- The cursor stands in front of the stream and has passed no end of the source. -/
structure StandsAt (cursor : Cursor) (stream : TokenStream) : Prop where
  ahead : TokenStream.upToEnd? (cursor.tokens.drop cursor.head) = some stream
  passed : ∀ token ∈ cursor.tokens.take cursor.head, token.lexeme ≠ .endOfSource

/-- The second cursor is one to which the first one can move. -/
structure Moves (cursor later : Cursor) : Prop where
  tokens : later.tokens = cursor.tokens
  forward : cursor.head ≤ later.head

variable {cursor later last : Cursor} {stream rest : TokenStream}

/-- A cursor that stays has moved. -/
theorem Moves.refl (cursor : Cursor) : cursor.Moves cursor := ⟨rfl, Nat.le_refl _⟩

/-- Two moves in a row are a move. -/
theorem Moves.trans (moves : cursor.Moves later) (further : later.Moves last) :
    cursor.Moves last :=
  ⟨further.tokens.trans moves.tokens, Nat.le_trans moves.forward further.forward⟩

/-- The end that a cursor runs into stays the same. -/
theorem Moves.firstEnd_eq (moves : cursor.Moves later) : later.firstEnd = cursor.firstEnd := by
  rw [firstEnd, firstEnd, moves.tokens]

namespace StandsAt

/-- The tokens behind the cursor start with those of the stream. -/
theorem drop_eq (stands : cursor.StandsAt stream) :
    ∃ behind, cursor.tokens.drop cursor.head = stream.toList ++ behind :=
  TokenStream.toList_upToEnd? stands.ahead

/-- The token at the cursor is the front of the stream. -/
theorem getElem? (stands : cursor.StandsAt stream) :
    cursor.tokens[cursor.head]? = some stream.front := by
  obtain ⟨behind, isAhead⟩ := stands.drop_eq
  rw [← List.head?_drop, isAhead, TokenStream.toList, TokenStream.front]
  cases stream.ahead <;> rfl

/-- The first end of the source is where the stream ends. -/
theorem head_add_size (stands : cursor.StandsAt stream) :
    cursor.head + stream.size = cursor.firstEnd ∧ cursor.firstEnd < cursor.tokens.length := by
  obtain ⟨behind, isAhead⟩ := stands.drop_eq
  obtain ⟨short, _⟩ := List.getElem?_eq_some_iff.mp stands.getElem?
  have whole : cursor.tokens =
      (cursor.tokens.take cursor.head ++ stream.ahead) ++ stream.last :: behind := by
    rw [List.append_assoc, List.append_cons, ← TokenStream.toList, ← isAhead,
      List.take_append_drop]
  have isLength : (cursor.tokens.take cursor.head ++ stream.ahead).length =
      cursor.head + stream.size := by
    rw [List.length_append, List.length_take_of_le (Nat.le_of_lt short), TokenStream.size]
  have notInFront : ∀ token ∈ cursor.tokens.take cursor.head ++ stream.ahead,
      token.lexeme ≠ .endOfSource := fun token inside =>
    (List.mem_append.mp inside).elim (stands.passed token) (stream.ahead_lexeme token)
  generalize cursor.tokens.take cursor.head ++ stream.ahead = front at whole isLength notInFront
  rw [firstEnd, whole, ← isLength, List.findIdx_append, List.findIdx_cons]
  have notFound : front.findIdx (fun token => token.lexeme = .endOfSource) = front.length :=
    List.findIdx_eq_length.mpr fun token inside => by simp [notInFront token inside]
  simp [notFound, stream.last_lexeme]

/-- A cursor that has moved stands at a stream that is not longer. -/
theorem size_le (stands : cursor.StandsAt stream) (moves : cursor.Moves later)
    (standsLater : later.StandsAt rest) : rest.size ≤ stream.size := by
  have before := stands.head_add_size.1
  have after := standsLater.head_add_size.1
  have sameEnd := moves.firstEnd_eq
  have forward := moves.forward
  omega

/-- Behind a token there is the stream behind it. -/
theorem advance (stands : cursor.StandsAt stream) (inside : stream.front.lexeme ≠ .endOfSource) :
    StandsAt { cursor with head := cursor.head + 1 } stream.advance := by
  obtain ⟨short, isFront⟩ := List.getElem?_eq_some_iff.mp stands.getElem?
  constructor
  · have ahead := stands.ahead
    rw [List.drop_eq_getElem_cons short, isFront, TokenStream.upToEnd?, dif_neg inside] at ahead
    obtain ⟨rest, isRest, same⟩ := Option.map_eq_some_iff.mp ahead
    rw [isRest, ← same]
    rfl
  · rw [List.take_succ_eq_append_getElem short, isFront]
    intro token inTake
    rcases List.mem_append.mp inTake with isPassed | isLast
    · exact stands.passed token isPassed
    · rwa [List.mem_singleton.mp isLast]

end StandsAt

/-- What a reader by index comes to is what a reader of streams comes to, and the cursor has not
moved backwards. -/
inductive EndsLike {Value : Type} (cursor : Cursor) :
    EStateM.Result SyntaxError TokenStream Value → Option (Except Stop Value × Cursor) → Prop where
  | ok {value : Value} {rest : TokenStream} {later : Cursor} (moves : cursor.Moves later)
      (stands : later.StandsAt rest) : EndsLike cursor (.ok value rest) (some (.ok value, later))
  | error {error : SyntaxError} {rest : TokenStream} {later : Cursor} (moves : cursor.Moves later)
      (stands : later.StandsAt rest) :
      EndsLike cursor (.error error rest) (some (.error (.refused error), later))

/-- An outcome behind a move is an outcome from before it. -/
theorem EndsLike.of_moves {Value : Type} {result : EStateM.Result SyntaxError TokenStream Value}
    {outcome : Option (Except Stop Value × Cursor)} (ends : later.EndsLike result outcome)
    (moves : cursor.Moves later) : cursor.EndsLike result outcome := by
  cases ends with
  | ok further stands => exact .ok (moves.trans further) stands
  | error further stands => exact .error (moves.trans further) stands

namespace Reader

variable {Value Result : Type} {before : TokenStream}

/-- Wherever a cursor stands in front of the stream, the reader does there by index what the parser
does. -/
def Follows (parser : Parser Value) (reader : Reader Value) (before : TokenStream) : Prop :=
  ∀ cursor : Cursor, cursor.StandsAt before →
    cursor.EndsLike (parser.run before) (reader.outcome cursor)

/-- There is a token at the index of a cursor that stands in front of a stream. -/
theorem outcome_peek {cursor : Cursor} (stands : cursor.StandsAt before) :
    peek.outcome cursor = some (.ok before.front, cursor) := by
  show StateT.run (ExceptT.run (cursor.tokens[cursor.head]?.getDM (throw Stop.outside))) cursor = _
  rw [stands.getElem?]
  rfl

namespace Follows

variable {parser : Parser Value} {reader : Reader Value}

/-- A value alone follows itself. -/
theorem pure (value : Value) : Follows (pure value) (pure value) before :=
  fun cursor stands => .ok (.refl cursor) stands

/-- A refusal follows the same refusal. -/
theorem refuse (token : Token) (cause : Lexeme → SyntaxError.Cause) :
    Follows (Parser.refuse token cause : Parser Value) (Reader.refuse token cause) before :=
  fun cursor stands => .error (.refl cursor) stands

/-- Two readers in a row follow if the second does, behind all that the first reads. -/
theorem bind {next : Value → Parser Result} {next' : Value → Reader Result}
    (follows : Follows parser reader before)
    (following : ∀ {value middle}, Reads parser before value middle →
      middle.size ≤ before.size → Follows (next value) (next' value) middle) :
    Follows (parser >>= next) (reader >>= next') before := by
  intro cursor stands
  have ends := follows cursor stands
  rw [EStateM.run_bind, outcome, ExceptT.run_bind, StateT.run_bind]
  rw [outcome] at ends
  generalize ran : parser.run before = result at ends
  generalize reader.run.run cursor = found at ends
  cases ends with
  | @ok value rest later moves standsLater =>
      exact (following ran (stands.size_le moves standsLater) later standsLater).of_moves moves
  | error moves standsLater => exact .error moves standsLater

/-- A function on the result follows. -/
theorem map (follows : Follows parser reader before) (function : Value → Result) :
    Follows (function <$> parser) (function <$> reader) before := by
  rw [map_eq_pure_bind, map_eq_pure_bind]
  exact follows.bind fun _ _ => .pure _

/-- Looking at a token follows. -/
theorem peek : Follows Parser.peek Reader.peek before := by
  intro cursor stands
  rw [outcome_peek stands]
  exact .ok (.refl cursor) stands

/-- A reader that looks first follows if it does with the token in front. -/
theorem peek_bind {next : Token → Parser Value} {next' : Token → Reader Value}
    (following : Follows (next before.front) (next' before.front) before) :
    Follows (Parser.peek >>= next) (Reader.peek >>= next') before := by
  refine peek.bind fun reads _ => ?_
  obtain ⟨rfl, rfl⟩ := reads_peek_iff.mp reads
  exact following

/-- Taking a token follows, and at the end it stays. -/
theorem next : Follows Parser.next Reader.next before := by
  intro cursor stands
  have isFront := outcome_peek stands
  rw [outcome] at isFront
  rw [outcome, Reader.next, ExceptT.run_bind, StateT.run_bind, isFront]
  show cursor.EndsLike (.ok before.front before.advance) (StateT.run (ExceptT.run (do
    if before.front.lexeme ≠ .endOfSource then
      modify fun cursor => { cursor with head := cursor.head + 1 }
    return before.front)) cursor)
  by_cases atEnd : before.front.lexeme = .endOfSource
  · rw [if_neg (not_not_intro atEnd), TokenStream.advance_eq_self atEnd]
    exact .ok (.refl cursor) stands
  · rw [if_pos atEnd]
    exact .ok ⟨rfl, Nat.le_succ _⟩ (stands.advance atEnd)

/-- A reader that takes a token first follows if the rest does behind it. -/
theorem next_bind {next : Token → Parser Value} {next' : Token → Reader Value}
    (following : Follows (next before.front) (next' before.front) before.advance) :
    Follows (Parser.next >>= next) (Reader.next >>= next') before := by
  refine Follows.next.bind fun reads _ => ?_
  obtain ⟨rfl, rfl⟩ := reads_next_iff.mp reads
  exact following

/-- An optional token follows. -/
theorem accept? {wanted : Lexeme} :
    Follows (Parser.accept? wanted) (Reader.accept? wanted) before := by
  refine peek_bind ?_
  split
  · exact next_bind (.pure _)
  · exact .pure _

/-- An expected token follows. -/
theorem expect {wanted : Lexeme} :
    Follows (Parser.expect wanted) (Reader.expect wanted) before := by
  refine next_bind ?_
  split
  · exact .pure _
  · exact .refuse _ _

/-- A name follows. -/
theorem identifier {place : String} :
    Follows (Parser.identifier place) (Reader.identifier place) before := by
  refine next_bind ?_
  cases before.front.lexeme with
  | identifier name => exact .pure _
  | _ => exact .refuse _ _

/-- The name of a property follows. -/
theorem propertyName : Follows Parser.propertyName Reader.propertyName before := by
  refine next_bind ?_
  cases before.front.lexeme with
  | identifier | keyword => exact .pure _
  | _ => exact .refuse _ _

/-- A key follows. -/
theorem propertyKey : Follows Parser.propertyKey Reader.propertyKey before := by
  refine next_bind ?_
  cases before.front.lexeme with
  | identifier | keyword | string | number => exact .pure _
  | _ => exact .refuse _ _

/-- The end of the source follows. -/
theorem finish : Follows Parser.finish Reader.finish before := by
  refine peek_bind ?_
  split
  · exact .pure _
  · exact .refuse _ _

/-- A semicolon follows, which looks at the line of the next token. -/
theorem semicolon : Follows Parser.semicolon Reader.semicolon before := by
  refine accept?.bind fun _ _ => ?_
  split
  · refine peek_bind ?_
    split
    · exact .pure _
    · exact .refuse _ _
  · exact .pure _

/-- Behind the wanted token there is one token less. -/
theorem expect_bind {wanted : Lexeme} {next : Span → Parser Value} {next' : Span → Reader Value}
    (inside : wanted ≠ .endOfSource)
    (following : before.advance.size < before.size →
      ∀ span, Follows (next span) (next' span) before.advance) :
    Follows (Parser.expect wanted >>= next) (Reader.expect wanted >>= next') before := by
  refine expect.bind fun reads _ => ?_
  obtain ⟨isWanted, rfl, rfl⟩ := reads_expect_iff.mp reads
  exact following (Spelling.size_advance_lt_of_front isWanted inside) _

end Follows

end Reader

end Cursor

end ScriptStrip
