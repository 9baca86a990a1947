import ScriptStrip.Proofs.GrammarFollowing
/-
This file shows that each call of a reader by index comes to its end, also behind calls that have
failed, that it looks at no index outside the tokens and that it never goes past the first end of
the source.
-/

namespace ScriptStrip.Cursor
open ScriptStrip.Parser ScriptStrip.Grammar

section

variable {tokens : List Token} {start : Cursor}

/-- Tokens with an end of the source are read up to the first one. -/
theorem exists_upToEnd? (ends : ∃ token ∈ tokens, token.lexeme = .endOfSource) :
    ∃ stream, TokenStream.upToEnd? tokens = some stream := by
  induction tokens with
  | nil => simp at ends
  | cons first rest inductionHypothesis =>
      rw [TokenStream.upToEnd?]
      split
      · exact ⟨_, rfl⟩
      · rename_i notEnd
        obtain ⟨stream, found⟩ := inductionHypothesis (by simpa [notEnd] using ends)
        exact ⟨_, by rw [found]; rfl⟩

/-- A cursor is made at the first token of a list that has an end, and stands at a stream. -/
theorem standsAt_of_ofTokens? (made : ofTokens? tokens = some start) :
    start = ⟨tokens, 0⟩ ∧ ∃ stream, start.StandsAt stream := by
  unfold ofTokens? at made
  split at made
  · rename_i token isLast
    split at made
    · rename_i atEnd
      cases made
      obtain ⟨stream, found⟩ := exists_upToEnd? ⟨token, List.mem_of_getLast? isLast, atEnd⟩
      exact ⟨rfl, stream, found, by simp⟩
    · cases made
  · cases made

/-- At the start of its own tokens a cursor stands at the stream. -/
theorem standsAt_toList (stream : TokenStream) : StandsAt ⟨stream.toList, 0⟩ stream :=
  ⟨stream.upToEnd?_toList, by simp⟩

end

namespace Reader

variable {Value : Type} {levels : Nat} {before after : TokenStream}

/-- What is left of the tokens is not more than there was. -/
theorem Follows.size_le {parser : Parser Value} {reader : Reader Value} {value : Value}
    (follows : Follows parser reader before) (reads : Reads parser before value after) :
    after.size ≤ before.size := by
  have stands := standsAt_toList before
  have ends := follows _ stands
  rw [reads] at ends
  generalize reader.outcome _ = found at ends
  cases ends with
  | ok moves standsLater => exact stands.size_le moves standsLater

/-- A reader of streams has one level more than there are tokens ahead. -/
theorem follows_reader {part : Grammar → Parser Value} (part' : Readers → Reader Value)
    (each : ∀ {below : Grammar} {readers : Readers}, below.Sound → below.IsFollowed readers →
      before.size < below.levels → Follows (part below) (part' readers) before)
    (small : before.size < levels) :
    Follows (Grammar.reader part) (part' (Readers.within levels)) before :=
  each (sound_within _) (isFollowed_within small) (by simp [levels_within])

/-- The reader of each form of node follows its parser. -/
theorem follows_form (form : Node.Form) (small : before.size < levels) :
    Follows form.parser ((Readers.within levels).ofForm form) before := by
  have ofStatement : Follows Parser.statement (Readers.within levels).anyStatement before :=
    follows_reader Readers.anyStatement
      (fun sound followed inside => followed.anyStatement sound (Nat.le_of_lt inside)) small
  cases form with
  | script =>
      have ofItems : Follows
          (Grammar.reader fun below => statements below.anyStatement below.levels)
          (Readers.statements (Readers.within levels).anyStatement (Readers.within levels).levels)
          before :=
        follows_reader (fun readers => Readers.statements readers.anyStatement readers.levels)
          (fun sound followed inside => follows_statements
            (fun small => followed.anyStatement sound (Nat.le_of_lt small))
            (fun reads => (Spelling.advances_ofStatement _ _ _ (sound.anyStatement reads).2.1).2)
            inside followed.levels inside) small
      have ofScript : Follows Parser.script (Readers.within levels).script before :=
        ofItems.bind fun _ _ => Follows.finish.bind fun _ _ => Follows.peek_bind (.pure _)
      exact ofScript.map _
  | statement => exact ofStatement.map _
  | expression =>
      exact (follows_reader Readers.assignment (fun sound followed inside =>
        followed.assignment sound (Nat.le_of_lt inside)) small).map _
  | block =>
      exact (follows_reader Readers.block (fun sound followed inside =>
        followed.block sound (Nat.le_of_lt inside)) small).map _
  | branch => exact (follows_branch ofStatement).map _
  | declaration =>
      exact (follows_reader Readers.declaration (fun _ followed inside =>
        followed.declaration (Nat.le_of_lt inside)) small).map _
  | conditional =>
      exact (follows_reader Readers.conditional (fun _ followed inside =>
        followed.conditional (Nat.le_of_lt inside)) small).map _
  | function named =>
      exact (follows_reader (Readers.functionDef · named) (fun sound followed inside =>
        followed.functionDef sound (Nat.le_of_lt inside)) small).map _

/-- A reader takes at least one token if what it returns cannot be spelled by none. -/
theorem size_lt_of_reader {part : Grammar → Parser Value} {value : Value}
    {spelling : Value → Spelling} (advances : ∀ value, (spelling value).Advances)
    (spelled : ∀ {below : Grammar}, below.Sound → Reads (part below) before value after →
      spelling value before after)
    (reads : Reads (Grammar.reader part) before value after) : after.size < before.size :=
  (advances value before after (spelled (sound_within _) (reads_reader_iff.mp reads))).2

/-- A branch takes at least one token, as its block or its statement does. -/
theorem size_lt_of_branch {branch : Branch} (reads : Reads Parser.branch before branch after) :
    after.size < before.size := by
  have readsLevel : Reads (Grammar.branch (within (before.size + 2)).statement) before branch
      after := by
    have found := reads_branch_iff.mp reads
    simp only [Parser.statement, reads_reader_iff] at found
    exact reads_branch_iff.mpr found
  exact (Spelling.advances_ofBranch branch _ _ ((sound_within _).branch readsLevel).2.1).2

/-- Every node but a script takes at least one token. -/
theorem size_lt_of_form {form : Node.Form} {node : Node} (notScript : form ≠ .script)
    (reads : Reads form.parser before node after) : after.size < before.size := by
  cases form with
  | script => exact absurd rfl notScript
  | statement =>
      obtain ⟨statement, reads, _⟩ := reads_map_iff.mp reads
      exact size_lt_of_reader Spelling.advances_ofStatement
        (fun sound reads => (sound.anyStatement reads).2.1) reads
  | expression =>
      obtain ⟨expression, reads, _⟩ := reads_map_iff.mp reads
      exact size_lt_of_reader Spelling.advances_ofExpression
        (fun sound reads => (sound.assignment reads).1.spelled) reads
  | block =>
      obtain ⟨block, reads, _⟩ := reads_map_iff.mp reads
      exact size_lt_of_reader Spelling.advances_ofBlock
        (fun sound reads => (sound.block reads).2) reads
  | branch =>
      obtain ⟨branch, reads, _⟩ := reads_map_iff.mp reads
      exact size_lt_of_branch reads
  | declaration =>
      obtain ⟨statement, reads, _⟩ := reads_map_iff.mp reads
      exact size_lt_of_reader Spelling.advances_ofStatement
        (fun sound reads => (sound.declaration reads).2.1) reads
  | conditional =>
      obtain ⟨statement, reads, _⟩ := reads_map_iff.mp reads
      exact size_lt_of_reader Spelling.advances_ofStatement
        (fun sound reads => (sound.conditional reads).2.1) reads
  | function named =>
      obtain ⟨definition, reads, _⟩ := reads_map_iff.mp reads
      exact size_lt_of_reader Spelling.advances_ofFunction
        (fun sound reads => (sound.functionDef reads).2.1) reads

/-- However tightly the operators have to bind, the first operand is read. -/
theorem size_lt_of_expressionAt {minimum : Precedence} {expression : Expression}
    (reads : Reads (Parser.expressionAt minimum) before expression after) :
    after.size < before.size := by
  have readsLevel := reads_reader_iff.mp reads
  have sound := sound_within (before.size + 1)
  rw [Grammar.expressionAt] at readsLevel
  split at readsLevel
  · exact (Spelling.advances_ofExpression _ _ _ (sound.assignment readsLevel).1.spelled).2
  · obtain ⟨left, middle, readsLeft, readsRest⟩ := reads_binaryExpression_iff.mp readsLevel
    have between := (sound.unaryExpression readsLeft).1
    have shorter := (Spelling.advances_ofExpression left _ _ between.spelled).2
    have inside : middle.size < (within (before.size + 1)).levels := by
      rw [levels_within]
      omega
    have rest : Follows _ (Readers.operations _ _ minimum left) middle :=
      (isFollowed_within (Nat.le_refl _)).operations sound inside (Nat.le_refl _)
        (Nat.le_of_lt inside)
    exact Nat.lt_of_le_of_lt (rest.size_le readsRest) shorter

end Reader

/-- A reader of streams tells where the cursor is left. -/
theorem EndsLike.unique {Value : Type} {cursor : Cursor}
    {result : EStateM.Result SyntaxError TokenStream Value} {found found' : Option _}
    (ends : cursor.EndsLike result found) (ends' : cursor.EndsLike result found') :
    found' = found := by
  have sameCursor {first second : Cursor} {rest : TokenStream} (moves : cursor.Moves first)
      (stands : first.StandsAt rest) (moves' : cursor.Moves second)
      (stands' : second.StandsAt rest) : second = first := by
    have atFirst := stands.head_add_size.1
    have atSecond := stands'.head_add_size.1
    rw [moves.firstEnd_eq] at atFirst
    rw [moves'.firstEnd_eq] at atSecond
    exact Cursor.ext (moves'.tokens.trans moves.tokens.symm) (by omega)
  cases ends with
  | ok moves stands =>
      cases ends' with
      | ok moves' stands' => rw [sameCursor moves stands moves' stands']
  | error moves stands =>
      cases ends' with
      | error moves' stands' => rw [sameCursor moves stands moves' stands']

namespace Call
open ScriptStrip.Cursor.Reader

variable {tokens : List Token} {start cursor later : Cursor} {stream before after : TokenStream}
  {levels : Nat}

/-- Each call does by index what it does in front of a stream. -/
theorem follows (call : Call) (small : before.size < levels) :
    Follows call.parser (call.reader levels) before := by
  cases call with
  | peek => exact .peek
  | next => exact .next
  | propertyName => exact .propertyName
  | propertyKey => exact .propertyKey
  | finish => exact .finish
  | accept wanted => exact .accept?
  | expect wanted => exact .expect
  | identifier place => exact .identifier
  | node form => exact follows_form form small
  | expressionAt minimum =>
      exact follows_reader (Readers.expressionAt · minimum) (fun sound followed inside =>
        followed.expressionAt sound (Nat.le_of_lt inside)) small

/-- A part of a script is read from at least one token. -/
theorem advances {call : Call} {value : call.Value} (asks : call.AsksForPart)
    (reads : Reads call.parser before value after) : after.size < before.size := by
  cases call with
  | node form => exact size_lt_of_form asks reads
  | expressionAt minimum => exact size_lt_of_expressionAt reads
  | _ => cases asks

/-- The call comes to its end as soon as there are as many levels as tokens, and it has looked at no
index outside the tokens. -/
structure Ends (call : Call) (cursor : Cursor) (outcome : Except Stop call.Value)
    (later : Cursor) : Prop where
  ran : ∀ levels, cursor.tokens.length ≤ levels →
    (call.reader levels).outcome cursor = some (outcome, later)
  inside : outcome ≠ .error .outside
  tokens : later.tokens = cursor.tokens
  forward : cursor.head ≤ later.head
  notPast : later.head ≤ cursor.firstEnd
  takes : call.AsksForPart → outcome.isOk = true → cursor.head < later.head

/-- A call that ends like the parser moves the cursor forward and not past the end. -/
theorem ends_of_endsLike {call : Call} {outcome : Except Stop call.Value}
    (stands : cursor.StandsAt stream)
    (ran : ∀ levels, cursor.tokens.length ≤ levels →
      (call.reader levels).outcome cursor = some (outcome, later))
    (ends : cursor.EndsLike (call.parser.run stream) (some (outcome, later))) :
    call.Ends cursor outcome later ∧ ∃ rest, later.StandsAt rest := by
  generalize parsed : call.parser.run stream = result at ends
  cases ends with
  | @ok value rest _ moves standsLater =>
      have before := stands.head_add_size.1
      have after := standsLater.head_add_size.1
      rw [moves.firstEnd_eq] at after
      refine ⟨⟨ran, nofun, moves.tokens, moves.forward, by omega, fun asks _ => ?_⟩,
        rest, standsLater⟩
      have fewer := advances asks parsed
      omega
  | @error error rest _ moves standsLater =>
      have after := standsLater.head_add_size.1
      rw [moves.firstEnd_eq] at after
      exact ⟨⟨ran, nofun, moves.tokens, moves.forward, by omega, fun _ => nofun⟩, rest, standsLater⟩

/-- A call leaves the cursor in front of a stream again, whether it fails or not. -/
theorem exists_ends (stands : cursor.StandsAt stream) (call : Call) :
    ∃ outcome later, call.Ends cursor outcome later ∧
      cursor.EndsLike (call.parser.run stream) (some (outcome, later)) ∧
      ∃ rest, later.StandsAt rest := by
  have ends {levels : Nat} (enough : cursor.tokens.length ≤ levels) :
      cursor.EndsLike (call.parser.run stream) ((call.reader levels).outcome cursor) := by
    have atEnd := stands.head_add_size
    exact call.follows (by omega) cursor stands
  have atLength := ends (Nat.le_refl _)
  have ran {levels : Nat} (enough : cursor.tokens.length ≤ levels) :=
    EndsLike.unique atLength (ends enough)
  cases found : (call.reader cursor.tokens.length).outcome cursor with
  | none =>
      rw [found] at atLength
      generalize call.parser.run stream = result at atLength
      cases atLength
  | some pair =>
      obtain ⟨outcome, later⟩ := pair
      rw [found] at atLength
      obtain ⟨endsCall, standsLater⟩ := ends_of_endsLike stands
        (fun levels enough => (ran enough).trans found) atLength
      exact ⟨outcome, later, endsCall, atLength, standsLater⟩

/-- After any calls the cursor stands at a stream, whatever each of them gave. -/
theorem exists_afterAll? (stands : cursor.StandsAt stream) (calls : List Call) :
    ∃ later, (∀ levels, cursor.tokens.length ≤ levels →
        afterAll? levels calls cursor = some later) ∧
      cursor.Moves later ∧ ∃ rest, later.StandsAt rest := by
  induction calls generalizing cursor stream with
  | nil => exact ⟨cursor, fun _ _ => rfl, .refl cursor, stream, stands⟩
  | cons call rest inductionHypothesis =>
      obtain ⟨outcome, later, ends, _, _, standsLater⟩ := exists_ends stands call
      obtain ⟨last, reached, moves, standsLast⟩ := inductionHypothesis standsLater
      refine ⟨last, fun levels enough => ?_, .trans ⟨ends.tokens, ends.forward⟩ moves, standsLast⟩
      rw [afterAll?, ends.ran levels enough]
      exact reached levels (ends.tokens ▸ enough)

/-- Behind any calls on a new cursor, each of which may have failed, a call comes to its end. It
does what the reader of streams does in front of the tokens up to the first end of the source. -/
theorem ends_after (made : ofTokens? tokens = some start) (calls : List Call) (call : Call) :
    ∃ cursor outcome later stream,
      (∀ levels, tokens.length ≤ levels → afterAll? levels calls start = some cursor) ∧
      cursor.tokens = tokens ∧ cursor.firstEnd < tokens.length ∧
      call.Ends cursor outcome later ∧
      TokenStream.upToEnd? (tokens.drop cursor.head) = some stream ∧
      cursor.EndsLike (call.parser.run stream) (some (outcome, later)) := by
  obtain ⟨rfl, stream, stands⟩ := standsAt_of_ofTokens? made
  obtain ⟨cursor, reached, moves, rest, standsCursor⟩ := exists_afterAll? stands calls
  obtain ⟨outcome, later, ends, sameEnd, _⟩ := exists_ends standsCursor call
  have sameTokens : cursor.tokens = tokens := moves.tokens
  refine ⟨cursor, outcome, later, rest, reached, sameTokens, ?_, ends, ?_, sameEnd⟩
  · rw [← sameTokens]
    exact standsCursor.head_add_size.2
  · rw [← sameTokens]
    exact standsCursor.ahead

/-- A statement is read behind a call that fails, up to the first of two ends of the source. -/
theorem ends_after_failure : ∃ cursor outcome later stream,
    (∀ levels, 4 ≤ levels → afterAll? levels [.expect (.punctuator .comma)]
        ⟨[⟨.identifier "a", ⟨0, 1⟩, false⟩, ⟨.identifier "b", ⟨2, 3⟩, true⟩,
          ⟨.endOfSource, ⟨3, 3⟩, false⟩, ⟨.endOfSource, ⟨3, 3⟩, false⟩], 0⟩ = some cursor) ∧
      cursor.tokens = [⟨.identifier "a", ⟨0, 1⟩, false⟩, ⟨.identifier "b", ⟨2, 3⟩, true⟩,
        ⟨.endOfSource, ⟨3, 3⟩, false⟩, ⟨.endOfSource, ⟨3, 3⟩, false⟩] ∧
      cursor.firstEnd < 4 ∧
      (Call.node .statement).Ends cursor outcome later ∧
      TokenStream.upToEnd? (List.drop cursor.head [⟨.identifier "a", ⟨0, 1⟩, false⟩,
        ⟨.identifier "b", ⟨2, 3⟩, true⟩, ⟨.endOfSource, ⟨3, 3⟩, false⟩,
        ⟨.endOfSource, ⟨3, 3⟩, false⟩]) = some stream ∧
      cursor.EndsLike ((Call.node .statement).parser.run stream) (some (outcome, later)) :=
  @ends_after [⟨.identifier "a", ⟨0, 1⟩, false⟩, ⟨.identifier "b", ⟨2, 3⟩, true⟩,
    ⟨.endOfSource, ⟨3, 3⟩, false⟩, ⟨.endOfSource, ⟨3, 3⟩, false⟩] _ rfl _ _

end Call

end ScriptStrip.Cursor
