import ScriptStrip.Proofs.ParserSound
import ScriptStrip.Proofs.Refusing
import ScriptStrip.Proofs.Transplant
/-
This file shows that reading looks no farther than one token ahead. On two streams that start with
the same tokens, a reader does the same until it has gone past them.
-/

namespace ScriptStrip

namespace TokenStream

/-- The stream is what is left of another one. -/
def IsEndOf (rest stream : TokenStream) : Prop :=
  rest.ahead <:+ stream.ahead ∧ rest.last = stream.last

/-- No place of the stream in front of the given one has the same span in front. -/
def Marks (place stream : TokenStream) : Prop :=
  ∀ rest : TokenStream, rest.IsEndOf stream → rest.front.span = place.front.span →
    place.size ≤ rest.size

variable {stop stop' stream stream' rest whole : TokenStream}

/-- A stream is an end of itself. -/
theorem IsEndOf.refl (stream : TokenStream) : stream.IsEndOf stream := ⟨List.suffix_rfl, rfl⟩

/-- An end of an end is an end. -/
theorem IsEndOf.trans (first : rest.IsEndOf stream) (second : stream.IsEndOf whole) :
    rest.IsEndOf whole :=
  ⟨first.1.trans second.1, first.2.trans second.2⟩

/-- An end is not longer than the whole. -/
theorem IsEndOf.size_le (isEnd : rest.IsEndOf stream) : rest.size ≤ stream.size := isEnd.1.length_le

/-- An end that is as long as the whole is the whole. -/
theorem IsEndOf.eq_of_size_le (isEnd : rest.IsEndOf stream) (whole : stream.size ≤ rest.size) :
    rest = stream :=
  eq_of_tokens (isEnd.1.eq_of_length_le whole) isEnd.2

/-- A step leaves an end of the stream. -/
theorem isEndOf_advance (stream : TokenStream) : stream.advance.IsEndOf stream :=
  ⟨List.tail_suffix _, rfl⟩

/-- A place that a stream runs into is one that each of its ends runs into. -/
theorem Marks.of_isEndOf {place : TokenStream} (marks : place.Marks stream)
    (isEnd : rest.IsEndOf stream) : place.Marks rest :=
  fun _ inRest => marks _ (inRest.trans isEnd)

/-- The second stream starts with the tokens of the first one up to the given end and one token
farther. -/
structure Copies (stop stop' stream stream' : TokenStream) : Prop where
  mirrors : Mirrors stop stop' stream stream'
  alikeStop : stop.front.Alike stop'.front
  sameLast : stop.last = stream.last

namespace Copies

/-- Copies have tokens in front that are alike. -/
theorem front_alike (copies : Copies stop stop' stream stream') :
    stream.front.Alike stream'.front := by
  cases copies.mirrors with
  | here atStop =>
      obtain rfl := eq_of_tokens atStop.symm copies.sameLast
      exact copies.alikeStop
  | there _ alike _ => exact alike

/-- A copy is followed further on, up to the same stop. -/
theorem further {after after' : TokenStream} (copies : Copies stop stop' stream stream')
    (mirrors : Mirrors stop stop' after after') (isEnd : after.IsEndOf stream) :
    Copies stop stop' after after' :=
  ⟨mirrors, copies.alikeStop, copies.sameLast.trans isEnd.2.symm⟩

/-- A step in the stream is a step in the copy. -/
theorem advance (copies : Copies stop stop' stream stream')
    (inside : stream.front.lexeme ≠ .endOfSource) (fits : stop.size ≤ stream.advance.size) :
    Mirrors stop stop' stream.advance stream'.advance := by
  have shorter := Spelling.size_advance_lt inside
  exact (copies.mirrors.of_size_lt (by omega)).2

end Copies

end TokenStream

namespace Parser
open TokenStream

/-- What the first reader does in front of the stream, the second one does in front of every copy,
unless the first one looks past the place up to which they are alike. The values that are returned
have the same key. -/
structure Retraces {Value Key : Type} (stop stop' : TokenStream) (key : Value → Key)
    (first second : Parser Value) (before : TokenStream) : Prop where
  isEndOf : ∀ {value after}, Reads first before value after → after.IsEndOf before
  reads : ∀ {value after before'}, Reads first before value after →
    Copies stop stop' before before' → stop.size ≤ after.size →
      ∃ value' after', Reads second before' value' after' ∧ Mirrors stop stop' after after' ∧
        key value' = key value
  /-- A reader that fails at the place fails there in both streams. -/
  place : ∀ {error}, Refuses first before error → stop.Marks before →
    error.span = stop.front.span → stop.size ≤ before.size
  refuses : ∀ {error before'}, Refuses first before error → stop.Marks before →
    error.span = stop.front.span → Copies stop stop' before before' →
      ∀ value' after', ¬ Reads second before' value' after'

namespace Retraces

variable {Value Result Key Other : Type} {stop stop' before : TokenStream}
  {key : Value → Key} {other : Result → Other} {first second : Parser Value}
  {next next' : Value → Parser Result}

/-- A value alone is retraced by a value of the same key. -/
theorem pure {value value' : Value} (sameKey : key value' = key value) :
    Retraces stop stop' key (pure value) (pure value') before := by
  refine ⟨?_, ?_, ?_, ?_⟩
  · rintro _ after reads
    obtain ⟨rfl, rfl⟩ := reads_pure_iff.mp reads
    exact .refl _
  · rintro _ after before' reads copies _
    obtain ⟨rfl, rfl⟩ := reads_pure_iff.mp reads
    exact ⟨value', before', reads_pure_iff.mpr ⟨rfl, rfl⟩, copies.mirrors, sameKey⟩
  · intro error refuses
    exact absurd refuses not_refuses_pure
  · intro error before' refuses
    exact absurd refuses not_refuses_pure

/-- Two parsers in a row are retraced if the second is, behind all that the first can read. -/
theorem bind (retraces : Retraces stop stop' key first second before)
    (following : ∀ {value middle value'}, Reads first before value middle →
      middle.size ≤ before.size → key value' = key value →
        Retraces stop stop' other (next value) (next' value') middle) :
    Retraces stop stop' other (first >>= next) (second >>= next') before := by
  refine ⟨?_, ?_, ?_, ?_⟩
  · intro result after reads
    obtain ⟨value, middle, readsFirst, readsNext⟩ := reads_bind_iff.mp reads
    have isEnd := retraces.isEndOf readsFirst
    exact ((following readsFirst isEnd.size_le rfl).isEndOf readsNext).trans isEnd
  · intro result after before' reads copies far
    obtain ⟨value, middle, readsFirst, readsNext⟩ := reads_bind_iff.mp reads
    have isEnd := retraces.isEndOf readsFirst
    have shorter := ((following readsFirst isEnd.size_le rfl).isEndOf readsNext).size_le
    obtain ⟨value', middle', readsFirst', mirrors, sameKey⟩ :=
      retraces.reads readsFirst copies (far.trans shorter)
    have copiesMiddle := copies.further mirrors isEnd
    obtain ⟨result', after', readsNext', mirrorsAfter, sameOther⟩ :=
      (following readsFirst isEnd.size_le sameKey).reads readsNext copiesMiddle far
    exact ⟨result', after', reads_bind_iff.mpr ⟨value', middle', readsFirst', readsNext'⟩,
      mirrorsAfter, sameOther⟩
  · intro error refuses marks same
    rcases refuses_bind_iff.mp refuses with refusesFirst | ⟨value, middle, readsFirst, refusesNext⟩
    · exact retraces.place refusesFirst marks same
    · have isEnd := retraces.isEndOf readsFirst
      have placed := (following readsFirst isEnd.size_le rfl).place refusesNext
        (marks.of_isEndOf isEnd) same
      exact placed.trans isEnd.size_le
  · intro error before' refuses marks same copies result' after' reads'
    obtain ⟨value', middle', readsFirst', readsNext'⟩ := reads_bind_iff.mp reads'
    rcases refuses_bind_iff.mp refuses with refusesFirst | ⟨value, middle, readsFirst, refusesNext⟩
    · exact retraces.refuses refusesFirst marks same copies value' middle' readsFirst'
    · have isEnd := retraces.isEndOf readsFirst
      have marksMiddle := marks.of_isEndOf isEnd
      have far := (following readsFirst isEnd.size_le rfl).place refusesNext marksMiddle same
      obtain ⟨_, _, readsAgain, mirrors, sameKey⟩ := retraces.reads readsFirst copies far
      obtain ⟨rfl, rfl⟩ := readsFirst'.unique readsAgain
      have copiesMiddle := copies.further mirrors isEnd
      exact (following readsFirst isEnd.size_le sameKey).refuses refusesNext marksMiddle same
        copiesMiddle _ _ readsNext'

/-- A function on the result is retraced if it keeps the key. -/
theorem map {function function' : Value → Result}
    (retraces : Retraces stop stop' key first second before)
    (sameKey : ∀ {value value'}, key value' = key value →
      other (function' value') = other (function value)) :
    Retraces stop stop' other (function <$> first) (function' <$> second) before := by
  rw [map_eq_pure_bind, map_eq_pure_bind]
  exact retraces.bind fun _ _ same => .pure (sameKey same)

/-- A parser that looks first is retraced if it is with a token that is alike. -/
theorem peek_bind {next next' : Token → Parser Value}
    (following : ∀ {token'}, before.front.Alike token' →
      Retraces stop stop' key (next before.front) (next' token') before) :
    Retraces stop stop' key (peek >>= next) (peek >>= next') before := by
  refine ⟨?_, ?_, ?_, ?_⟩
  · intro value after reads
    exact (following (.refl _)).isEndOf (reads_peek_bind_iff.mp reads)
  · intro value after before' reads copies far
    simp only [reads_peek_bind_iff] at reads ⊢
    exact (following copies.front_alike).reads reads copies far
  · intro error refuses
    exact (following (.refl _)).place (refuses_peek_bind_iff.mp refuses)
  · intro error before' refuses marks same copies value' after' reads'
    rw [refuses_peek_bind_iff] at refuses
    rw [reads_peek_bind_iff] at reads'
    exact (following copies.front_alike).refuses refuses marks same copies _ _ reads'

/-- A token is taken from both streams, or it is refused in both. -/
theorem next_bind_or {next next' : Token → Parser Value}
    (following : ∀ {token'}, before.front.Alike token' →
      before.front.lexeme ≠ .endOfSource ∧
          Retraces stop stop' key (next before.front) (next' token') before.advance ∨
        ∃ cause cause', next before.front = refuse before.front cause ∧
          next' token' = refuse token' cause') :
    Retraces stop stop' key (Parser.next >>= next) (Parser.next >>= next') before := by
  have isEnd := isEndOf_advance before
  -- In order: what is read is ahead, a copy is read alike, an error is ahead, a copy with the
  -- error in it is refused.
  refine ⟨?_, ?_, ?_, ?_⟩
  · intro value after reads
    rw [reads_next_bind_iff] at reads
    rcases following (.refl _) with ⟨_, taken⟩ | ⟨_, _, isRefused, _⟩
    · exact (taken.isEndOf reads).trans isEnd
    · rw [isRefused] at reads
      exact absurd reads not_reads_refuse
  · intro value after before' reads copies far
    simp only [reads_next_bind_iff] at reads ⊢
    rcases following copies.front_alike with ⟨inside, taken⟩ | ⟨_, _, isRefused, _⟩
    · have mirrors := copies.advance inside (far.trans (taken.isEndOf reads).size_le)
      exact taken.reads reads (copies.further mirrors isEnd) far
    · rw [isRefused] at reads
      exact absurd reads not_reads_refuse
  · intro error refuses marks same
    rw [refuses_next_bind_iff] at refuses
    rcases following (.refl _) with ⟨_, taken⟩ | ⟨_, _, isRefused, _⟩
    · exact (taken.place refuses (marks.of_isEndOf isEnd) same).trans isEnd.size_le
    · rw [isRefused, refuses_refuse_iff] at refuses
      exact marks before (.refl _) (by rw [← same, refuses])
  · intro error before' refuses marks same copies value' after' reads'
    rw [refuses_next_bind_iff] at refuses
    rw [reads_next_bind_iff] at reads'
    rcases following copies.front_alike with ⟨inside, taken⟩ | ⟨_, _, _, isRefused⟩
    · have marksNext := marks.of_isEndOf isEnd
      have mirrors := copies.advance inside (taken.place refuses marksNext same)
      exact taken.refuses refuses marksNext same (copies.further mirrors isEnd) _ _ reads'
    · rw [isRefused] at reads'
      exact absurd reads' not_reads_refuse

/-- A parser that takes a token first is retraced if what follows is. -/
theorem next_bind {next next' : Token → Parser Value} (inside : before.front.lexeme ≠ .endOfSource)
    (following : ∀ {token'}, before.front.Alike token' →
      Retraces stop stop' key (next before.front) (next' token') before.advance) :
    Retraces stop stop' key (Parser.next >>= next) (Parser.next >>= next') before :=
  next_bind_or fun alike => .inl ⟨inside, following alike⟩

/-- The front token decides whether it is taken, left or refused. -/
theorem of_front
    (reads : ∀ {value after}, Reads first before value after →
      before.front.lexeme ≠ .endOfSource ∧ after = before.advance ∧
          (∀ before', before.front.Alike before'.front →
            ∃ value', Reads second before' value' before'.advance ∧ key value' = key value) ∨
        after = before ∧ ∀ before', before.front.Alike before'.front →
          ∃ value', Reads second before' value' before' ∧ key value' = key value)
    (refuses : ∀ {error}, Refuses first before error → error.span = before.front.span ∧
      ∀ before', before.front.Alike before'.front → ∀ value' after',
        ¬ Reads second before' value' after') :
    Retraces stop stop' key first second before := by
  refine ⟨?_, ?_, ?_, ?_⟩
  · intro value after readsFirst
    rcases reads readsFirst with ⟨_, rfl, _⟩ | ⟨rfl, _⟩
    · exact isEndOf_advance before
    · exact .refl _
  · intro value after before' readsFirst copies far
    rcases reads readsFirst with ⟨inside, rfl, taken⟩ | ⟨rfl, left⟩
    · obtain ⟨value', reads', sameKey⟩ := taken before' copies.front_alike
      exact ⟨value', _, reads', copies.advance inside far, sameKey⟩
    · obtain ⟨value', reads', sameKey⟩ := left before' copies.front_alike
      exact ⟨value', before', reads', copies.mirrors, sameKey⟩
  · intro error refusesFirst marks same
    exact marks before (.refl _) ((refuses refusesFirst).1.symm.trans same)
  · intro error before' refusesFirst _ _ copies
    exact (refuses refusesFirst).2 before' copies.front_alike

/-- An expected token is retraced. -/
theorem expect {wanted : Lexeme} (inside : wanted ≠ .endOfSource) :
    Retraces stop stop' (fun _ => ()) (Parser.expect wanted)
      (Parser.expect wanted) before := by
  refine of_front ?_ ?_
  · intro span after reads
    obtain ⟨isWanted, rfl, rfl⟩ := reads_expect_iff.mp reads
    refine .inl ⟨isWanted ▸ inside, rfl, fun before' alike => ⟨before'.front.span, ?_, rfl⟩⟩
    exact reads_expect_iff.mpr ⟨alike.1 ▸ isWanted, rfl, rfl⟩
  · intro error refuses
    obtain ⟨other, rfl⟩ := refuses_expect_iff.mp refuses
    refine ⟨rfl, fun before' alike value' after' reads' => other ?_⟩
    rw [alike.1]
    exact (reads_expect_iff.mp reads').1

/-- Behind the wanted token there is one token less. -/
theorem expect_bind {wanted : Lexeme} {next next' : Span → Parser Value}
    (inside : wanted ≠ .endOfSource)
    (following : before.front.lexeme = wanted → before.advance.size < before.size →
      ∀ {span span'}, Retraces stop stop' key (next span) (next' span') before.advance) :
    Retraces stop stop' key (Parser.expect wanted >>= next) (Parser.expect wanted >>= next')
      before := by
  refine (expect inside).bind fun readsMark _ _ => ?_
  obtain ⟨isWanted, rfl, rfl⟩ := reads_expect_iff.mp readsMark
  exact following isWanted (Spelling.size_advance_lt (isWanted ▸ inside))

/-- A name is retraced. -/
theorem identifier {place : String} : Retraces stop stop' (fun _ => ())
    (Parser.identifier place) (Parser.identifier place) before := by
  refine of_front ?_ ?_
  · intro name after reads
    obtain ⟨isName, _, rfl⟩ := reads_identifier_iff.mp reads
    refine .inl ⟨by simp [isName], rfl, fun before' alike => ⟨(name.1, before'.front.span), ?_, rfl⟩⟩
    exact reads_identifier_iff.mpr ⟨alike.1 ▸ isName, rfl, rfl⟩
  · intro error refuses
    obtain ⟨other, rfl⟩ := refuses_identifier_iff.mp refuses
    refine ⟨rfl, fun before' alike value' after' reads' => other value'.1 ?_⟩
    rw [alike.1]
    exact (reads_identifier_iff.mp reads').1

/-- The name of a property is retraced. -/
theorem propertyName : Retraces stop stop' (fun _ => ()) Parser.propertyName
    Parser.propertyName before := by
  refine of_front ?_ ?_
  · intro name after reads
    obtain ⟨isName, _, rfl⟩ := reads_propertyName_iff.mp reads
    have inside : before.front.lexeme ≠ .endOfSource := by
      intro atEnd
      simp [atEnd, Lexeme.IsWord] at isName
    refine .inl ⟨inside, rfl, fun before' alike => ⟨(name.1, before'.front.span), ?_, rfl⟩⟩
    exact reads_propertyName_iff.mpr ⟨alike.1 ▸ isName, rfl, rfl⟩
  · intro error refuses
    obtain ⟨other, rfl⟩ := refuses_propertyName_iff.mp refuses
    refine ⟨rfl, fun before' alike value' after' reads' => other value'.1 ?_⟩
    rw [alike.1]
    exact (reads_propertyName_iff.mp reads').1

/-- A key is retraced. -/
theorem propertyKey : Retraces stop stop' (fun _ => ()) Parser.propertyKey
    Parser.propertyKey before := by
  refine of_front ?_ ?_
  · intro key after reads
    obtain ⟨isKey, _, rfl⟩ := reads_propertyKey_iff.mp reads
    have inside : before.front.lexeme ≠ .endOfSource := by
      intro atEnd
      cases key <;> simp [atEnd, PropertyKey.IsWrittenAs, Lexeme.IsWord] at isKey
    refine .inl ⟨inside, rfl, fun before' alike => ?_⟩
    rw [alike.1] at isKey
    cases key with
    | identifier name span =>
        exact ⟨.identifier name before'.front.span, reads_propertyKey_iff.mpr ⟨isKey, rfl, rfl⟩, rfl⟩
    | string content quote span =>
        exact ⟨.string content quote before'.front.span,
          reads_propertyKey_iff.mpr ⟨isKey, rfl, rfl⟩, rfl⟩
    | number digits span =>
        exact ⟨.number digits before'.front.span, reads_propertyKey_iff.mpr ⟨isKey, rfl, rfl⟩, rfl⟩
  · intro error refuses
    obtain ⟨other, rfl⟩ := refuses_propertyKey_iff.mp refuses
    refine ⟨rfl, fun before' alike value' after' reads' => other value' ?_⟩
    rw [alike.1]
    exact (reads_propertyKey_iff.mp reads').1

/-- A token that may be there or not is there in both streams or in none. -/
theorem accept?_bind {wanted : Lexeme} {next next' : Option Span → Parser Value}
    (inside : wanted ≠ .endOfSource)
    (taken : before.front.lexeme = wanted → ∀ span, Retraces stop stop' key
      (next (some before.front.span)) (next' (some span)) before.advance)
    (left : before.front.lexeme ≠ wanted →
      Retraces stop stop' key (next none) (next' none) before) :
    Retraces stop stop' key (accept? wanted >>= next) (accept? wanted >>= next')
      before := by
  rw [accept?, bind_assoc, bind_assoc]
  refine peek_bind fun {token'} alike => ?_
  rw [← alike.1]
  by_cases isWanted : before.front.lexeme = wanted
  · rw [if_pos isWanted, if_pos isWanted, bind_assoc, bind_assoc]
    refine next_bind (isWanted ▸ inside) fun _ => ?_
    rw [pure_bind, pure_bind]
    exact taken isWanted token'.span
  · rw [if_neg isWanted, if_neg isWanted, pure_bind, pure_bind]
    exact left isWanted

/-- The end of the source is retraced. -/
theorem finish : Retraces stop stop' id Parser.finish Parser.finish before := by
  refine of_front ?_ ?_
  · intro _ after reads
    obtain ⟨atEnd, rfl⟩ := reads_finish_iff.mp reads
    exact .inr ⟨rfl, fun before' alike => ⟨(), reads_finish_iff.mpr ⟨alike.1 ▸ atEnd, rfl⟩, rfl⟩⟩
  · intro error refuses
    obtain ⟨inside, rfl⟩ := refuses_finish_iff.mp refuses
    refine ⟨rfl, fun before' alike _ after' reads' => inside ?_⟩
    rw [alike.1]
    exact (reads_finish_iff.mp reads').1

/-- A semicolon is retraced, which looks at the line of the next token. -/
theorem semicolon : Retraces stop stop' id Parser.semicolon Parser.semicolon before := by
  refine of_front ?_ ?_
  · intro _ after reads
    rcases reads_semicolon_iff.mp reads with ⟨isMark, rfl⟩ | ⟨other, rfl, free⟩
    · refine .inl ⟨by simp [isMark], rfl, fun before' alike => ⟨(), ?_, rfl⟩⟩
      exact reads_semicolon_iff.mpr (.inl ⟨alike.1 ▸ isMark, rfl⟩)
    · refine .inr ⟨rfl, fun before' alike => ⟨(), ?_, rfl⟩⟩
      rw [alike.1, alike.2] at free
      exact reads_semicolon_iff.mpr (.inr ⟨alike.1 ▸ other, rfl, free⟩)
  · intro error refuses
    obtain ⟨other, bound, rfl⟩ := refuses_semicolon_iff.mp refuses
    refine ⟨rfl, fun before' alike _ after' reads' => ?_⟩
    rcases reads_semicolon_iff.mp reads' with ⟨isMark, _⟩ | ⟨_, _, free⟩
    · exact other (alike.1.trans isMark)
    · rw [← alike.1, ← alike.2] at free
      exact bound free

end Retraces

end Parser

end ScriptStrip
