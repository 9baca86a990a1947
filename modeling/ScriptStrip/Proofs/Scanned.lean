import ScriptStrip.Proofs.Lookahead
/-
This file describes a run of the scanner by the places it stands at. A run can be split between
two of its tokens, moved to a text that goes on differently, and moved to other offsets.
-/

namespace ScriptStrip

/-- The tokens say the same with the same line breaks in front of them, at any places. -/
def Token.Alike (first second : Token) : Prop :=
  first.lexeme = second.lexeme ∧ first.afterLineBreak = second.afterLineBreak

/-- A token is like itself. -/
theorem Token.Alike.refl (token : Token) : token.Alike token := ⟨rfl, rfl⟩

/-- Alike tokens end the source alike. -/
theorem Token.inside_of_alike {tokens tokens' : List Token}
    (alike : List.Forall₂ Token.Alike tokens tokens')
    (inside : ∀ token ∈ tokens, token.lexeme ≠ .endOfSource) :
    ∀ token ∈ tokens', token.lexeme ≠ .endOfSource := by
  induction alike with
  | nil => exact inside
  | cons same _ step =>
      rw [List.forall_mem_cons] at inside ⊢
      exact ⟨same.1 ▸ inside.1, step inside.2⟩

/-- A stream is known by its tokens. -/
theorem TokenStream.eq_of_tokens {first second : TokenStream} (sameAhead : first.ahead = second.ahead)
    (sameLast : first.last = second.last) : first = second := by
  obtain ⟨ahead, last, _, _⟩ := first
  subst sameAhead sameLast
  rfl

namespace Scan

/-- Where a scanner stands in a text. -/
structure Position where
  /-- The text that has not been read. -/
  rest : List Char
  /-- The bytes of the text that has been read. -/
  offset : Nat
  /-- A line break has been read since the last token. -/
  afterLineBreak : Bool

/-- The scanner reads the tokens on its way from the first position to the second. A span is made
of the offsets in the given way: a scanner keeps 32 bits of them, where `Span.mk` keeps all. -/
inductive Passes (place : Nat → Nat → Span) : Position → List Token → Position → Prop
  | done {position : Position} : Passes place position [] position
  | gap {position last : Position} {read behind : List Char} {breaksLine : Bool}
      {tokens : List Token} (found : front position.rest = .gap read breaksLine behind)
      (following : Passes place ⟨behind, position.offset + Text.byteCount read,
        position.afterLineBreak || breaksLine⟩ tokens last) :
      Passes place position tokens last
  | token {position last : Position} {lexeme : Lexeme} {read behind : List Char}
      {tokens : List Token} (found : front position.rest = .token lexeme read behind)
      (following : Passes place ⟨behind, position.offset + Text.byteCount read, false⟩ tokens
        last) :
      Passes place position (⟨lexeme, place position.offset
        (position.offset + Text.byteCount read), position.afterLineBreak⟩ :: tokens) last

variable {place : Nat → Nat → Span}
variable {position middle last : Position} {token : Token} {tokens : List Token}

/-- What is passed in two stages is passed in one. -/
theorem Passes.trans {following : List Token} (first : Passes place position tokens middle)
    (second : Passes place middle following last) :
    Passes place position (tokens ++ following) last := by
  induction first with
  | done => exact second
  | gap found _ step => exact .gap found (step second)
  | token found _ step => exact .token found (step second)

/-- What lies between two positions is the text that is read on the way. -/
theorem Passes.text (passes : Passes place position tokens last) :
    ∃ read, position.rest = read ++ last.rest ∧
      last.offset = position.offset + Text.byteCount read := by
  induction passes with
  | done => exact ⟨[], rfl, rfl⟩
  | gap found _ step =>
      obtain ⟨later, isRest, isOffset⟩ := step
      have whole := (front_gap_append found).1
      dsimp only at isRest isOffset
      refine ⟨_ ++ later, by rw [← whole, isRest, List.append_assoc], ?_⟩
      rw [isOffset, Text.byteCount_append, Nat.add_assoc]
  | token found _ step =>
      obtain ⟨later, isRest, isOffset⟩ := step
      have whole := (front_token_append found).1
      dsimp only at isRest isOffset
      refine ⟨_ ++ later, by rw [← whole, isRest, List.append_assoc], ?_⟩
      rw [isOffset, Text.byteCount_append, Nat.add_assoc]

/-- Every token that is passed is read back from its own text. -/
theorem Passes.isLegible (passes : Passes place position tokens last) :
    ∀ token ∈ tokens, token.lexeme.IsLegible := by
  induction passes with
  | done => simp
  | gap _ _ step => exact step
  | token found _ step => exact List.forall_mem_cons.mpr ⟨isLegible_of_front found, step⟩

/-- A passage can be cut between any two tokens. -/
theorem Passes.split {first second : List Token}
    (passes : Passes place position (first ++ second) last) :
    ∃ middle, Passes place position first middle ∧ Passes place middle second last := by
  generalize whole : first ++ second = tokens at passes
  induction passes generalizing first with
  | done =>
      obtain ⟨rfl, rfl⟩ := List.append_eq_nil_iff.mp whole
      exact ⟨_, .done, .done⟩
  | gap found _ step =>
      obtain ⟨middle, before, after⟩ := step whole
      exact ⟨middle, .gap found before, after⟩
  | token found following step =>
      cases first with
      | nil =>
          obtain rfl := whole
          exact ⟨_, .done, .token found following⟩
      | cons head first =>
          obtain ⟨rfl, isRest⟩ := List.cons.inj whole
          obtain ⟨middle, before, after⟩ := step isRest
          exact ⟨middle, .token found before, after⟩

/-- The scanner passes a gap to the next token. -/
theorem Passes.uncons (passes : Passes place position (token :: tokens) last) :
    ∃ start behind, Passes place position [] start ∧
      front start.rest = .token token.lexeme token.lexeme.text.toList behind ∧
      token = ⟨token.lexeme,
        place start.offset (start.offset + Text.byteCount token.lexeme.text.toList),
        start.afterLineBreak⟩ ∧
      Passes place ⟨behind, start.offset + Text.byteCount token.lexeme.text.toList, false⟩ tokens
        last := by
  generalize whole : token :: tokens = passed at passes
  induction passes with
  | done => cases whole
  | gap found _ step =>
      obtain ⟨start, behind, gap, rest⟩ := step whole
      exact ⟨start, behind, .gap found gap, rest⟩
  | @token position _ lexeme read behind _ found following _ =>
      obtain ⟨rfl, rfl⟩ := List.cons.inj whole
      obtain rfl := read_eq_text found
      exact ⟨position, behind, .done, found, rfl, following⟩

/-- What the scanner reads does not depend on what stands behind it, but for one character. -/
theorem Passes.moved {read behind' : List Char} (passes : Passes place position tokens last)
    (isRest : position.rest = read ++ last.rest) (same : ShowsNoMore behind' last.rest) :
    Passes place ⟨read ++ behind', position.offset, position.afterLineBreak⟩ tokens
      ⟨behind', last.offset, last.afterLineBreak⟩ := by
  induction passes generalizing read with
  | done =>
      obtain rfl : read = [] := List.append_left_eq_self.mp isRest.symm
      exact .done
  | gap found following step =>
      obtain ⟨later, isBehind, _⟩ := following.text
      have whole := (front_gap_append found).1
      dsimp only at isBehind
      rw [isRest, isBehind, ← List.append_assoc, List.append_cancel_right_eq] at whole
      subst whole
      rw [isRest, isBehind, List.append_assoc] at found
      rw [List.append_assoc]
      exact .gap (front_gap_moved found (same.prepend later)) (step isBehind same)
  | token found following step =>
      obtain ⟨later, isBehind, _⟩ := following.text
      have whole := (front_token_append found).1
      dsimp only at isBehind
      rw [isRest, isBehind, ← List.append_assoc, List.append_cancel_right_eq] at whole
      subst whole
      rw [isRest, isBehind, List.append_assoc] at found
      rw [List.append_assoc]
      exact .token (front_token_moved found (same.prepend later)) (step isBehind same)

/-- At another offset the scanner reads the same tokens at other places, however spans are made. -/
theorem Passes.shifted (passes : Passes place position tokens last)
    (place' : Nat → Nat → Span) (offset : Nat) :
    ∃ tokens' offset', Passes place' ⟨position.rest, offset, position.afterLineBreak⟩ tokens'
      ⟨last.rest, offset', last.afterLineBreak⟩ ∧ List.Forall₂ Token.Alike tokens tokens' := by
  induction passes generalizing offset with
  | done => exact ⟨[], offset, .done, .nil⟩
  | gap found _ step =>
      obtain ⟨tokens', offset', following, alike⟩ := step _
      exact ⟨tokens', offset', .gap found following, alike⟩
  | token found _ step =>
      obtain ⟨tokens', offset', following, alike⟩ := step _
      exact ⟨_, offset', .token found following, .cons ⟨rfl, rfl⟩ alike⟩

/-- The way in which spans are made makes no difference to what is read. -/
theorem Passes.placed (passes : Passes place position tokens last) (place' : Nat → Nat → Span) :
    ∃ tokens', Passes place' position tokens' last ∧ List.Forall₂ Token.Alike tokens tokens' := by
  obtain ⟨tokens', offset', placed, alike⟩ := passes.shifted place' position.offset
  have sameOffset : offset' = last.offset := by
    obtain ⟨read, isRest, isOffset⟩ := passes.text
    obtain ⟨read', isRest', isOffset'⟩ := placed.text
    obtain rfl : read' = read := List.append_cancel_right (isRest'.symm.trans isRest)
    exact isOffset'.trans isOffset.symm
  subst sameOffset
  exact ⟨tokens', placed, alike⟩

section Stream

variable {source read behind : List Char} {offset : Nat} {afterLineBreak : Bool}

/-- The scanner is done exactly at the end of the text. -/
theorem front_eq_finish_iff : front source = .finish ↔ source = [] := by
  constructor
  · intro found
    unfold front at found
    split at found
    · rfl
    · cases found
    · split at found <;> cases found
    · split at found
      · cases found
      · unfold frontToken frontString at found
        repeat' split at found
        all_goals cases found
  · rintro rfl
    rfl

/-- A failure at the front is the error of the whole. -/
theorem stream_of_failure {cause : SyntaxError.Cause} (found : front source = .failure cause read) :
    Scan.stream source offset afterLineBreak =
      .error ⟨cause, .ofOffsets offset (offset + Text.byteCount read)⟩ := by
  rw [Scan.stream]
  split
  · simp_all
  · simp_all
  · simp_all
  · rename_i found'
    rw [found] at found'
    cases found'
    rfl

/-- An error behind a token is the error of the whole. -/
theorem stream_of_token_error {lexeme : Lexeme} {error : SyntaxError}
    (found : front source = .token lexeme read behind)
    (scanned : Scan.stream behind (offset + Text.byteCount read) false = .error error) :
    Scan.stream source offset afterLineBreak = .error error := by
  rw [Scan.stream]
  split
  · simp_all
  · simp_all
  · rename_i found'
    have same := found.symm.trans found'
    injection same with sameLexeme sameRead sameRest
    subst sameLexeme sameRead sameRest
    dsimp only
    rw [scanned]
  · simp_all

/-- A text that is scanned and starts with a token is scanned behind the token as well. -/
theorem exists_push_of_stream {lexeme : Lexeme} {stream : TokenStream}
    (found : front source = .token lexeme read behind)
    (scanned : Scan.stream source offset afterLineBreak = .ok stream) :
    ∃ following, ∃ inside : lexeme ≠ .endOfSource,
      Scan.stream behind (offset + Text.byteCount read) false = .ok following ∧
        stream = following.push
          ⟨lexeme, .ofOffsets offset (offset + Text.byteCount read), afterLineBreak⟩ inside := by
  cases shape : Scan.stream behind (offset + Text.byteCount read) false with
  | error error =>
      rw [stream_of_token_error found shape] at scanned
      cases scanned
  | ok following =>
      rw [stream_of_token found shape] at scanned
      cases scanned
      exact ⟨following, front_token_lexeme found, rfl, rfl⟩

/-- The scanner passes all of a text, or it passes what stands before a mistake. -/
theorem stream_cases (source : List Char) (offset : Nat) (afterLineBreak : Bool) :
    ∃ tokens last, Passes .ofOffsets ⟨source, offset, afterLineBreak⟩ tokens last ∧
      ((∃ stream, Scan.stream source offset afterLineBreak = .ok stream ∧ stream.ahead = tokens ∧
          last.rest = [] ∧ stream.last =
            ⟨.endOfSource, .ofOffsets last.offset last.offset, last.afterLineBreak⟩) ∨
        ∃ cause read, front last.rest = .failure cause read ∧
          Scan.stream source offset afterLineBreak =
            .error ⟨cause, .ofOffsets last.offset (last.offset + Text.byteCount read)⟩) := by
  induction source, offset, afterLineBreak using Scan.stream.induct with
  | case1 source offset afterLineBreak atEnd =>
      obtain rfl := front_eq_finish_iff.mp atEnd
      exact ⟨[], _, .done, .inl ⟨_, stream_nil, rfl, rfl, rfl⟩⟩
  | case2 source offset afterLineBreak read breaksLine rest found step =>
      obtain ⟨tokens, last, passes, ends⟩ := step
      refine ⟨tokens, last, .gap found passes, ?_⟩
      rw [stream_of_gap found]
      exact ends
  | case3 source offset afterLineBreak lexeme read rest found stop following scanned step =>
      obtain ⟨tokens, last, passes, ends⟩ := step
      refine ⟨_, last, .token found passes, ?_⟩
      rcases ends with ⟨stream, scanned, rfl, atEnd, isLast⟩ | ⟨cause, mistake, _, refused⟩
      · exact .inl ⟨_, stream_of_token found scanned, rfl, atEnd, isLast⟩
      · rw [scanned] at refused
        cases refused
  | case4 source offset afterLineBreak lexeme read rest found stop error refused step =>
      obtain ⟨tokens, last, passes, ends⟩ := step
      refine ⟨_, last, .token found passes, ?_⟩
      rcases ends with ⟨stream, scanned, _⟩ | ⟨cause, mistake, fails, refused⟩
      · rw [refused] at scanned
        cases scanned
      · exact .inr ⟨cause, mistake, fails, stream_of_token_error found refused⟩
  | case5 source offset afterLineBreak cause read found =>
      exact ⟨[], _, .done, .inr ⟨cause, read, found, stream_of_failure found⟩⟩

/-- A text is scanned if the scanner can pass all of it. -/
theorem Passes.stream (passes : Passes .ofOffsets position tokens last) (atEnd : last.rest = []) :
    ∃ stream, Scan.stream position.rest position.offset position.afterLineBreak = .ok stream ∧
      stream.ahead = tokens ∧ stream.last =
        ⟨.endOfSource, .ofOffsets last.offset last.offset, last.afterLineBreak⟩ := by
  induction passes with
  | done =>
      rw [atEnd]
      exact ⟨_, stream_nil, rfl, rfl⟩
  | gap found _ step =>
      obtain ⟨stream, scanned, isAhead, isLast⟩ := step atEnd
      exact ⟨stream, (stream_of_gap found).trans scanned, isAhead, isLast⟩
  | token found _ step =>
      obtain ⟨stream, scanned, rfl, isLast⟩ := step atEnd
      exact ⟨_, stream_of_token found scanned, rfl, isLast⟩

/-- A text that is scanned is passed over, token by token, to its end. -/
theorem passes_of_stream {stream : TokenStream}
    (scanned : Scan.stream source offset afterLineBreak = .ok stream) :
    ∃ last, Passes .ofOffsets ⟨source, offset, afterLineBreak⟩ stream.ahead last ∧ last.rest = [] ∧
      stream.last = ⟨.endOfSource, .ofOffsets last.offset last.offset, last.afterLineBreak⟩ := by
  obtain ⟨tokens, last, passes, ends⟩ := stream_cases source offset afterLineBreak
  rw [scanned] at ends
  rcases ends with ⟨_, ⟨⟩, rfl, atEnd, isLast⟩ | ⟨_, _, _, ⟨⟩⟩
  exact ⟨last, passes, atEnd, isLast⟩

/-- A text that is refused is passed over up to the failure. -/
theorem passes_of_stream_error {error : SyntaxError}
    (refused : Scan.stream source offset afterLineBreak = .error error) :
    ∃ tokens last cause read, Passes .ofOffsets ⟨source, offset, afterLineBreak⟩ tokens last ∧
      front last.rest = .failure cause read ∧
      error = ⟨cause, .ofOffsets last.offset (last.offset + Text.byteCount read)⟩ := by
  obtain ⟨tokens, last, passes, ends⟩ := stream_cases source offset afterLineBreak
  rw [refused] at ends
  rcases ends with ⟨_, ⟨⟩, _⟩ | ⟨cause, read, fails, same⟩
  exact ⟨tokens, last, cause, read, passes, fails, Except.error.inj same⟩

end Stream

end Scan

end ScriptStrip
