import ScriptStrip.Proofs.Scanned
import ScriptStrip.Text.Slice
/-
This file ties the tokens of a text to their places in it. The text is made of the tokens and of
gaps between them, so scanning loses nothing.
-/

namespace ScriptStrip

/-- The text separates tokens: it is made of blanks and complete comments. A comment that is
closed by the end of its line can also stand at the end of the source. -/
inductive IsGap (atEnd : Bool) : List Char → Prop
  | nothing : IsGap atEnd []
  | blank {character : Char} {rest : List Char} (isBlank : Text.isBlank character = true)
      (following : IsGap atEnd rest) : IsGap atEnd (character :: rest)
  | lineComment {comment rest : List Char} (onLine : '\n' ∉ comment)
      (ends : rest.head? = some '\n' ∨ rest = [] ∧ atEnd = true) (following : IsGap atEnd rest) :
      IsGap atEnd ('/' :: '/' :: (comment ++ rest))
  | blockComment {comment rest : List Char} (noEnd : ¬ ['*', '/'] <:+: comment)
      (following : IsGap atEnd rest) :
      IsGap atEnd ('/' :: '*' :: (comment ++ '*' :: '/' :: rest))

/-- From the offset on, the source is made of gaps and the tokens, each of which stands where its
span says. The last token marks the end. -/
inductive LaidOut (source : String) : Nat → List Token → Prop
  | finish {offset : Nat} {gap : String} {afterLineBreak : Bool}
      (between : Text.slice? source ⟨offset, Text.byteCount source.toList⟩ = some gap)
      (isGap : IsGap true gap.toList) :
      LaidOut source offset [⟨.endOfSource,
        ⟨Text.byteCount source.toList, Text.byteCount source.toList⟩, afterLineBreak⟩]
  | token {offset : Nat} {gap : String} {token : Token} {tokens : List Token}
      (between : Text.slice? source ⟨offset, token.span.start⟩ = some gap)
      (isGap : IsGap false gap.toList)
      (nonempty : token.span.start < token.span.stop)
      (text : Text.slice? source token.span = some token.lexeme.text)
      (following : LaidOut source token.span.stop tokens) :
      LaidOut source offset (token :: tokens)

/-- The first token starts and ends before the second one starts. -/
def Token.Precedes (first second : Token) : Prop :=
  first.span.start < second.span.start ∧ first.span.stop ≤ second.span.start

/-- Nothing of the source is lost in its tokens. -/
structure TokenStream.Covers (source : String) (stream : TokenStream) : Prop where
  laidOut : LaidOut source 0 stream.toList
  ordered : stream.toList.Pairwise Token.Precedes
  /-- The texts of the tokens say the same without what stood between them. -/
  rescanned : ∃ again,
    TokenStream.ofSource (" ".intercalate (stream.ahead.map fun token => token.lexeme.text)) =
      .ok again ∧
    again.ahead.map Token.lexeme = stream.ahead.map Token.lexeme

/-- The error marks a part of the source, and what stands before the mark can be scanned. -/
structure SyntaxError.MarksIn (source : String) (error : SyntaxError) : Prop where
  marks : ∃ text, Text.slice? source error.span = some text ∧ text ≠ ""
  before : ∃ text stream, Text.slice? source ⟨0, error.span.start⟩ = some text ∧
    TokenStream.ofSource text = .ok stream

namespace Text

/-- A slice does not stop in front of its start. -/
theorem start_le_stop_of_slice? {source text : String} {span : Span}
    (found : slice? source span = some text) : span.start ≤ span.stop := by
  obtain ⟨before, after, _, isStart, isStop⟩ := slice?_eq_some_iff.mp found
  omega

/-- Each character has at least one byte. -/
theorem byteCount_pos {characters : List Char} (nonempty : characters ≠ []) :
    0 < byteCount characters := by
  obtain ⟨first, rest, rfl⟩ := List.exists_cons_of_ne_nil nonempty
  have positive := first.utf8Size_pos
  rw [byteCount_cons]
  omega

end Text

/-- No token starts in front of the offset. -/
theorem LaidOut.start_le {source : String} {offset : Nat} {tokens : List Token}
    (laidOut : LaidOut source offset tokens) :
    ∀ token ∈ tokens, offset ≤ token.span.start := by
  induction laidOut with
  | finish between _ =>
      have inOrder := Text.start_le_stop_of_slice? between
      simpa using inOrder
  | token between _ nonempty _ _ step =>
      have inOrder := Text.start_le_stop_of_slice? between
      dsimp only at inOrder
      rw [List.forall_mem_cons]
      refine ⟨inOrder, fun later inside => ?_⟩
      have fits := step later inside
      omega

/-- The tokens of a layout stand in order. -/
theorem LaidOut.ordered {source : String} {offset : Nat} {tokens : List Token}
    (laidOut : LaidOut source offset tokens) : tokens.Pairwise Token.Precedes := by
  induction laidOut with
  | finish => exact List.pairwise_singleton _ _
  | token _ _ nonempty _ following step =>
      refine List.Pairwise.cons (fun later inside => ?_) step
      have fits := following.start_le later inside
      exact ⟨by omega, fits⟩

/-- Every token but the end has at least one byte. -/
theorem LaidOut.nonempty {source : String} {offset : Nat} {tokens : List Token}
    (laidOut : LaidOut source offset tokens) : ∀ token ∈ tokens, token.lexeme ≠ .endOfSource →
      token.span.start < token.span.stop := by
  induction laidOut with
  | finish => simp
  | token _ _ nonempty _ _ step => exact List.forall_mem_cons.mpr ⟨fun _ => nonempty, step⟩

namespace Scan

variable {place : Nat → Nat → Span} {position last : Position} {tokens : List Token}

/-- What a failure has read is a non-empty front of the source. -/
theorem front_failure_append {source read : List Char} {cause : SyntaxError.Cause}
    (found : front source = .failure cause read) :
    ∃ behind, source = read ++ behind ∧ read ≠ [] := by
  have ofString {quote : Quote} {inside : List Char}
      (found : frontString quote inside = .failure cause read) :
      ∃ behind, quote.mark :: inside = read ++ behind ∧ read ≠ [] := by
    have whole := splitString_append quote.mark inside
    unfold frontString at found
    split at found
    · rename_i content split
      cases found
      rw [split] at whole
      exact ⟨[], by simpa using whole.symm, by simp⟩
    · rename_i content mark rest split
      split at found
      · cases found
      · cases found
        rw [split] at whole
        exact ⟨mark :: rest, by rw [← whole]; rfl, by simp⟩
  unfold front at found
  split at found
  · cases found
  · cases found
  · split at found
    · cases found
    · cases found
      exact ⟨[], by simp⟩
  · rename_i first rest _ _
    split at found
    · cases found
    · unfold frontToken at found
      split at found
      · rename_i isQuote
        obtain rfl := beq_iff_eq.mp isQuote
        exact ofString found
      split at found
      · rename_i isQuote
        obtain rfl := beq_iff_eq.mp isQuote
        exact ofString found
      split at found
      · cases found
      split at found
      · cases found
      split at found
      · cases found
      · cases found
        exact ⟨rest, rfl, by simp⟩

/-- What the scanner passes up to a token or to the end is a gap. -/
theorem Passes.isGap (passes : Passes place position [] last)
    (stops : ∀ read breaksLine behind, front last.rest ≠ .gap read breaksLine behind) :
    ∃ gap, position.rest = gap ++ last.rest ∧
      last.offset = position.offset + Text.byteCount gap ∧ IsGap last.rest.isEmpty gap := by
  generalize none : ([] : List Token) = tokens at passes
  induction passes with
  | done => exact ⟨[], rfl, rfl, .nothing⟩
  | token => cases none
  | @gap position last read behind breaksLine _ found following step =>
      obtain ⟨gap, isBehind, isOffset, isGap⟩ := step stops none
      have whole := (front_gap_append found).1
      dsimp only at isBehind isOffset
      subst isBehind
      refine ⟨read ++ gap, by rw [← whole, List.append_assoc], ?_, ?_⟩
      · rw [isOffset, Text.byteCount_append, Nat.add_assoc]
      · rcases front_gap_cases found with ⟨blank, isBlank, rfl, _⟩ | ⟨comment, rfl, _, _, split⟩ |
          ⟨comment, rfl, _, _, closed⟩
        · exact .blank isBlank isGap
        · refine .lineComment ?_ ?_ isGap
          · intro inside
            simpa using all_of_splitWhile split _ inside
          · have ends := stops_of_splitWhile split
            cases gap with
            | cons next gap =>
                left
                simpa using ends next rfl
            | nil =>
                -- The comment ends with the text, since a line feed behind it would be passed as
                -- well.
                right
                refine ⟨rfl, ?_⟩
                cases atEnd : last.rest with
                | nil => rfl
                | cons next rest =>
                    rw [List.nil_append, atEnd] at ends
                    obtain rfl : next = '\n' := by simpa using ends next rfl
                    rw [atEnd] at stops
                    exact absurd (front_of_isBlank (by decide)) (stops _ _ _)
        · obtain ⟨content, rfl, _, noEnd⟩ := splitComment?_eq_some_iff.mp closed
          have isComment := IsGap.blockComment noEnd isGap
          simpa using isComment

/-- The position is one of a scanner that reads the source. -/
def Position.In (source : String) (position : Position) : Prop :=
  ∃ before, source.toList = before ++ position.rest ∧ position.offset = Text.byteCount before

variable {source : String}

/-- The start of a source lies in it. -/
theorem Position.in_start : Position.In source ⟨source.toList, 0, false⟩ := ⟨[], rfl, rfl⟩

/-- What has been read can be stepped over. -/
theorem Position.In.behind {read behind : List Char} (afterLineBreak : Bool)
    (inside : position.In source) (isRest : position.rest = read ++ behind) :
    Position.In source ⟨behind, position.offset + Text.byteCount read, afterLineBreak⟩ := by
  obtain ⟨before, whole, isOffset⟩ := inside
  refine ⟨before ++ read, by rw [whole, isRest, List.append_assoc], ?_⟩
  rw [isOffset, Text.byteCount_append]

/-- No position lies behind the end of the source. -/
theorem Position.In.offset_le (inside : position.In source) :
    position.offset ≤ Text.byteCount source.toList := by
  obtain ⟨before, whole, isOffset⟩ := inside
  rw [whole, isOffset, Text.byteCount_append]
  omega

/-- What has been read is a slice of the source. -/
theorem Position.In.slice {read behind : List Char} (inside : position.In source)
    (isRest : position.rest = read ++ behind) :
    Text.slice? source ⟨position.offset, position.offset + Text.byteCount read⟩ =
      some (String.ofList read) := by
  obtain ⟨before, whole, isOffset⟩ := inside
  apply Text.slice?_eq_some_iff.mpr
  rw [String.toList_ofList]
  exact ⟨before, behind, by rw [whole, isRest], isOffset, by rw [isOffset]⟩

/-- A passage stays in the source. -/
theorem Position.In.passes (inside : position.In source)
    (passes : Passes place position tokens last) : last.In source := by
  obtain ⟨read, isRest, isOffset⟩ := passes.text
  have later := inside.behind last.afterLineBreak isRest
  rw [← isOffset] at later
  exact later

/-- At the end the offset is the size of the source. -/
theorem Position.In.offset_of_end (inside : position.In source) (atEnd : position.rest = []) :
    position.offset = Text.byteCount source.toList := by
  obtain ⟨before, whole, isOffset⟩ := inside
  rw [whole, atEnd, List.append_nil, isOffset]

/-- Where the source is small enough, the span of a token is where it is read. -/
theorem Position.In.span_eq (inside : position.In source)
    (small : Text.byteCount source.toList < 0x100000000) {read behind : List Char}
    (isRest : position.rest = read ++ behind) :
    Span.ofOffsets position.offset (position.offset + Text.byteCount read) =
      ⟨position.offset, position.offset + Text.byteCount read⟩ := by
  have start := inside.offset_le
  have stop := (inside.behind false isRest).offset_le
  dsimp only at stop
  exact Span.ofOffsets_of_lt (by omega) (by omega)

/-- Behind the last token stands the end of the source, and gaps in front of it. -/
theorem Passes.laidOut_nil (inside : position.In source) (passes : Passes place position [] last)
    (atEnd : last.rest = []) : LaidOut source position.offset
      [⟨.endOfSource, ⟨last.offset, last.offset⟩, last.afterLineBreak⟩] := by
  have stops (read : List Char) (breaksLine : Bool) (behind : List Char) :
      front last.rest ≠ .gap read breaksLine behind := by
    rw [atEnd]
    exact Front.noConfusion
  obtain ⟨gap, isRest, isLast, isGap⟩ := passes.isGap stops
  have isLength := (inside.passes passes).offset_of_end atEnd
  have between := inside.slice isRest
  rw [← isLast, isLength] at between
  rw [isLength]
  rw [atEnd] at isGap
  refine .finish between ?_
  rw [String.toList_ofList]
  exact isGap

/-- The tokens that the scanner passes stand where their spans say, if these keep all of the
offsets. -/
theorem Passes.laidOut (inside : position.In source) (passes : Passes .mk position tokens last)
    (atEnd : last.rest = []) : LaidOut source position.offset
      (tokens ++ [⟨.endOfSource, ⟨last.offset, last.offset⟩, last.afterLineBreak⟩]) := by
  induction tokens generalizing position with
  | nil => exact passes.laidOut_nil inside atEnd
  | cons token tokens step =>
      obtain ⟨start, behind, passesGap, found, isToken, following⟩ := passes.uncons
      obtain ⟨isRead, nonempty⟩ := front_token_append found
      have stops (read : List Char) (breaksLine : Bool) (behind : List Char) :
          front start.rest ≠ .gap read breaksLine behind := by
        rw [found]
        exact Front.noConfusion
      obtain ⟨gap, isRest, isStart, isGap⟩ := passesGap.isGap stops
      have isInside : start.rest.isEmpty = false := by
        rw [← isRead, List.isEmpty_eq_false_iff]
        exact List.append_ne_nil_of_left_ne_nil nonempty behind
      rw [isInside] at isGap
      have startInside := inside.passes passesGap
      have isSpan : token.span =
          ⟨start.offset, start.offset + Text.byteCount token.lexeme.text.toList⟩ := by
        rw [isToken]
      have between := inside.slice isRest
      have text := startInside.slice isRead.symm
      rw [← isStart] at between
      rw [String.ofList_toList] at text
      have laidBehind := step (startInside.behind _ isRead.symm) following
      have positive := Text.byteCount_pos nonempty
      have startsThere : token.span.start = start.offset := by rw [isSpan]
      refine .token (by rw [startsThere]; exact between) ?_ ?_ (by rw [isSpan]; exact text) ?_
      · rw [String.toList_ofList]
        exact isGap
      · rw [isSpan]
        dsimp only
        omega
      · rw [isSpan]
        exact laidBehind

/-- In a source that is small enough, a span keeps all of the offsets. -/
theorem Passes.whole (small : Text.byteCount source.toList < 0x100000000)
    (inside : position.In source) (passes : Passes .ofOffsets position tokens last) :
    Passes .mk position tokens last := by
  induction passes with
  | done => exact .done
  | gap found _ step => exact .gap found (step (inside.behind _ (front_gap_append found).1.symm))
  | token found _ step =>
      have isRest := (front_token_append found).1.symm
      rw [inside.span_eq small isRest]
      exact .token found (step (inside.behind _ isRest))

end Scan

/-- The lexemes with a space between any two of them. -/
def Piece.apart : List Lexeme → List Piece
  | [] => []
  | [lexeme] => [.token lexeme]
  | lexeme :: rest => .token lexeme :: .space :: apart rest

namespace Piece

/-- Tokens that are set apart are the same tokens. -/
theorem lexemes_apart (lexemes : List Lexeme) : Piece.lexemes (apart lexemes) = lexemes := by
  fun_induction apart lexemes <;> simp_all [Piece.lexemes_token, space]

/-- Tokens that are set apart are written with spaces between them. -/
theorem characters_apart (lexemes : List Lexeme) :
    characters (apart lexemes) = (" ".intercalate (lexemes.map Lexeme.text)).toList := by
  rw [String.toList_intercalate]
  fun_induction apart lexemes with
  | case1 => rfl
  | case2 lexeme => simp [Piece.text]
  | case3 lexeme rest notLast step =>
      obtain ⟨second, others, rfl⟩ := List.exists_cons_of_ne_nil notLast
      rw [characters_cons, characters_cons, step]
      simp only [List.map_cons, List.intercalate_cons_cons, List.append_assoc]
      rfl

end Piece

/-- A blank ends every token. -/
theorem Lexeme.stopsBefore_blank {lexeme : Lexeme} {behind : List Char}
    (legible : lexeme.IsLegible) (apart : ∀ next ∈ behind.head?, Text.isBlank next = true) :
    lexeme.StopsBefore behind := by
  have ends : Scan.EndsWord behind := by
    intro next isNext
    rw [Bool.eq_false_iff]
    intro isPart
    have isBlank := apart next isNext
    rw [Text.not_isBlank isPart] at isBlank
    cases isBlank
  -- None of the characters that could continue a token is a blank.
  have notNext {next : Char} (notBlank : Text.isBlank next = false) : behind.head? ≠ some next := by
    intro isNext
    rw [apart next isNext] at notBlank
    cases notBlank
  cases lexeme with
  | identifier name =>
      obtain ⟨isName, isWord⟩ := ofWord_of_isLegible legible
      rw [← isWord]
      exact stopsBefore_ofWord isName ends
  | keyword word => exact stopsBefore_keyword ends
  | number digits =>
      refine stopsBefore_number legible ends (fun isPoint => ?_) (fun isSign => ?_)
      · exact absurd isPoint (notNext (by decide))
      · rcases isSign with isPlus | isMinus
        · exact absurd isPlus (notNext (by decide))
        · exact absurd isMinus (notNext (by decide))
  | string content quote => exact stopsBefore_string legible
  | punctuator mark =>
      apply stopsBefore_punctuator
      intro next isNext
      have notEqual : next ≠ '=' := by
        rintro rfl
        exact notNext (by decide) isNext
      have notDivide : next ≠ '/' := by
        rintro rfl
        exact notNext (by decide) isNext
      have notTimes : next ≠ '*' := by
        rintro rfl
        exact notNext (by decide) isNext
      cases mark <;> simp [clashes, notEqual, notDivide, notTimes]
  | endOfSource =>
      obtain ⟨before, stops⟩ := legible
      exact absurd rfl (Scan.front_token_lexeme stops)

/-- Spaces keep all legible tokens apart. -/
theorem Piece.spaced_apart {lexemes : List Lexeme} (legible : ∀ lexeme ∈ lexemes, lexeme.IsLegible) :
    Spaced [] (apart lexemes) := by
  fun_induction apart lexemes with
  | case1 => trivial
  | case2 lexeme =>
      refine ⟨Lexeme.stopsBefore_blank (legible lexeme List.mem_cons_self) ?_, trivial⟩
      rintro next ⟨⟩
  | case3 lexeme rest notLast step =>
      rw [List.forall_mem_cons] at legible
      refine ⟨Lexeme.stopsBefore_blank legible.1 ?_, ?_, step legible.2⟩
      · rintro next ⟨⟩
        decide
      · intro character inside
        obtain rfl : character = ' ' := by simpa using inside
        decide

namespace TokenStream

variable {source : String} {stream : TokenStream}

/-- The stream holds the tokens of the source, each with a span that keeps all of its offsets. -/
def PlacedIn (source : String) (placed : TokenStream) : Prop :=
  ∃ last, Scan.Passes .mk ⟨source.toList, 0, false⟩ placed.ahead last ∧ last.rest = [] ∧
    placed.last = ⟨.endOfSource, ⟨last.offset, last.offset⟩, last.afterLineBreak⟩

/-- A stream that is placed in a source is laid out in it. -/
theorem PlacedIn.laidOut (placed : stream.PlacedIn source) : LaidOut source 0 stream.toList := by
  obtain ⟨last, passes, atEnd, isLast⟩ := placed
  rw [toList, isLast]
  exact passes.laidOut Scan.Position.in_start atEnd

/-- The scanner gives the tokens their places in a source that is small enough. -/
theorem placedIn_of_ofSource (small : Text.byteCount source.toList < 0x100000000)
    (scanned : ofSource source = .ok stream) : stream.PlacedIn source := by
  obtain ⟨last, passes, atEnd, isLast⟩ := Scan.passes_of_stream scanned
  have isLength := (Scan.Position.in_start.passes passes).offset_of_end atEnd
  refine ⟨last, passes.whole small Scan.Position.in_start, atEnd, ?_⟩
  rw [isLast, isLength, Span.ofOffsets_of_lt small small]

/-- The offsets of a source below the limit of 32 bits are its true ones. -/
theorem laidOut_of_ofSource (small : Text.byteCount source.toList < 0x100000000)
    (scanned : ofSource source = .ok stream) : LaidOut source 0 stream.toList :=
  (placedIn_of_ofSource small scanned).laidOut

/-- The tokens of a source are scanned again from their texts with spaces between them. -/
theorem rescanned_of_ofSource (scanned : ofSource source = .ok stream) : ∃ again,
    ofSource (" ".intercalate (stream.ahead.map fun token => token.lexeme.text)) = .ok again ∧
      again.ahead.map Token.lexeme = stream.ahead.map Token.lexeme := by
  obtain ⟨last, passes, _, _⟩ := Scan.passes_of_stream scanned
  have legible : ∀ lexeme ∈ stream.ahead.map Token.lexeme, lexeme.IsLegible :=
    List.forall_mem_map.mpr passes.isLegible
  have spaced := Piece.spaced_apart legible
  obtain ⟨again, rest, rescanned, spelled, atEnd⟩ := Scan.stream_of_spaced spaced 0 false
  rw [Piece.characters_apart, List.map_map] at rescanned
  refine ⟨again, rescanned, ?_⟩
  rw [Spelling.lexemes_ofPieces spaced spelled atEnd, Piece.lexemes_apart]

end TokenStream

/-- In front of a mistake stands a text that can be scanned. -/
theorem SyntaxError.marksIn_of_ofSource {source : String} {error : SyntaxError}
    (small : Text.byteCount source.toList < 0x100000000)
    (refused : TokenStream.ofSource source = .error error) : error.MarksIn source := by
  obtain ⟨tokens, last, cause, read, passes, fails, rfl⟩ := Scan.passes_of_stream_error refused
  obtain ⟨behind, isRest, nonempty⟩ := Scan.front_failure_append fails
  have inside := Scan.Position.in_start.passes passes
  rw [inside.span_eq small isRest]
  constructor
  · refine ⟨_, inside.slice isRest, ?_⟩
    intro isEmpty
    apply nonempty
    rw [← String.toList_ofList (l := read), isEmpty]
    rfl
  · obtain ⟨before, isSource, isOffset⟩ := passes.text
    have cut := passes.moved isSource Scan.showsNoMore_nil
    obtain ⟨stream, scanned, _⟩ := cut.stream rfl
    have slice := Scan.Position.in_start.slice isSource
    rw [← isOffset] at slice
    refine ⟨_, stream, slice, ?_⟩
    rw [TokenStream.ofSource, String.toList_ofList, ← scanned, List.append_nil]

/-- Scanning loses nothing: what it accepts is laid out in tokens and gaps, and what it refuses is
laid out up to the mark of the error. -/
theorem TokenStream.ofSource_lossless (source : String)
    (small : Text.byteCount source.toList < 0x100000000) :
    match ofSource source with
    | .ok stream => stream.Covers source
    | .error error => error.MarksIn source := by
  split
  · rename_i stream scanned
    have laidOut := laidOut_of_ofSource small scanned
    exact ⟨laidOut, laidOut.ordered, rescanned_of_ofSource scanned⟩
  · rename_i error refused
    exact SyntaxError.marksIn_of_ofSource small refused

/-- A gap can be a comment, and a character can take more than one byte. -/
theorem TokenStream.ofSource_lossless_comment :
    Text.byteCount "a /* = */= '\u00e9' // b".toList < 0x100000000 ∧
      ∃ stream, ofSource "a /* = */= '\u00e9' // b" = .ok stream ∧
        stream.Covers "a /* = */= '\u00e9' // b" := by
  have small : Text.byteCount "a /* = */= '\u00e9' // b".toList < 0x100000000 := by decide
  have lossless := ofSource_lossless _ small
  have accepted : (ofSource "a /* = */= '\u00e9' // b").isOk = true := by cbv
  cases scanned : ofSource "a /* = */= '\u00e9' // b" with
  | error error =>
      rw [scanned] at accepted
      cases accepted
  | ok stream =>
      rw [scanned] at lossless
      exact ⟨small, stream, rfl, lossless⟩

end ScriptStrip
