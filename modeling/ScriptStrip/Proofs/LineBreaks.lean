import ScriptStrip.Proofs.TokenPlaces
/-
This file compares texts that differ in their line breaks. Between tokens every line break counts
the same, but comments know the line feed only: it alone ends a comment at the end of a line, and
it alone makes a line break of a comment between marks.
-/

namespace ScriptStrip

/-- The tokens say the same, and under the condition they have the same line breaks in front of
them. -/
def Token.AlikeIf (condition : Prop) (first second : Token) : Prop :=
  first.lexeme = second.lexeme ∧ (condition → first.afterLineBreak = second.afterLineBreak)

namespace Text

/-- The character is kept, or it is a line feed and another line break takes its place. -/
def Rebroken (old new : Char) : Prop := new = old ∨ old = '\n' ∧ isLineBreak new = true

/-- A blank is replaced by a blank. -/
theorem Rebroken.isBlank {old new : Char} (replaced : Rebroken old new)
    (wasBlank : isBlank old = true) : isBlank new = true := by
  rcases replaced with rfl | ⟨_, breaks⟩
  · exact wasBlank
  · exact isBlank_of_isLineBreak breaks

/-- A line break is replaced by a line break, and nothing else by one. -/
theorem Rebroken.isLineBreak_eq {old new : Char} (replaced : Rebroken old new) :
    isLineBreak new = isLineBreak old := by
  rcases replaced with rfl | ⟨rfl, breaks⟩
  · rfl
  · rw [breaks]
    rfl

/-- Only line feeds are replaced. -/
theorem Rebroken.eq_of_not_isLineBreak {old new : Char} (replaced : Rebroken old new)
    (plain : isLineBreak new = false) : old = new := by
  rcases replaced with rfl | ⟨_, breaks⟩
  · rfl
  · rw [plain] at breaks
    cases breaks

/-- A text without line feeds is kept. -/
theorem eq_of_rebroken {old new : List Char} (replaced : List.Forall₂ Rebroken old new)
    (plain : '\n' ∉ old) : new = old := by
  induction replaced with
  | nil => rfl
  | cons first _ step =>
      rw [List.mem_cons, not_or] at plain
      rcases first with rfl | ⟨rfl, _⟩
      · rw [step plain.2]
      · exact absurd rfl plain.1

/-- Line breaks are replaced in two parts of a text on their own. -/
theorem exists_append_of_rebroken {first second new : List Char}
    (replaced : List.Forall₂ Rebroken (first ++ second) new) :
    ∃ first' second', new = first' ++ second' ∧ List.Forall₂ Rebroken first first' ∧
      List.Forall₂ Rebroken second second' := by
  refine ⟨new.take first.length, new.drop first.length, (List.take_append_drop _ _).symm, ?_, ?_⟩
  · simpa using List.forall₂_take first.length replaced
  · simpa using List.forall₂_drop first.length replaced

/-- No line feed is put into a text. -/
theorem mem_lineFeed_of_rebroken {old new : List Char} (replaced : List.Forall₂ Rebroken old new)
    (inside : '\n' ∈ new) : '\n' ∈ old := by
  induction replaced with
  | nil => exact inside
  | cons first _ step =>
      rcases List.mem_cons.mp inside with rfl | later
      · rcases first with same | ⟨rfl, _⟩
        · rw [same]
          exact List.mem_cons_self
        · exact List.mem_cons_self
      · exact List.mem_cons_of_mem _ (step later)

/-- No end mark is put into a comment. -/
theorem infix_of_rebroken {old new : List Char} (replaced : List.Forall₂ Rebroken old new)
    (ends : ['*', '/'] <:+: new) : ['*', '/'] <:+: old := by
  induction replaced with
  | nil => exact ends
  | @cons first first' rest rest' ofFirst ofRest step =>
      rw [List.infix_cons_iff] at ends ⊢
      rcases ends with atFront | later
      · left
        cases ofRest with
        | nil => simp at atFront
        | cons ofSecond _ =>
            simp only [List.cons_prefix_cons, List.nil_prefix, and_true] at atFront ⊢
            obtain ⟨rfl, rfl⟩ := atFront
            exact ⟨(ofFirst.eq_of_not_isLineBreak (by decide)).symm,
              (ofSecond.eq_of_not_isLineBreak (by decide)).symm⟩
      · exact .inr (step later)

end Text

open Text

namespace Scan

/-- The second text is the first one with other line breaks in place of some of its line feeds.
Tokens are kept, so no line feed in a string is replaced. The conditions tell whether the line
feeds behind comments have to stay, and whether one has to stay in each comment between marks that
has any. -/
inductive Relined (endsStay commentsBreak : Prop) : List Char → List Char → Prop
  | nothing : Relined endsStay commentsBreak [] []
  | blank {old new : Char} {rest rest' : List Char} (isBlank : isBlank old = true)
      (replaced : Rebroken old new) (following : Relined endsStay commentsBreak rest rest') :
      Relined endsStay commentsBreak (old :: rest) (new :: rest')
  | lineComment {comment rest rest' : List Char} (onLine : '\n' ∉ comment)
      (ends : rest.head? = some '\n' ∨ rest = []) (stays : endsStay → rest'.head? = rest.head?)
      (following : Relined endsStay commentsBreak rest rest') :
      Relined endsStay commentsBreak ('/' :: '/' :: (comment ++ rest))
        ('/' :: '/' :: (comment ++ rest'))
  | blockComment {comment comment' rest rest' : List Char} (noEnd : ¬ ['*', '/'] <:+: comment)
      (replaced : List.Forall₂ Rebroken comment comment')
      (breaks : commentsBreak → '\n' ∈ comment → '\n' ∈ comment')
      (following : Relined endsStay commentsBreak rest rest') :
      Relined endsStay commentsBreak ('/' :: '*' :: (comment ++ '*' :: '/' :: rest))
        ('/' :: '*' :: (comment' ++ '*' :: '/' :: rest'))
  | token {lexeme : Lexeme} {read rest rest' : List Char}
      (found : front (read ++ rest) = .token lexeme read rest)
      (following : Relined endsStay commentsBreak rest rest') :
      Relined endsStay commentsBreak (read ++ rest) (read ++ rest')

variable {endsStay commentsBreak : Prop} {source source' : List Char}

/-- Both texts go on with the same character, or the second one goes on with a blank. -/
theorem Relined.head (relined : Relined endsStay commentsBreak source source') :
    source'.head? = source.head? ∨ ∀ next ∈ source'.head?, isBlank next = true := by
  cases relined with
  | nothing => exact .inl rfl
  | blank isBlank replaced _ =>
      right
      rintro next ⟨⟩
      exact replaced.isBlank isBlank
  | lineComment => exact .inl rfl
  | blockComment => exact .inl rfl
  | @token lexeme read rest rest' found _ =>
      obtain ⟨first, others, isRead⟩ := List.exists_cons_of_ne_nil (front_token_append found).2
      subst isRead
      exact .inl rfl

/-- What separates tokens never changes the token in front of it. -/
theorem Relined.front_token {lexeme : Lexeme} {read : List Char}
    (relined : Relined endsStay commentsBreak source source')
    (found : front (read ++ source) = .token lexeme read source) :
    front (read ++ source') = .token lexeme read source' := by
  rcases relined.head with same | blank
  · apply front_token_moved found
    intro next isNext
    rw [← same]
    exact isNext
  · rw [read_eq_text found]
    exact Lexeme.stopsBefore_blank (isLegible_of_front found) blank

/-- A comment to the end of the line is one gap. -/
theorem front_lineComment {comment rest : List Char} (onLine : '\n' ∉ comment)
    (ends : rest.head? = some '\n' ∨ rest = []) :
    front ('/' :: '/' :: (comment ++ rest)) = .gap ('/' :: '/' :: comment) false rest := by
  have inside : ∀ character ∈ comment, (character != '\n') = true := by
    intro character isInside
    rw [bne_iff_ne]
    rintro rfl
    exact onLine isInside
  have stops : ∀ next ∈ rest.head?, (next != '\n') = false := by
    intro next isNext
    rcases ends with isBreak | rfl
    · obtain rfl : '\n' = next := Option.some.inj (isBreak.symm.trans isNext)
      rfl
    · cases isNext
  rw [front, splitWhile_append_of_stops inside stops]

/-- A comment with an end mark is one gap. -/
theorem front_blockComment {comment rest : List Char} (noEnd : ¬ ['*', '/'] <:+: comment) :
    front ('/' :: '*' :: (comment ++ '*' :: '/' :: rest)) =
      .gap ('/' :: '*' :: (comment ++ ['*', '/'])) (comment.contains '\n') rest := by
  have closed : splitComment? (comment ++ '*' :: '/' :: rest) =
      some (comment ++ ['*', '/'], rest) :=
    splitComment?_eq_some_iff.mpr ⟨comment, rfl, by simp, noEnd⟩
  have sameBreaks : (comment ++ ['*', '/']).contains '\n' = comment.contains '\n' := by
    simp
  rw [front, closed]
  dsimp only
  rw [sameBreaks]

/-- The text with other line breaks is scanned as well. -/
theorem Relined.stream (relined : Relined True commentsBreak source source') {offset : Nat}
    {broken : Bool} {stream : TokenStream} (scanned : Scan.stream source offset broken = .ok stream)
    (offset' : Nat) {broken' : Bool} (sameStart : commentsBreak → broken = broken') :
    ∃ stream', Scan.stream source' offset' broken' = .ok stream' ∧
      List.Forall₂ (Token.AlikeIf commentsBreak) stream.toList stream'.toList := by
  induction relined generalizing offset broken stream offset' broken' with
  | nothing =>
      rw [stream_nil] at scanned
      cases scanned
      exact ⟨_, stream_nil, .cons ⟨rfl, sameStart⟩ .nil⟩
  | @blank old new rest rest' isBlank replaced _ step =>
      rw [stream_of_gap (front_of_isBlank isBlank)] at scanned
      rw [stream_of_gap (front_of_isBlank (replaced.isBlank isBlank)), replaced.isLineBreak_eq]
      exact step scanned _ fun condition => by rw [sameStart condition]
  | @lineComment comment rest rest' onLine ends stays _ step =>
      -- A line comment ends where it did, because the character behind it stays.
      have ends' : rest'.head? = some '\n' ∨ rest' = [] := by
        have sameHead := stays trivial
        rcases ends with isBreak | rfl
        · exact .inl (sameHead.trans isBreak)
        · exact .inr (List.head?_eq_none_iff.mp sameHead)
      rw [stream_of_gap (front_lineComment onLine ends)] at scanned
      rw [stream_of_gap (front_lineComment onLine ends')]
      exact step scanned _ fun condition => by rw [sameStart condition]
  | @blockComment comment comment' rest rest' noEnd replaced breaks _ step =>
      have noEnd' : ¬ ['*', '/'] <:+: comment' :=
        fun ends => noEnd (infix_of_rebroken replaced ends)
      rw [stream_of_gap (front_blockComment noEnd)] at scanned
      rw [stream_of_gap (front_blockComment noEnd')]
      refine step scanned _ fun condition => ?_
      have sameBreaks : '\n' ∈ comment ↔ '\n' ∈ comment' :=
        ⟨breaks condition, mem_lineFeed_of_rebroken replaced⟩
      rw [sameStart condition, List.contains_eq_mem, List.contains_eq_mem,
        decide_eq_decide.mpr sameBreaks]
  | @token lexeme read rest rest' found following step =>
      obtain ⟨stream, inside, scannedRest, rfl⟩ := exists_push_of_stream found scanned
      obtain ⟨stream', scanned', alike⟩ := step scannedRest _ fun _ => rfl
      refine ⟨_, stream_of_token (following.front_token found) scanned', ?_⟩
      rw [TokenStream.toList_push, TokenStream.toList_push]
      exact .cons ⟨rfl, sameStart⟩ alike

/-- A line feed in a string stands behind a backslash. -/
theorem lineFeed_not_mem_of_splitString {quote : Char} {source content rest : List Char}
    (split : splitString quote source = (content, rest))
    (noEscape : ¬ ['\\', '\n'] <:+: content) : '\n' ∉ content := by
  fun_induction splitString quote source generalizing content with
  | case1 =>
      cases split
      simp
  | case2 =>
      cases split
      simp
  | case3 character source inside after found step =>
      cases split
      have later := step found fun escape =>
        noEscape (escape.trans (List.suffix_append ['\\', character] inside).isInfix)
      have plain : character ≠ '\n' := by
        rintro rfl
        exact noEscape (List.prefix_append ['\\', '\n'] inside).isInfix
      simp [later, plain.symm]
  | case4 =>
      cases split
      simp
  | case5 character source _ _ stays inside after found step =>
      cases split
      have later := step found fun escape => noEscape (escape.trans (List.suffix_cons _ _).isInfix)
      have plain : character ≠ '\n' := by
        rintro rfl
        simp at stays
      simp [later, plain.symm]

/-- A token without an escaped line break holds no line feed. -/
theorem lineFeed_not_mem_of_front_token {lexeme : Lexeme} {read rest : List Char}
    (found : front source = .token lexeme read rest)
    (noEscape : ¬ ['\\', '\n'] <:+: read) : '\n' ∉ read := by
  rcases front_token_cases found with ⟨quote, content, _, rfl, split⟩ | ⟨_, _, _, _, _, split⟩ |
    ⟨_, _, _, _, _, split⟩ | ⟨mark, _, rfl⟩
  · have inside := lineFeed_not_mem_of_splitString split fun escape =>
      noEscape (escape.trans (List.infix_append' [_] content [_]))
    have notQuote : '\n' ≠ quote.mark := by cases quote <;> decide
    simp [inside, notQuote]
  · intro inside
    have isRead : read = (splitNumber source).1 := by rw [split]
    rw [isRead] at inside
    rcases mem_splitNumber inside with isPart | isMark
    · cases isPart
    · simp at isMark
  · intro inside
    cases all_of_splitWhile split _ inside
  · cases mark <;> decide

/-- In a text that is scanned any line feeds may be replaced, so long as there are none in
strings. -/
theorem Passes.relined {place : Nat → Nat → Span} {position last : Position} {tokens : List Token}
    (passes : Passes place position tokens last) (atEnd : last.rest = [])
    (noEscape : ¬ ['\\', '\n'] <:+: position.rest)
    (replaced : List.Forall₂ Rebroken position.rest source') :
    Relined False False position.rest source' := by
  induction passes generalizing source' with
  | done =>
      rw [atEnd] at replaced ⊢
      cases replaced
      exact .nothing
  | @gap position last read behind breaksLine tokens found _ step =>
      -- Each gap is copied with its breaks replaced, and then the rest follows.
      have noEscapeBehind : ¬ ['\\', '\n'] <:+: behind := fun escape =>
        noEscape (escape.trans ⟨read, [], by rw [List.append_nil, (front_gap_append found).1]⟩)
      have following {rest : List Char} (replaced : List.Forall₂ Rebroken behind rest) :
          Relined False False behind rest := step atEnd noEscapeBehind replaced
      rcases front_gap_cases found with ⟨blank, isBlank, _, _, isRest⟩ |
        ⟨comment, _, _, isRest, split⟩ | ⟨comment, _, _, isRest, closed⟩
      · rw [isRest] at replaced ⊢
        cases replaced with
        | cons first others => exact .blank isBlank first (following others)
      · have onLine : '\n' ∉ comment := by
          intro inside
          simpa using all_of_splitWhile split _ inside
        have ends : behind.head? = some '\n' ∨ behind = [] := by
          cases behind with
          | nil => exact .inr rfl
          | cons next behind =>
              have stops := stops_of_splitWhile split next rfl
              left
              simpa using stops
        rw [isRest] at replaced ⊢
        rw [← List.cons_append, ← List.cons_append] at replaced
        obtain ⟨read', behind', rfl, ofRead, ofBehind⟩ := exists_append_of_rebroken replaced
        rw [eq_of_rebroken ofRead (by simp [onLine])]
        exact .lineComment onLine ends False.elim (following ofBehind)
      · obtain ⟨inside, rfl, _, noEnd⟩ := splitComment?_eq_some_iff.mp closed
        have regrouped : position.rest = ['/', '*'] ++ (inside ++ (['*', '/'] ++ behind)) := by
          simp [isRest]
        rw [regrouped] at replaced ⊢
        obtain ⟨start, _, rfl, ofStart, ofRest⟩ := exists_append_of_rebroken replaced
        obtain ⟨inside', _, rfl, ofInside, ofRest⟩ := exists_append_of_rebroken ofRest
        obtain ⟨stop, behind', rfl, ofStop, ofBehind⟩ := exists_append_of_rebroken ofRest
        rw [eq_of_rebroken ofStart (by decide), eq_of_rebroken ofStop (by decide)]
        exact .blockComment noEnd ofInside False.elim (following ofBehind)
  | @token position last lexeme read behind tokens found _ step =>
      obtain ⟨whole, _⟩ := front_token_append found
      rw [← whole] at replaced noEscape ⊢
      obtain ⟨read', behind', rfl, ofRead, ofBehind⟩ := exists_append_of_rebroken replaced
      -- A token has a line feed only inside of an escape, so it is copied as it stands.
      have plain := lineFeed_not_mem_of_front_token found fun escape =>
        noEscape (escape.trans (List.prefix_append read behind).isInfix)
      rw [eq_of_rebroken ofRead plain]
      rw [← whole] at found
      refine .token found (step atEnd (fun escape => ?_) ofBehind)
      exact noEscape (escape.trans (List.suffix_append read behind).isInfix)

end Scan

namespace TokenStream

variable {source source' : String} {stream : TokenStream}

/-- Where no string goes on behind a line feed, any of the line feeds may be replaced. -/
theorem relined_of_ofSource (scanned : ofSource source = .ok stream)
    (noEscape : ¬ ['\\', '\n'] <:+: source.toList)
    (replaced : List.Forall₂ Rebroken source.toList source'.toList) :
    Scan.Relined False False source.toList source'.toList := by
  obtain ⟨last, passes, atEnd, _⟩ := Scan.passes_of_stream scanned
  exact passes.relined atEnd noEscape replaced

/-- Other line breaks in place of line feeds leave the tokens as they are if the line feeds behind
comments stay. They leave the line breaks in front of the tokens as they are if, besides, one line
feed stays in each comment between marks that has any. -/
theorem alike_of_relined {commentsBreak : Prop}
    (relined : Scan.Relined True commentsBreak source.toList source'.toList)
    (scanned : ofSource source = .ok stream) :
    ∃ stream', ofSource source' = .ok stream' ∧
      List.Forall₂ (Token.AlikeIf commentsBreak) stream.toList stream'.toList :=
  relined.stream scanned 0 fun _ => rfl

/-- The text has a line feed of each kind that may be replaced, and a string goes on behind one. -/
theorem alike_of_relined_comments :
    Scan.Relined True True "a\n/*\n\n*/ 'x\\\n' //\n".toList "a\r/*\u2028\n*/ 'x\\\n' //\n".toList ∧
      ∃ stream stream', ofSource "a\n/*\n\n*/ 'x\\\n' //\n" = .ok stream ∧
        ofSource "a\r/*\u2028\n*/ 'x\\\n' //\n" = .ok stream' ∧
        List.Forall₂ (Token.AlikeIf True) stream.toList stream'.toList := by
  have relined : Scan.Relined True True "a\n/*\n\n*/ 'x\\\n' //\n".toList
      "a\r/*\u2028\n*/ 'x\\\n' //\n".toList := by
    show Scan.Relined True True
      ['a', '\n', '/', '*', '\n', '\n', '*', '/', ' ', '\'', 'x', '\\', '\n', '\'', ' ', '/', '/',
        '\n']
      ['a', '\r', '/', '*', '\u2028', '\n', '*', '/', ' ', '\'', 'x', '\\', '\n', '\'', ' ', '/',
        '/', '\n']
    refine @Scan.Relined.token True True (.identifier "a") ['a'] _ _ ?_ ?_
    · cbv
    refine .blank (by decide) (.inr ⟨rfl, by decide⟩) ?_
    refine @Scan.Relined.blockComment True True ['\n', '\n'] ['\u2028', '\n'] _ _ ?_ ?_ ?_ ?_
    · decide
    · exact .cons (.inr ⟨rfl, by decide⟩) (.cons (.inl rfl) .nil)
    · simp
    refine .blank (by decide) (.inl rfl) ?_
    refine @Scan.Relined.token True True (.string "x\\\n" .single) ['\'', 'x', '\\', '\n', '\''] _ _
      ?_ ?_
    · cbv
    refine .blank (by decide) (.inl rfl) ?_
    refine @Scan.Relined.lineComment True True [] ['\n'] _ (by decide) (.inl rfl) (fun _ => rfl) ?_
    exact .blank (by decide) (.inl rfl) .nothing
  have accepted : (ofSource "a\n/*\n\n*/ 'x\\\n' //\n").isOk = true := by cbv
  cases scanned : ofSource "a\n/*\n\n*/ 'x\\\n' //\n" with
  | error error =>
      rw [scanned] at accepted
      cases accepted
  | ok stream =>
      obtain ⟨stream', scanned', alike⟩ := alike_of_relined relined scanned
      exact ⟨relined, stream, stream', rfl, scanned', alike⟩

/-- A comment goes on behind other line breaks than a line feed. -/
theorem exists_relined_not_alike : ∃ stream stream',
    Scan.Relined False False "// c\nx".toList "// c\rx".toList ∧
      ofSource "// c\nx" = .ok stream ∧ ofSource "// c\rx" = .ok stream' ∧
      stream.toList = [⟨.identifier "x", ⟨5, 6⟩, true⟩, ⟨.endOfSource, ⟨6, 6⟩, false⟩] ∧
      stream'.toList = [⟨.endOfSource, ⟨6, 6⟩, false⟩] := by
  refine ⟨⟨[⟨.identifier "x", ⟨5, 6⟩, true⟩], ⟨.endOfSource, ⟨6, 6⟩, false⟩, by decide, rfl⟩,
    ⟨[], ⟨.endOfSource, ⟨6, 6⟩, false⟩, by decide, rfl⟩, ?_, ?_, ?_, rfl, rfl⟩
  · refine @Scan.Relined.lineComment False False [' ', 'c'] ['\n', 'x'] ['\r', 'x'] (by decide)
      (.inl rfl) False.elim ?_
    refine .blank (by decide) (.inr ⟨rfl, by decide⟩) ?_
    exact @Scan.Relined.token False False (.identifier "x") ['x'] _ _ (by cbv) .nothing
  · cbv
  · cbv

/-- Without its line feed a comment between marks is no line break any more. -/
example : (ofSource "a/*\n*/b").toOption.map (·.ahead.map Token.afterLineBreak) =
      some [false, true] ∧
    (ofSource "a/*\r*/b").toOption.map (·.ahead.map Token.afterLineBreak) =
      some [false, false] := by
  constructor
  · cbv
  · cbv

end TokenStream

end ScriptStrip
