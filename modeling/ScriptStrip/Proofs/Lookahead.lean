import ScriptStrip.Proofs.Rendering
/-
This file shows that the scanner looks at most one character past what it reads. What it reads at
the front of a text is read in every text that goes on with the same character, and in the text
that ends there.
-/

namespace ScriptStrip.Scan

variable {read behind behind' : List Char}

/-- A scanner that looks at the head of the first text sees nothing that the second does not
start with. -/
def ShowsNoMore (behind' behind : List Char) : Prop :=
  ∀ next ∈ behind'.head?, behind.head? = some next

/-- The end of a text shows nothing. -/
theorem showsNoMore_nil : ShowsNoMore [] behind := by
  rintro next ⟨⟩

/-- A text shows no more if something is put behind it. -/
theorem showsNoMore_append : ShowsNoMore behind (behind ++ behind') := by
  intro next isNext
  cases behind with
  | nil => cases isNext
  | cons first rest => exact isNext

/-- The same front shows the same head. -/
theorem ShowsNoMore.prepend (same : ShowsNoMore behind' behind) (read : List Char) :
    ShowsNoMore (read ++ behind') (read ++ behind) := by
  cases read with
  | nil => exact same
  | cons first rest =>
      intro next isNext
      exact isNext

/-- A character that does not come next does not come next in the text that shows less. -/
theorem ShowsNoMore.ne_cons (same : ShowsNoMore behind' behind) {first : Char}
    (notNext : ∀ rest, behind ≠ first :: rest) (rest : List Char) : behind' ≠ first :: rest := by
  rintro rfl
  have isNext := same first rfl
  cases behind with
  | nil => cases isNext
  | cons next after =>
      obtain rfl := Option.some.inj isNext
      exact notNext after rfl

/-- What holds of the next character holds in the text that shows less. -/
theorem ShowsNoMore.forall_head (same : ShowsNoMore behind' behind) {holds : Char → Prop}
    (atHead : ∀ next ∈ behind.head?, holds next) : ∀ next ∈ behind'.head?, holds next :=
  fun next isNext => atHead next (same next isNext)

section Numbers

/-- The first character that is left fails the test. -/
theorem stops_of_splitWhile {test : Char → Bool} {source : List Char}
    (split : splitWhile test source = (read, behind)) :
    ∀ next ∈ behind.head?, test next = false := by
  obtain ⟨_, rfl⟩ := Prod.mk.inj split
  intro next isNext
  have stops := List.head?_dropWhile_not test source
  rw [Option.mem_def.mp isNext] at stops
  simpa using stops

/-- Splitting by a test looks at one character behind the part. -/
theorem splitWhile_moved {test : Char → Bool}
    (split : splitWhile test (read ++ behind) = (read, behind)) (same : ShowsNoMore behind' behind) :
    splitWhile test (read ++ behind') = (read, behind') :=
  splitWhile_append_of_stops (all_of_splitWhile split) (same.forall_head (stops_of_splitWhile split))

/-- A fraction ends alike in front of a text that shows no more. -/
theorem splitFraction_moved (split : splitFraction (read ++ behind) = (read, behind))
    (same : ShowsNoMore behind' behind) : splitFraction (read ++ behind') = (read, behind') := by
  cases read with
  | nil =>
      have notPoint : ∀ rest, behind ≠ '.' :: rest := by
        rintro rest rfl
        simp [splitFraction] at split
      rw [List.nil_append, splitFraction]
      exact same.ne_cons notPoint
  | cons first digits =>
      rw [List.cons_append] at split ⊢
      unfold splitFraction at split
      split at split
      · rename_i isPoint
        obtain ⟨rfl, rfl⟩ := List.cons.inj isPoint
        simp only [Prod.mk.injEq, List.cons.injEq, true_and] at split
        rw [splitFraction, splitWhile_moved (Prod.ext split.1 split.2) same]
      · cases (Prod.mk.inj split).1

/-- A sign ends alike in front of a text that shows no more. -/
theorem splitSign_moved (split : splitSign (read ++ behind) = (read, behind))
    (same : ShowsNoMore behind' behind) : splitSign (read ++ behind') = (read, behind') := by
  have isSign := splitSign_cases (read ++ behind)
  rw [split] at isSign
  apply splitSign_of_isSign isSign
  rintro rfl
  rw [List.nil_append] at split
  have notSign (sign : Char) (isMark : sign = '+' ∨ sign = '-') : behind'.head? ≠ some sign := by
    intro isNext
    have wasNext := same sign isNext
    cases behind with
    | nil => cases wasNext
    | cons next rest =>
        obtain rfl := Option.some.inj wasNext
        rcases isMark with rfl | rfl <;> cases (Prod.mk.inj split).1
  exact ⟨notSign _ (.inl rfl), notSign _ (.inr rfl)⟩

/-- An exponent ends alike in front of a text that shows no more. -/
theorem splitExponent_moved (split : splitExponent (read ++ behind) = (read, behind))
    (same : ShowsNoMore behind' behind) : splitExponent (read ++ behind') = (read, behind') := by
  cases read with
  | nil =>
      rw [List.nil_append] at split ⊢
      cases behind' with
      | nil => rfl
      | cons next rest' =>
          have isNext := same next rfl
          cases behind with
          | nil => cases isNext
          | cons next' rest =>
              obtain rfl := Option.some.inj isNext
              rw [splitExponent] at split ⊢
              split at split
              · cases (Prod.mk.inj split).1
              · rename_i notLetter
                rw [if_neg notLetter]
  | cons letter rest =>
      rw [List.cons_append] at split ⊢
      rw [splitExponent] at split ⊢
      split at split
      · rename_i isLetter
        rw [if_pos isLetter]
        simp only [List.cons_append, Prod.mk.injEq, List.cons.injEq, true_and] at split
        have signWhole := splitSign_append (rest ++ behind)
        have digitsWhole := splitWhile_append Char.isDigit (splitSign (rest ++ behind)).2
        obtain ⟨isRest, isBehind⟩ := split
        generalize signSplit : splitSign (rest ++ behind) = signed at *
        obtain ⟨sign, unsigned⟩ := signed
        generalize digitSplit : splitWhile Char.isDigit unsigned = counted at *
        obtain ⟨digits, after⟩ := counted
        dsimp only at isRest isBehind signWhole digitsWhole signSplit digitSplit
        subst isRest isBehind digitsWhole
        rw [List.append_assoc] at signSplit
        rw [List.append_assoc,
          splitSign_moved signSplit (same.prepend digits)]
        dsimp only
        rw [splitWhile_moved digitSplit same, List.cons_append]
      · cases (Prod.mk.inj split).1

/-- A decimal number ends alike in front of a text that shows no more. -/
theorem splitDecimal_moved (split : splitDecimal (read ++ behind) = (read, behind))
    (same : ShowsNoMore behind' behind) : splitDecimal (read ++ behind') = (read, behind') := by
  generalize source : read ++ behind = text at split
  have wholeAppend := splitWhile_append Char.isDigit text
  have fractionAppend := splitFraction_append (splitWhile Char.isDigit text).2
  have exponentAppend := splitExponent_append (splitFraction (splitWhile Char.isDigit text).2).2
  unfold splitDecimal at split
  generalize wholeSplit : splitWhile Char.isDigit text = first at *
  obtain ⟨whole, fractional⟩ := first
  dsimp only at split fractionAppend exponentAppend wholeAppend
  generalize fractionSplit : splitFraction fractional = second at *
  obtain ⟨fraction, exponential⟩ := second
  dsimp only at split exponentAppend fractionAppend
  generalize exponentSplit : splitExponent exponential = third at *
  obtain ⟨exponent, after⟩ := third
  obtain ⟨rfl, rfl⟩ := Prod.mk.inj split
  subst exponentAppend fractionAppend wholeAppend
  unfold splitDecimal
  rw [List.append_assoc, List.append_assoc,
    splitWhile_moved wholeSplit ((same.prepend exponent).prepend fraction)]
  dsimp only
  rw [splitFraction_moved fractionSplit (same.prepend exponent)]
  dsimp only
  rw [splitExponent_moved exponentSplit same]

/-- A number ends alike in front of a text that shows no more. -/
theorem splitNumber_moved (nonempty : read ≠ [])
    (split : splitNumber (read ++ behind) = (read, behind)) (same : ShowsNoMore behind' behind) :
    splitNumber (read ++ behind') = (read, behind') := by
  by_cases isHex : startsHex (read ++ behind) = true
  · have readsHex := startsHex_splitNumber isHex
    rw [split] at readsHex
    obtain ⟨letter, digits, rfl, rfl | rfl⟩ := startsHex_iff.mp readsHex
    all_goals
      simp only [List.cons_append, splitNumber, Prod.mk.injEq, List.cons.injEq, true_and] at split ⊢
      have moved := splitWhile_moved (Prod.ext split.1 split.2) same
      rw [moved]
      exact ⟨rfl, rfl⟩
  · have notHex : startsHex (read ++ behind') = false := by
      rw [Bool.eq_false_iff]
      intro isHexNow
      apply isHex
      obtain ⟨letter, rest, source, isLetter⟩ := startsHex_iff.mp isHexNow
      -- The start of a hexadecimal number is two characters long, one of which can be the next.
      rcases read with _ | ⟨first, _ | ⟨second, read⟩⟩
      · exact absurd rfl nonempty
      · obtain ⟨rfl, rfl⟩ := List.cons.inj source
        have isNext := same letter rfl
        cases behind with
        | nil => cases isNext
        | cons next after =>
            obtain rfl := Option.some.inj isNext
            exact startsHex_iff.mpr ⟨next, after, rfl, isLetter⟩
      · simp only [List.cons_append, List.cons.injEq] at source
        obtain ⟨rfl, rfl, _⟩ := source
        exact startsHex_iff.mpr ⟨second, read ++ behind, rfl, isLetter⟩
    rw [Bool.not_eq_true] at isHex
    rw [splitNumber_of_not_startsHex isHex] at split
    rw [splitNumber_of_not_startsHex notHex]
    exact splitDecimal_moved split same

end Numbers

section Marks

/-- An equals sign behind a mark that can take it makes a longer mark. -/
theorem splitPunctuator?_longer {mark : Punctuator} (rest : List Char)
    (reads : Lexeme.clashes '=' mark = true) : ∃ longer after,
      splitPunctuator? (mark.text.toList ++ '=' :: rest) = some (longer, after) ∧ longer ≠ mark := by
  have twice (mark : Punctuator) (short : ∀ next ∈ rest.head?, next ≠ '=' →
        Lexeme.clashes next mark = false) (notMore : ∀ after, rest ≠ '=' :: after) :
      splitPunctuator? (mark.text.toList ++ rest) = some (mark, rest) := by
    apply splitPunctuator?_text
    intro next isNext
    apply short next isNext
    rintro rfl
    cases rest with
    | nil => cases isNext
    | cons head after =>
        obtain rfl := Option.some.inj isNext
        exact notMore after rfl
  by_cases more : ∃ after, rest = '=' :: after
  · obtain ⟨after, rfl⟩ := more
    cases mark with
    | assign => exact ⟨.strictEqual, after, rfl, by decide⟩
    | not => exact ⟨.strictNotEqual, after, rfl, by decide⟩
    | equal => exact ⟨.strictEqual, _, rfl, by decide⟩
    | notEqual => exact ⟨.strictNotEqual, _, rfl, by decide⟩
    | less => exact ⟨.lessEqual, _, rfl, by decide⟩
    | greater => exact ⟨.greaterEqual, _, rfl, by decide⟩
    | _ => cases reads
  · have notMore (after : List Char) : rest ≠ '=' :: after := fun same => more ⟨after, same⟩
    cases mark with
    | assign => exact ⟨.equal, rest, twice .equal (by simp [Lexeme.clashes]) notMore, by decide⟩
    | not => exact ⟨.notEqual, rest, twice .notEqual (by simp [Lexeme.clashes]) notMore, by decide⟩
    | equal => exact ⟨.strictEqual, _, rfl, by decide⟩
    | notEqual => exact ⟨.strictNotEqual, _, rfl, by decide⟩
    | less => exact ⟨.lessEqual, _, rfl, by decide⟩
    | greater => exact ⟨.greaterEqual, _, rfl, by decide⟩
    | _ => cases reads

/-- A mark is read only where the character behind it is no more of it. -/
theorem not_clashes_of_stopsBefore {mark : Punctuator}
    (stops : (Lexeme.punctuator mark).StopsBefore behind) :
    ∀ next ∈ behind.head?, Lexeme.clashes next mark = false := by
  intro next isNext
  rw [Bool.eq_false_iff]
  intro reads
  cases behind with
  | nil => cases isNext
  | cons head rest =>
      obtain rfl := Option.some.inj isNext
      by_cases isDivide : mark = .divide
      · subst isDivide
        rcases Bool.or_eq_true_iff.mp reads with isSlash | isStar
        · obtain rfl := beq_iff_eq.mp isSlash
          cases stops
        · obtain rfl := beq_iff_eq.mp isStar
          have isComment : front ('/' :: '*' :: rest) = _ := stops
          rw [front] at isComment
          split at isComment <;> cases isComment
      · obtain rfl : head = '=' := by
          cases mark <;> first | exact beq_iff_eq.mp reads | cases reads | exact absurd rfl isDivide
        obtain ⟨longer, after, found, different⟩ := splitPunctuator?_longer rest reads
        obtain ⟨first, others, isText, starts, onlyDivide⟩ := text_startsMark mark
        rw [isText, List.cons_append] at found
        have scanned := front_of_splitPunctuator? starts
          (fun isSlash => absurd (onlyDivide isSlash).1 isDivide) found
        rw [Lexeme.StopsBefore, Lexeme.text, isText, List.cons_append, scanned] at stops
        injection stops with sameLexeme
        exact different (Lexeme.punctuator.inj sameLexeme)

end Marks

/-- A token ends alike in front of a text that shows no more. -/
theorem front_token_moved {lexeme : Lexeme} (found : front (read ++ behind) = .token lexeme read behind)
    (same : ShowsNoMore behind' behind) : front (read ++ behind') = .token lexeme read behind' := by
  have stops := stopsBefore_of_front found
  have isText := read_eq_text found
  rcases front_token_cases found with ⟨quote, content, rfl, _⟩ |
    ⟨first, rest, source, isDigit, rfl, split⟩ | ⟨first, rest, source, starts, rfl, split⟩ |
    ⟨mark, rfl, _⟩
  · rw [isText]
    exact Lexeme.stopsBefore_string ⟨behind, stops⟩
  · have nonempty := (front_token_append found).2
    have moved := splitNumber_moved nonempty split same
    obtain ⟨head, digits, rfl⟩ := List.exists_cons_of_ne_nil nonempty
    obtain ⟨rfl, _⟩ := List.cons.inj source
    rw [List.cons_append, front_of_isDigit isDigit, ← List.cons_append, moved]
  · have ends : EndsWord behind' := same.forall_head (stops_of_splitWhile split)
    have moved := Lexeme.stopsBefore_ofWord
      (Lexeme.isIdentifier_of_isLegible_ofWord ⟨behind, stops⟩) ends
    rw [Lexeme.StopsBefore, Lexeme.text_ofWord, String.toList_ofList] at moved
    exact moved
  · rw [isText]
    exact Lexeme.stopsBefore_punctuator (same.forall_head (not_clashes_of_stopsBefore stops))

/-- A comment between marks ends at its first end mark. -/
theorem splitComment?_eq_some_iff {source inside after : List Char} :
    splitComment? source = some (inside, after) ↔
      ∃ content, inside = content ++ ['*', '/'] ∧ source = inside ++ after ∧
        ¬ ['*', '/'] <:+: content := by
  constructor
  · intro closed
    induction source using splitComment?.induct generalizing inside with
    | case1 => simp [splitComment?] at closed
    | case2 rest =>
        simp only [splitComment?, Option.some.injEq, Prod.mk.injEq] at closed
        obtain ⟨rfl, rfl⟩ := closed
        exact ⟨[], rfl, rfl, by simp⟩
    | case3 character rest other step =>
        rw [splitComment?] at closed
        · obtain ⟨pair, found, same⟩ := Option.map_eq_some_iff.mp closed
          obtain ⟨rfl, rfl⟩ := Prod.mk.inj same
          obtain ⟨content, isInside, rfl, noEnd⟩ := step found
          refine ⟨character :: content, by rw [isInside]; rfl, rfl, ?_⟩
          intro ends
          -- An end mark in the content would be at its front, where the scanner has seen none, or
          -- further on.
          rcases List.infix_cons_iff.mp ends with atFront | later
          · obtain ⟨rest, same⟩ := atFront
            simp only [List.cons_append, List.nil_append, List.cons.injEq] at same
            obtain ⟨rfl, rfl⟩ := same
            rw [isInside] at other
            exact other _ rfl rfl
          · exact noEnd later
        · exact other
  · rintro ⟨content, rfl, rfl, noEnd⟩
    induction content with
    | nil => rfl
    | cons character content step =>
        rw [List.infix_cons_iff, not_or] at noEnd
        rw [List.cons_append, List.cons_append, splitComment?]
        · rw [step noEnd.2]
          rfl
        · rintro rest rfl same
          apply noEnd.1
          cases content with
          | nil => cases (List.cons.inj same).1
          | cons second content =>
              obtain ⟨rfl, _⟩ := List.cons.inj same
              exact ⟨content, rfl⟩

/-- A closed comment ends by itself, whatever stands behind it. -/
theorem splitComment?_moved (split : splitComment? (read ++ behind) = some (read, behind)) :
    splitComment? (read ++ behind') = some (read, behind') := by
  obtain ⟨content, isRead, _, noEnd⟩ := splitComment?_eq_some_iff.mp split
  exact splitComment?_eq_some_iff.mpr ⟨content, isRead, rfl, noEnd⟩

/-- What separates tokens: a blank, a comment up to the end of its line, or one between marks. -/
theorem front_gap_cases {source : List Char} {breaksLine : Bool}
    (found : front source = .gap read breaksLine behind) :
    (∃ blank, Text.isBlank blank = true ∧ read = [blank] ∧
        breaksLine = Text.isLineBreak blank ∧ source = blank :: behind) ∨
      (∃ comment, read = '/' :: '/' :: comment ∧ breaksLine = false ∧
        source = '/' :: '/' :: (comment ++ behind) ∧
        splitWhile (· != '\n') (comment ++ behind) = (comment, behind)) ∨
      ∃ comment, read = '/' :: '*' :: comment ∧ breaksLine = comment.contains '\n' ∧
        source = '/' :: '*' :: (comment ++ behind) ∧
        splitComment? (comment ++ behind) = some (comment, behind) := by
  unfold front at found
  split at found
  · cases found
  · rename_i rest
    injection found with isRead isBreak isBehind
    have whole := splitWhile_append (· != '\n') rest
    simp only [splitWhile, isBehind] at whole
    refine .inr (.inl ⟨_, isRead.symm, isBreak.symm, ?_, ?_⟩)
    · rw [whole]
    · rw [whole]
      exact Prod.ext rfl isBehind
  · split at found
    · rename_i rest comment after closed
      injection found with isRead isBreak isBehind
      subst isBehind
      have whole := splitComment?_append closed
      refine .inr (.inr ⟨comment, isRead.symm, isBreak.symm, ?_, ?_⟩)
      · rw [whole]
      · rw [whole]
        exact closed
    · cases found
  · split at found
    · rename_i isBlank
      injection found with isRead isBreak isBehind
      subst isBehind
      exact .inl ⟨_, isBlank, isRead.symm, isBreak.symm, rfl⟩
    · exact absurd found frontToken_ne_gap

/-- A gap ends alike in front of a text that shows no more. -/
theorem front_gap_moved {breaksLine : Bool}
    (found : front (read ++ behind) = .gap read breaksLine behind)
    (same : ShowsNoMore behind' behind) :
    front (read ++ behind') = .gap read breaksLine behind' := by
  rcases front_gap_cases found with ⟨blank, isBlank, rfl, rfl, _⟩ | ⟨comment, rfl, rfl, _, split⟩ |
    ⟨comment, rfl, rfl, _, closed⟩
  · exact front_of_isBlank isBlank
  · show front ('/' :: '/' :: (comment ++ behind')) = _
    rw [front, splitWhile_moved split same]
  · show front ('/' :: '*' :: (comment ++ behind')) = _
    rw [front, splitComment?_moved closed]

end ScriptStrip.Scan
