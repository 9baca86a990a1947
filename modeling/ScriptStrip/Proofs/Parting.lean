import ScriptStrip.Proofs.ExposedTrees
import ScriptStrip.Proofs.Lockstep
import ScriptStrip.Proofs.Lookahead
import ScriptStrip.Proofs.PrintedSpacing
import ScriptStrip.Proofs.Scanned
/-
This file scans text that an added pair of parentheses has been taken out of. A word or a number
may be read on into the next one there, and then other tokens are read than those that are left.
-/

namespace ScriptStrip

namespace Lexeme

/-- In front of the text, another word or number is read in place of the lexeme. -/
def RunsInto (behind : List Char) (lexeme : Lexeme) : Prop :=
  lexeme.runsOn = true ∧ ∃ longer read rest,
    Scan.front (lexeme.text.toList ++ behind) = .token longer read rest ∧
      longer.runsOn = true ∧ longer.text ≠ lexeme.text

/-- A word may run on into what is behind it. -/
theorem runsOn_ofWord (word : String) : (ofWord word).runsOn = true := by
  unfold ofWord
  split <;> rfl

/-- A word stops where it should, or it is read on as a longer one. -/
theorem stopsBefore_or_runsInto {lexeme longer : Lexeme} {behind read rest : List Char}
    (runsOn : lexeme.runsOn = true)
    (found : Scan.front (lexeme.text.toList ++ behind) = .token longer read rest)
    (runsOn' : longer.runsOn = true) (same : longer.text = lexeme.text → longer = lexeme) :
    lexeme.StopsBefore behind ∨ lexeme.RunsInto behind := by
  by_cases sameText : longer.text = lexeme.text
  · obtain rfl := same sameText
    obtain rfl := Scan.read_eq_text found
    obtain rfl := List.append_cancel_left (Scan.front_token_append found).1
    exact .inl found
  · exact .inr ⟨runsOn, longer, read, rest, found, runsOn', sameText⟩

/-- A mark has to be kept apart from what it could be read on with. -/
theorem IsLegible.joined {lexeme : Lexeme} (legible : lexeme.IsLegible) {behind : List Char}
    (clear : lexeme.runsOn = false → ∀ mark, ∀ next ∈ behind.head?, clashes next mark = false) :
    lexeme.StopsBefore behind ∨ lexeme.RunsInto behind := by
  obtain ⟨before, stops⟩ := legible
  obtain ⟨first, rest, isText⟩ := List.exists_cons_of_ne_nil (Scan.front_token_append stops).2
  rcases Scan.front_token_cases stops with ⟨quote, content, rfl, _⟩ |
    ⟨_, _, source, isDigit, isNumber, _⟩ | ⟨_, _, source, starts, isWord, _⟩ | ⟨mark, rfl, _⟩
  · exact .inl (stopsBefore_string ⟨before, stops⟩)
  · rw [isText, List.cons_append] at source
    obtain ⟨rfl, _⟩ := List.cons.inj source
    have found := @Scan.front_of_isDigit _ (rest ++ behind) isDigit
    rw [← List.cons_append, ← isText] at found
    rw [String.ofList_toList] at isNumber
    have runsOn : lexeme.runsOn = true := by rw [isNumber, Lexeme.runsOn]
    apply stopsBefore_or_runsInto runsOn found rfl
    exact fun sameText => (congrArg number sameText).trans isNumber.symm
  · rw [isText, List.cons_append] at source
    obtain ⟨rfl, _⟩ := List.cons.inj source
    have found := @Scan.front_of_identifierStart _ (rest ++ behind) starts
    rw [← List.cons_append, ← isText] at found
    rw [String.ofList_toList] at isWord
    have runsOn : lexeme.runsOn = true := isWord ▸ runsOn_ofWord lexeme.text
    apply stopsBefore_or_runsInto runsOn found (runsOn_ofWord _)
    intro sameText
    rw [text_ofWord] at sameText
    exact (congrArg ofWord sameText).trans isWord.symm
  · exact .inl (stopsBefore_punctuator (clear rfl mark))

end Lexeme

namespace TokenStream

/-- The streams say the same up to two words or numbers of different texts. -/
inductive Parts : TokenStream → TokenStream → Prop
  | here {first second : TokenStream} (runsOn : first.front.lexeme.runsOn = true)
      (runsOn' : second.front.lexeme.runsOn = true)
      (different : first.front.lexeme.text ≠ second.front.lexeme.text) : Parts first second
  | later {first second : TokenStream} (same : first.front.lexeme = second.front.lexeme)
      (following : Parts first.advance second.advance) : Parts first second

/-- Streams that part stay apart, whatever both of them spell. -/
theorem Parts.staysRelated : Spelling.StaysRelated Parts := by
  intro first second parts
  cases parts with
  | here runsOn runsOn' different => exact .inr ⟨runsOn, runsOn', different⟩
  | later same following => exact .inl ⟨same, following⟩

/-- Where streams part there is a token. -/
theorem Parts.inside {first second : TokenStream} (parts : Parts first second) :
    first.front.lexeme ≠ .endOfSource := by
  induction parts with
  | here runsOn =>
      intro atEnd
      rw [atEnd] at runsOn
      cases runsOn
  | later _ _ step =>
      intro atEnd
      apply step
      rw [front_lexeme_eq_end_iff] at atEnd ⊢
      rw [ahead_advance, atEnd]
      rfl

end TokenStream

namespace Piece

/-- In front of the text, every token of the pieces stops where its own text does, or it is a word
or a number that is read on. -/
def Joined (behind : List Char) : List Piece → Prop
  | [] => True
  | token lexeme :: rest =>
      (lexeme.StopsBefore (characters rest ++ behind) ∨
        lexeme.RunsInto (characters rest ++ behind)) ∧ Joined behind rest
  | blank text :: rest =>
      (∀ character ∈ text.toList, Text.isBlank character = true) ∧ Joined behind rest

section

variable {style : Style} {good : Lexeme → Prop} {behind behind' : List Char} {pieces : List Piece}

/-- Pieces that are kept apart by a layout are joined rightly. -/
theorem Kept.joined (legible : Lexeme.AreLegible good) (blank : style.IndentsByBlanks)
    (kept : Kept style good behind pieces) : Joined behind pieces := by
  induction pieces with
  | nil => exact trivial
  | cons piece pieces step =>
      cases piece with
      | blank text => exact ⟨kept.1.allBlank blank, step kept.2⟩
      | token lexeme =>
          obtain ⟨stops | ⟨_, isGood, _, isSign⟩, keptRest⟩ := kept
          · exact ⟨.inl stops, step keptRest⟩
          · refine ⟨(legible lexeme isGood).joined fun _ mark next isNext => ?_, step keptRest⟩
            apply Lexeme.clashes_eq_false
            all_goals
              rintro rfl
              rw [Option.mem_def.mp isNext] at isSign
              rcases isSign with isSign | isSign <;> cases isSign

/-- Joined pieces are joined if the first ones are, in front of the second ones. -/
theorem joined_append {first second : List Piece}
    (joinedFirst : Joined (characters second ++ behind) first)
    (joinedSecond : Joined behind second) : Joined behind (first ++ second) := by
  induction first with
  | nil => exact joinedSecond
  | cons piece first step =>
      cases piece with
      | token lexeme =>
          refine ⟨?_, step joinedFirst.2⟩
          show _ ∨ _
          rw [List.append_eq, characters_append, List.append_assoc]
          exact joinedFirst.1
      | blank text => exact ⟨joinedFirst.1, step joinedFirst.2⟩

/-- What stands behind the pieces matters to the last of their marks only. -/
theorem Joined.moved (joined : Joined behind pieces)
    (legible : ∀ lexeme, token lexeme ∈ pieces → lexeme.IsLegible)
    (clear : ∀ mark, ∀ next ∈ behind'.head?, Lexeme.clashes next mark = false) :
    Joined behind' pieces := by
  induction pieces with
  | nil => exact trivial
  | cons piece pieces step =>
      have following := fun joined =>
        step joined fun lexeme inside => legible lexeme (List.mem_cons_of_mem _ inside)
      cases piece with
      | blank text => exact ⟨joined.1, following joined.2⟩
      | token lexeme =>
          have isLegible := legible lexeme List.mem_cons_self
          refine ⟨?_, following joined.2⟩
          cases shape : characters pieces with
          | nil => exact isLegible.joined fun _ => clear
          | cons next rest =>
              rcases joined.1 with stops | ⟨runsOn, _⟩
              · rw [shape] at stops
                exact .inl (Scan.front_token_moved stops fun _ isNext => isNext)
              · apply isLegible.joined
                intro notRuns
                rw [runsOn] at notRuns
                cases notRuns

end

/-- Nothing stricter is asked for than that the tokens are on the line that has been begun. -/
theorem ofPieces_of_true {sameLine : Bool} {pieces : List Piece} {before after : TokenStream}
    (spelled : Spelling.ofPieces true pieces before after) :
    Spelling.ofPieces sameLine pieces before after := by
  cases sameLine with
  | true => exact spelled
  | false => exact Spelling.ofPieces_false spelled

/-- A stream of the tokens of the pieces on one line. -/
theorem exists_ofPieces (pieces : List Piece) (inside : .endOfSource ∉ lexemes pieces) :
    ∃ stream rest, Spelling.ofPieces true pieces stream rest ∧
      rest.front.lexeme = .endOfSource := by
  induction pieces with
  | nil => exact ⟨⟨[], ⟨.endOfSource, .null, false⟩, by simp, rfl⟩, _, rfl, rfl⟩
  | cons piece pieces step =>
      cases piece with
      | token lexeme =>
          rw [lexemes_token, List.mem_cons, not_or] at inside
          obtain ⟨following, rest, spelled, atEnd⟩ := step inside.2
          exact ⟨following.push ⟨lexeme, .null, false⟩ (Ne.symm inside.1), rest,
            ⟨rfl, fun _ => rfl, spelled⟩, atEnd⟩
      | blank text =>
          obtain ⟨stream, rest, spelled, atEnd⟩ := step inside
          refine ⟨stream, rest, ?_, atEnd⟩
          rw [Spelling.ofPieces]
          exact ofPieces_of_true spelled

/-- Joined pieces do not hold the end of the source. -/
theorem Joined.inside {behind : List Char} {pieces : List Piece} (joined : Joined behind pieces) :
    .endOfSource ∉ lexemes pieces := by
  induction pieces with
  | nil => exact List.not_mem_nil
  | cons piece pieces step =>
      cases piece with
      | blank text => exact step joined.2
      | token lexeme =>
          rw [lexemes_token, List.mem_cons, not_or]
          refine ⟨?_, step joined.2⟩
          rintro rfl
          rcases joined.1 with stops | ⟨runsOn, _⟩
          · exact Scan.front_token_lexeme stops rfl
          · cases runsOn

end Piece

namespace Scan

variable {source read rest : List Char} {offset : Nat} {afterLineBreak : Bool}

/-- If a text is scanned, so is what stands behind its first token. -/
theorem stream_ok_of_token {lexeme : Lexeme} {stream : TokenStream}
    (found : front source = .token lexeme read rest)
    (scanned : Scan.stream source offset afterLineBreak = .ok stream) :
    stream.front.lexeme = lexeme ∧
      Scan.stream rest (offset + Text.byteCount read) false = .ok stream.advance := by
  obtain ⟨following, _, scannedRest, rfl⟩ := exists_push_of_stream found scanned
  exact ⟨rfl, scannedRest⟩

/-- Where a word or a number is read on, other tokens are read than those of the pieces. -/
theorem parts_of_joined {pieces : List Piece} (joined : Piece.Joined [] pieces)
    (notSpaced : ¬ Piece.Spaced [] pieces) {stream : TokenStream}
    (scanned : Scan.stream (Piece.characters pieces) offset afterLineBreak = .ok stream) :
    ∃ other rest, Spelling.ofPieces true pieces other rest ∧ rest.front.lexeme = .endOfSource ∧
      stream.Parts other := by
  induction pieces generalizing offset afterLineBreak stream with
  | nil => exact absurd trivial notSpaced
  | cons piece pieces step =>
      cases piece with
      | token lexeme =>
          have inside := joined.inside
          obtain ⟨stops | ⟨runsOn, longer, read, behind, found, runsOn', different⟩, joinedRest⟩ :=
            joined
          -- The token is read as itself, so the first difference is further on.
          · have spacedNot : ¬ Piece.Spaced [] pieces := fun spaced => notSpaced ⟨stops, spaced⟩
            rw [List.append_nil] at stops
            obtain ⟨isFront, scannedRest⟩ := stream_ok_of_token stops scanned
            obtain ⟨other, last, spelled, atEnd, parts⟩ := step joinedRest spacedNot scannedRest
            rw [Piece.lexemes_token, List.mem_cons, not_or] at inside
            exact ⟨other.push ⟨lexeme, .null, false⟩ (Ne.symm inside.1), last,
              ⟨rfl, fun _ => rfl, spelled⟩, atEnd, .later isFront parts⟩
          -- The token runs on, so the streams part here.
          · obtain ⟨other, last, spelled, atEnd⟩ := Piece.exists_ofPieces _ inside
            rw [List.append_nil] at found
            obtain ⟨isFront, _⟩ := stream_ok_of_token found scanned
            have isOther : other.front.lexeme = lexeme := spelled.1
            refine ⟨other, last, spelled, atEnd, .here ?_ ?_ ?_⟩
            · rwa [isFront]
            · rwa [isOther]
            · rwa [isFront, isOther]
      | blank text =>
          obtain ⟨offset', passed⟩ := stream_of_blanks (Piece.characters pieces) offset
            afterLineBreak joined.1
          rw [Piece.characters_cons, Piece.text, passed] at scanned
          have spacedNot : ¬ Piece.Spaced [] pieces := fun spaced => notSpaced ⟨joined.1, spaced⟩
          obtain ⟨other, last, spelled, atEnd, parts⟩ := step joined.2 spacedNot scanned
          refine ⟨other, last, ?_, atEnd, parts⟩
          rw [Spelling.ofPieces]
          exact Piece.ofPieces_of_true spelled

end Scan

namespace Piece.Pair

variable {style : Style} {pair : Pair} {exposed : Prop → Spelling → Prop}

/-- Text that does not end every expression starts with what no mark is read on with. -/
theorem clashes_of_not_endsAll {behind : List Char} (notEnds : ¬ style.EndsAll behind)
    (mark : Punctuator) : ∀ next ∈ behind.head?, Lexeme.clashes next mark = false := by
  intro next isNext
  apply Lexeme.clashes_eq_false
  all_goals
    rintro rfl
    apply notEnds
    have isHead := Option.mem_def.mp isNext
    refine ⟨?_, ?_, ?_⟩
    · intro other isOther
      rw [Option.mem_def, isHead] at isOther
      cases isOther
      decide
    · simp [isHead]
    · simp [isHead]

/-- Tokens meet where the parentheses have been: in front of the expression and behind it. -/
theorem Fits.joined {good : Lexeme → Prop} (legible : Lexeme.AreLegible good)
    (blank : style.IndentsByBlanks) (fits : pair.Fits good style exposed)
    (kept : Kept style good [] pair.whole) : Joined [] pair.thinned := by
  obtain ⟨depth, expression, written, isInner⟩ := fits.inner
  have opens := expression.openExpression_pieces style depth legible.tellsNames written
  rw [whole, kept_append_iff, kept_append_iff, isInner] at kept
  obtain ⟨keptBefore, keptEnclosed, keptAfter⟩ := kept
  have keptInner := (kept_append_iff.mp keptEnclosed.2).1
  rw [thinned, isInner]
  refine joined_append ?_ (joined_append ?_ (keptAfter.joined legible blank))
  · apply (keptBefore.joined legible blank).moved (keptBefore.isLegible legible)
    rw [characters_append, List.append_assoc]
    exact opens.clashes_eq_false legible _
  · by_cases ends : style.EndsAll (characters pair.after ++ [])
    · exact (kept_expression legible depth expression written _
        (ends.endsBefore expression)).joined legible blank
    · exact (keptInner.joined legible blank).moved (keptInner.isLegible legible)
        (clashes_of_not_endsAll ends)

end Piece.Pair

namespace Scan

/-- A decimal point behind a decimal number is read with it. -/
theorem splitDecimal_point {source : List Char}
    (bare : ∀ character ∈ (splitDecimal source).1, isNumberMark character = false) :
    (splitDecimal source).2.head? ≠ some '.' := by
  unfold splitDecimal at bare ⊢
  dsimp only at bare ⊢
  generalize (splitWhile Char.isDigit source).2 = fractional at bare ⊢
  have noFraction : splitFraction fractional = ([], fractional) := by
    unfold splitFraction at bare ⊢
    split
    · exact absurd (bare '.' (by simp)) (by decide)
    · rfl
  have noPoint : fractional.head? ≠ some '.' := by
    intro isPoint
    obtain ⟨rest, rfl⟩ := List.head?_eq_some_iff.mp isPoint
    cases noFraction
  have noExponent : splitExponent fractional = ([], fractional) := by
    rw [noFraction] at bare
    unfold splitExponent at bare ⊢
    split
    · rfl
    · rename_i letter rest
      rw [ite_eq_right_iff]
      intro isLetter
      have notMark := bare letter (by simp [isLetter])
      rcases Bool.or_eq_true_iff.mp isLetter with same | same <;>
        · rw [beq_iff_eq.mp same] at notMark
          cases notMark
  rwa [noFraction, noExponent]

/-- A bare integer does not end at a dot. -/
theorem splitNumber_point {source : List Char}
    (bare : ∀ character ∈ (splitNumber source).1, isNumberMark character = false) :
    (splitNumber source).2.head? ≠ some '.' := by
  by_cases isHex : startsHex source = true
  · obtain ⟨letter, rest, isRead, isLetter⟩ := startsHex_iff.mp (startsHex_splitNumber isHex)
    have notMark := bare letter (by simp [isRead])
    rcases isLetter with rfl | rfl <;> cases notMark
  · rw [splitNumber_of_not_startsHex (Bool.of_not_eq_true isHex)] at bare ⊢
    exact splitDecimal_point bare

end Scan

/-- A bare integer is read on at a dot. -/
theorem Lexeme.not_stopsBefore_dot {digits : String} {span : Span} {rest : List Char}
    (isBare : (Expression.number digits span).isBareInteger = true) :
    ¬ (number digits).StopsBefore ('.' :: rest) := by
  intro stops
  have bare : ∀ character ∈ digits.toList, Scan.isNumberMark character = false := by
    simpa [Expression.isBareInteger, Scan.isNumberMark] using isBare
  obtain ⟨_, _, _, _, split⟩ := stops.splitNumber
  have notPoint := @Scan.splitNumber_point (digits.toList ++ '.' :: rest)
  rw [split] at notPoint
  exact notPoint bare rfl

namespace Piece.Pair

/-- A number that is glued to a dot is not spaced. -/
theorem Glued.not_spaced {pair : Pair} (glued : pair.Glued) : ¬ Spaced [] pair.thinned := by
  intro spaced
  obtain ⟨digits, span, isNumber, isBare, isDot⟩ := glued
  obtain ⟨after, isAfter⟩ := List.head?_eq_some_iff.mp isDot
  rw [thinned, isNumber, isAfter] at spaced
  exact Lexeme.not_stopsBefore_dot isBare (spaced_append_iff.mp spaced).2.1

end Piece.Pair

end ScriptStrip
