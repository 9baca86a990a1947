import ScriptStrip.Proofs.Legible
import ScriptStrip.Proofs.SpellingLaws
import ScriptStrip.Tree.Piece
/-
This file scans printed text. Where blanks keep the printed tokens apart, the tokens of the text
are the printed ones.
-/

namespace ScriptStrip

namespace Scan

variable {source read rest : List Char} {offset : Nat} {afterLineBreak : Bool}

/-- An empty text gives the end of the source alone. -/
theorem stream_nil : stream [] offset afterLineBreak =
    .ok ⟨[], ⟨.endOfSource, .ofOffsets offset offset, afterLineBreak⟩, by simp, rfl⟩ := by
  rw [stream]
  split
  · rfl
  all_goals
    rename_i found
    cases found

/-- A gap is passed over, and its line break is remembered for the next token. -/
theorem stream_of_gap {breaksLine : Bool} (found : front source = .gap read breaksLine rest) :
    stream source offset afterLineBreak =
      stream rest (offset + Text.byteCount read) (afterLineBreak || breaksLine) := by
  rw [stream]
  split
  · simp_all
  · rename_i found'
    rw [found] at found'
    cases found'
    rfl
  · simp_all
  · simp_all

/-- A token is put in front of the tokens behind it. -/
theorem stream_of_token {lexeme : Lexeme} {following : TokenStream}
    (found : front source = .token lexeme read rest)
    (scanned : stream rest (offset + Text.byteCount read) false = .ok following) :
    stream source offset afterLineBreak = .ok (following.push
      ⟨lexeme, .ofOffsets offset (offset + Text.byteCount read), afterLineBreak⟩
      (front_token_lexeme found)) := by
  rw [stream]
  split
  · simp_all
  · simp_all
  · rename_i found'
    have same := found.symm.trans found'
    injection same with sameLexeme sameRead sameRest
    subst sameLexeme sameRead sameRest
    dsimp only
    rw [scanned]
  · simp_all

/-- A blank is a gap of one character. -/
theorem front_of_isBlank {character : Char} (isBlank : Text.isBlank character = true) :
    front (character :: rest) = .gap [character] (Text.isLineBreak character) rest := by
  unfold front
  split
  · simp_all
  · rename_i same
    cases same
    cases isBlank
  · rename_i same
    cases same
    cases isBlank
  · rename_i same
    cases same
    rw [if_pos isBlank]

/-- Blanks are passed over, and the line breaks among them are remembered. -/
theorem stream_of_blanks {blanks : List Char} (rest : List Char) (offset : Nat)
    (afterLineBreak : Bool) (allBlank : ∀ character ∈ blanks,
      Text.isBlank character = true) :
    ∃ offset', stream (blanks ++ rest) offset afterLineBreak =
      stream rest offset' (afterLineBreak || blanks.any Text.isLineBreak) := by
  induction blanks generalizing offset afterLineBreak with
  | nil => exact ⟨offset, by simp⟩
  | cons first blanks inductionHypothesis =>
      rw [List.forall_mem_cons] at allBlank
      obtain ⟨offset', same⟩ := inductionHypothesis (offset + Text.byteCount [first])
        (afterLineBreak || Text.isLineBreak first) allBlank.2
      refine ⟨offset', ?_⟩
      rw [List.cons_append, stream_of_gap (front_of_isBlank allBlank.1), same, List.any_cons,
        Bool.or_assoc]

end Scan

namespace Piece

/-- The characters that the pieces are rendered to. -/
def characters (pieces : List Piece) : List Char := pieces.flatMap fun piece => piece.text.toList

@[simp] theorem characters_nil : characters [] = [] := rfl

@[simp] theorem characters_cons (first : Piece) (rest : List Piece) :
    characters (first :: rest) = first.text.toList ++ characters rest := rfl

/-- The characters of joined pieces are those of both. -/
@[simp] theorem characters_append (first second : List Piece) :
    characters (first ++ second) = characters first ++ characters second :=
  List.flatMap_append

/-- The printed text has the characters of its pieces. -/
theorem toList_render (pieces : List Piece) : (render pieces).toList = characters pieces := by
  rw [render, String.toList_join, List.flatMap_map]
  rfl

/-- In front of the text, every token of the pieces stops where its own text does. -/
def Spaced (behind : List Char) : List Piece → Prop
  | [] => True
  | token lexeme :: rest => lexeme.StopsBefore (characters rest ++ behind) ∧ Spaced behind rest
  | blank text :: rest =>
      (∀ character ∈ text.toList, Text.isBlank character = true) ∧ Spaced behind rest

@[simp] theorem spaced_nil (behind : List Char) : Spaced behind [] := trivial

/-- A token is spaced if it stops before what is printed behind it. -/
@[simp] theorem spaced_token_iff {behind : List Char} {lexeme : Lexeme} {rest : List Piece} :
    Spaced behind (token lexeme :: rest) ↔
      lexeme.StopsBefore (characters rest ++ behind) ∧ Spaced behind rest := Iff.rfl

/-- A blank is spaced if the scanner passes it over. -/
@[simp] theorem spaced_blank_iff {behind : List Char} {text : String} {rest : List Piece} :
    Spaced behind (blank text :: rest) ↔
      (∀ character ∈ text.toList, Text.isBlank character = true) ∧ Spaced behind rest := Iff.rfl

/-- Joined pieces are spaced if the first ones are, in front of the second ones. -/
theorem spaced_append_iff {behind : List Char} {first second : List Piece} :
    Spaced behind (first ++ second) ↔
      Spaced (characters second ++ behind) first ∧ Spaced behind second := by
  induction first with
  | nil => simp
  | cons piece first inductionHypothesis =>
      cases piece <;> simp [inductionHypothesis, and_assoc]

end Piece

/-- The tokens of the pieces, the first of which may have to be on the line that has been begun. -/
def Spelling.ofPieces (sameLine : Bool) : List Piece → Spelling
  | [] => nothing
  | .token lexeme :: rest => fun before after =>
      before.front.lexeme = lexeme ∧
        (sameLine = true → before.front.afterLineBreak = false) ∧
        ofPieces true rest before.advance after
  | .blank text :: rest => ofPieces (sameLine && !text.toList.any Text.isLineBreak) rest

/-- Spaced pieces do not hold the end of the source. -/
theorem Piece.Spaced.inside {behind : List Char} {pieces : List Piece}
    (spaced : Spaced behind pieces) : .endOfSource ∉ lexemes pieces := by
  induction pieces with
  | nil => exact List.not_mem_nil
  | cons piece pieces inductionHypothesis =>
      cases piece with
      | token lexeme =>
          rw [lexemes_token, List.mem_cons, not_or]
          exact ⟨(Scan.front_token_lexeme spaced.1).symm, inductionHypothesis spaced.2⟩
      | blank text => exact inductionHypothesis spaced.2

/-- The stream says what the pieces say. -/
theorem Spelling.lexemes_ofPieces_of_inside {sameLine : Bool} {pieces : List Piece}
    {before after : TokenStream} (inside : .endOfSource ∉ Piece.lexemes pieces)
    (spelled : ofPieces sameLine pieces before after) (atEnd : after.front.lexeme = .endOfSource) :
    before.ahead.map Token.lexeme = Piece.lexemes pieces := by
  induction pieces generalizing sameLine before with
  | nil =>
      obtain rfl : after = before := spelled
      rw [(TokenStream.front_lexeme_eq_end_iff after).mp atEnd]
      rfl
  | cons piece pieces inductionHypothesis =>
      cases piece with
      | token lexeme =>
          rw [Piece.lexemes_token, List.mem_cons, not_or] at inside
          obtain ⟨rfl, _, spelledRest⟩ := spelled
          rw [TokenStream.ahead_eq_cons (Ne.symm inside.1), List.map_cons, Piece.lexemes_token,
            inductionHypothesis inside.2 spelledRest]
      | blank text => exact inductionHypothesis inside spelled

/-- A stream that spells spaced pieces has just their tokens. -/
theorem Spelling.lexemes_ofPieces {sameLine : Bool} {pieces : List Piece} {behind : List Char}
    {before after : TokenStream} (spaced : Piece.Spaced behind pieces)
    (spelled : ofPieces sameLine pieces before after) (atEnd : after.front.lexeme = .endOfSource) :
    before.ahead.map Token.lexeme = Piece.lexemes pieces :=
  lexemes_ofPieces_of_inside spaced.inside spelled atEnd

/-- The tokens of well-spaced pieces are read from their characters. -/
theorem Scan.stream_of_spaced {pieces : List Piece} (spaced : Piece.Spaced [] pieces)
    (offset : Nat) (afterLineBreak : Bool) :
    ∃ stream rest, Scan.stream (Piece.characters pieces) offset afterLineBreak = .ok stream ∧
      Spelling.ofPieces (!afterLineBreak) pieces stream rest ∧
      rest.front.lexeme = .endOfSource := by
  induction pieces generalizing offset afterLineBreak with
  | nil =>
      exact ⟨_, _, stream_nil, rfl, rfl⟩
  | cons piece pieces inductionHypothesis =>
      cases piece with
      | token lexeme =>
          obtain ⟨stops, spacedRest⟩ := spaced
          rw [List.append_nil] at stops
          obtain ⟨following, rest, scanned, spelled, atEnd⟩ :=
            inductionHypothesis spacedRest (offset + Text.byteCount lexeme.text.toList) false
          refine ⟨_, rest, stream_of_token stops scanned, ⟨rfl, ?_, spelled⟩, atEnd⟩
          simp [TokenStream.front, TokenStream.push]
      | blank text =>
          obtain ⟨allBlank, spacedRest⟩ := spaced
          obtain ⟨offset', passed⟩ := stream_of_blanks (Piece.characters pieces) offset
            afterLineBreak allBlank
          obtain ⟨stream, rest, scanned, spelled, atEnd⟩ := inductionHypothesis spacedRest offset'
            (afterLineBreak || text.toList.any Text.isLineBreak)
          refine ⟨stream, rest, ?_, ?_, atEnd⟩
          · rw [Piece.characters_cons, Piece.text, passed, scanned]
          · rw [Bool.not_or] at spelled
            exact spelled

end ScriptStrip
