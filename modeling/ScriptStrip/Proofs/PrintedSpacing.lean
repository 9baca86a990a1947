import ScriptStrip.Proofs.PrintedSpelling
/-
This file shows that the printed tokens of a tree are kept apart. What matters about the text
behind an expression is its first character, because no token is told apart from more than that.
-/

namespace ScriptStrip

/-- The lexeme can be read from a text in this layout. A sign follows a number without a blank in
the layout that is not pretty. -/
def Style.CanWrite (style : Style) (lexeme : Lexeme) : Prop :=
  lexeme.IsLegible ∧ (style.pretty = true ∨ lexeme.endsInExponentLetter = false)

/-- Good tokens are read back from their own text. -/
def Lexeme.AreLegible (good : Lexeme → Prop) : Prop := ∀ lexeme, good lexeme → lexeme.IsLegible

/-- Legible names are told apart from keywords. -/
theorem Lexeme.AreLegible.tellsNames {good : Lexeme → Prop} (legible : AreLegible good) :
    TellsNames good :=
  fun _ isGood => (ofWord_of_isLegible (legible _ isGood)).2

/-- What a style can write is legible. -/
theorem Style.areLegible_canWrite (style : Style) : Lexeme.AreLegible style.CanWrite :=
  fun _ canWrite => canWrite.1

/-- A style can write names that are no keywords. -/
theorem Style.tellsNames_canWrite (style : Style) : Lexeme.TellsNames style.CanWrite :=
  style.areLegible_canWrite.tellsNames

/-- Lines are indented by blanks only. -/
def Style.IndentsByBlanks (style : Style) : Prop :=
  ∀ character ∈ style.indent.toList, Text.isBlank character = true

/-- The standard style indents by tabs. -/
theorem Style.indentsByBlanks_standard : standard.IndentsByBlanks := by
  intro character inside
  obtain rfl := List.mem_singleton.mp inside
  decide

/-- The minified style does not indent. -/
theorem Style.indentsByBlanks_minified : minified.IndentsByBlanks := by
  intro character inside
  cases inside

/-- Every expression ends in front of the text. -/
def Style.EndsAll (style : Style) (behind : List Char) : Prop :=
  Scan.EndsWord behind ∧ behind.head? ≠ some '.' ∧
    (behind.head? = some '+' ∨ behind.head? = some '-' → style.pretty = false)

/-- The expression ends in front of the text, in which it may be followed by a dot. -/
def Expression.EndsBefore (style : Style) (behind : List Char) (expression : Expression) : Prop :=
  Scan.EndsWord behind ∧
    (behind.head? = some '.' → expression.isBareInteger = false ∧
      .member ≤ expression.precedence) ∧
    (behind.head? = some '+' ∨ behind.head? = some '-' → style.pretty = false)

section

variable {style : Style} {behind : List Char}

/-- Where all expressions end, each of them does. -/
theorem Style.EndsAll.endsBefore (ends : style.EndsAll behind) (expression : Expression) :
    expression.EndsBefore style behind :=
  ⟨ends.1, fun isPoint => absurd isPoint ends.2.1, ends.2.2⟩

/-- Where a looser expression than a call ends, all of them do. -/
theorem Expression.EndsBefore.endsAll {expression : Expression}
    (ends : expression.EndsBefore style behind) (loose : expression.precedence < .member) :
    style.EndsAll behind :=
  ⟨ends.1, fun isPoint => absurd loose (Nat.not_lt.mpr (ends.2.1 isPoint).2), ends.2.2⟩

/-- All expressions end at the end of the text. -/
theorem Style.endsAll_nil (style : Style) : style.EndsAll [] :=
  ⟨by simp [Scan.EndsWord], by simp, by simp⟩

/-- All expressions end before a space. -/
theorem Style.endsAll_space (style : Style) (behind : List Char) :
    style.EndsAll (' ' :: behind) := by
  refine ⟨?_, ?_, ?_⟩
  · rintro next ⟨⟩
    decide
  · simp
  · simp

/-- A mark starts with no character of a name, and few of them could continue a number. -/
theorem Punctuator.text_cases (mark : Punctuator) :
    ∃ first rest, mark.text.toList = first :: rest ∧ Text.isIdentifierPart first = false ∧
      (first = '.' → mark = .dot) ∧ (first = '+' ∨ first = '-' → mark = .plus ∨ mark = .minus) := by
  cases mark <;> exact ⟨_, _, rfl, by decide, by decide, by decide⟩

/-- A mark ends every expression, unless it is a dot or a sign that is not kept apart. -/
theorem Style.endsAll_operator (style : Style) {mark : Punctuator} (notDot : mark ≠ .dot)
    (notSign : mark = .plus ∨ mark = .minus → style.pretty = false) (behind : List Char) :
    style.EndsAll (mark.text.toList ++ behind) := by
  obtain ⟨first, rest, isText, notPart, isDot, isSign⟩ := mark.text_cases
  rw [isText, List.cons_append]
  refine ⟨?_, ?_, ?_⟩
  · rintro next ⟨⟩
    exact notPart
  · intro isFirst
    exact notDot (isDot (Option.some.inj isFirst))
  · intro isFirst
    apply notSign
    apply isSign
    simpa using isFirst

/-- All expressions end before a mark other than the dot and the signs. -/
theorem Style.endsAll_mark (style : Style) {mark : Punctuator}
    (plain : mark ∉ [.dot, .plus, .minus]) (behind : List Char) :
    style.EndsAll (mark.text.toList ++ behind) := by
  simp only [List.mem_cons, List.not_mem_nil, or_false, not_or] at plain
  apply style.endsAll_operator plain.1
  rintro (isPlus | isMinus)
  · exact absurd isPlus plain.2.1
  · exact absurd isMinus plain.2.2

/-- The blank before an operator keeps even a sign apart. -/
theorem Style.endsAll_gap (style : Style) {mark : Punctuator} (notDot : mark ≠ .dot)
    (rest : List Piece) (behind : List Char) :
    style.EndsAll (Piece.characters (style.gap ++ .ofMark mark :: rest) ++ behind) := by
  unfold Style.gap
  split
  · exact style.endsAll_space _
  · rename_i notPretty
    rw [List.nil_append, Piece.characters_cons, List.append_assoc]
    exact style.endsAll_operator notDot (fun _ => Bool.of_not_eq_true notPretty) _

/-- All expressions end before such a mark and whatever follows it. -/
theorem Style.endsAll_cons (style : Style) {mark : Punctuator}
    (plain : mark ∉ [.dot, .plus, .minus]) (rest : List Piece) (behind : List Char) :
    style.EndsAll (Piece.characters (.ofMark mark :: rest) ++ behind) := by
  rw [Piece.characters_cons, List.append_assoc]
  exact style.endsAll_mark plain _

/-- All expressions end before something enclosed by such a mark. -/
theorem Style.endsAll_enclosed (style : Style) {opening : Punctuator}
    (plain : opening ∉ [.dot, .plus, .minus]) (closing : Punctuator) (inner : List Piece)
    (behind : List Char) :
    style.EndsAll (Piece.characters (Piece.enclosed opening closing inner) ++ behind) :=
  style.endsAll_cons plain _ behind

/-- All expressions end before a list. -/
theorem Style.endsAll_listed (style : Style) {opening : Punctuator}
    (plain : opening ∉ [.dot, .plus, .minus]) (closing : Punctuator) (items : List (List Piece))
    (rest : List Piece) (behind : List Char) :
    style.EndsAll (Piece.characters (style.listed opening closing items ++ rest) ++ behind) := by
  rw [Piece.characters_append, List.append_assoc]
  exact style.endsAll_enclosed plain closing _ _

/-- All expressions end before a semicolon. -/
theorem Style.endsAll_terminator (style : Style) {statement : Statement}
    (needs : statement.needsSemicolon = true) (behind : List Char) :
    style.EndsAll (Piece.characters statement.terminator ++ behind) := by
  rw [Statement.terminator, if_pos needs]
  exact style.endsAll_cons (by decide) [] behind

/-- A dot may stand behind what it is no decimal point for. -/
theorem Expression.endsBefore_dot {expression : Expression}
    (notGrouped : (expression.isBareInteger ||
      decide (expression.precedence < Precedence.member)) = false) (behind : List Char) :
    expression.EndsBefore style ('.' :: behind) := by
  rw [Bool.or_eq_false_iff, decide_eq_false_iff_not, Nat.not_lt] at notGrouped
  refine ⟨?_, fun _ => notGrouped, ?_⟩
  · rintro next ⟨⟩
    decide
  · rintro (isSign | isSign) <;> cases isSign

end

namespace Lexeme

/-- Few characters clash with a mark in front of them. -/
theorem clashes_eq_false {next : Char} (notEqual : next ≠ '=') (notDivide : next ≠ '/')
    (notTimes : next ≠ '*') (mark : Punctuator) : clashes next mark = false := by
  cases mark <;> simp [clashes, notEqual, notDivide, notTimes]

/-- Every keyword is read back from its own text. -/
theorem isLegible_keyword (word : Keyword) : (keyword word).IsLegible :=
  ⟨[], stopsBefore_keyword fun _ isNext => nomatch isNext⟩

/-- A mark reads on at no other token. -/
theorem clashes_text_of_isLegible {lexeme : Lexeme} (legible : lexeme.IsLegible)
    (notMark : ∀ mark, lexeme ≠ .punctuator mark) :
    ∃ first rest, lexeme.text.toList = first :: rest ∧ ∀ mark, clashes first mark = false := by
  obtain ⟨behind, stops⟩ := legible
  have nonempty := (Scan.front_token_append stops).2
  obtain ⟨first, rest, isText⟩ := List.exists_cons_of_ne_nil nonempty
  refine ⟨first, rest, isText, ?_⟩
  rcases Scan.front_token_cases stops with ⟨quote, content, _, isQuoted, _⟩ |
    ⟨digit, others, source, isDigit, _⟩ | ⟨letter, others, source, starts, _⟩ | ⟨mark, isMark, _⟩
  · rw [isText, List.cons_append] at isQuoted
    obtain ⟨rfl, _⟩ := List.cons.inj isQuoted
    cases quote <;> exact clashes_eq_false (by decide) (by decide) (by decide)
  · rw [isText, List.cons_append] at source
    obtain ⟨rfl, _⟩ := List.cons.inj source
    apply clashes_eq_false
    all_goals
      rintro rfl
      cases isDigit
  · rw [isText, List.cons_append] at source
    obtain ⟨rfl, _⟩ := List.cons.inj source
    apply clashes_eq_false
    all_goals
      rintro rfl
      exact absurd starts (by decide)
  · exact absurd isMark (notMark mark)

/-- A sign is the first character of no other token. -/
theorem IsLegible.eq_sign {lexeme : Lexeme} {behind : List Char} (legible : lexeme.IsLegible)
    (isSign : (lexeme.text.toList ++ behind).head? = some '+' ∨
      (lexeme.text.toList ++ behind).head? = some '-') :
    lexeme = .punctuator .plus ∨ lexeme = .punctuator .minus := by
  obtain ⟨before, stops⟩ := legible
  obtain ⟨first, rest, isText⟩ := List.exists_cons_of_ne_nil (Scan.front_token_append stops).2
  rw [isText, List.cons_append, List.head?_cons, Option.some.injEq, Option.some.injEq] at isSign
  rcases Scan.front_token_cases stops with ⟨quote, content, rfl, isQuoted, _⟩ |
    ⟨digit, others, source, isDigit, _⟩ | ⟨letter, others, source, starts, _⟩ | ⟨mark, rfl, _⟩
  · rw [isText, List.cons_append] at isQuoted
    obtain ⟨rfl, _⟩ := List.cons.inj isQuoted
    rcases isSign with isSign | isSign <;> cases quote <;> cases isSign
  · rw [isText, List.cons_append] at source
    obtain ⟨rfl, _⟩ := List.cons.inj source
    rcases isSign with rfl | rfl <;> cases isDigit
  · rw [isText, List.cons_append] at source
    obtain ⟨rfl, _⟩ := List.cons.inj source
    rcases isSign with rfl | rfl <;> cases starts
  · obtain ⟨first', rest', isMarkText, _, _, isMark⟩ := mark.text_cases
    have sameText := isText.symm.trans isMarkText
    obtain ⟨rfl, _⟩ := List.cons.inj sameText
    exact (isMark isSign).imp (congrArg punctuator) (congrArg punctuator)

/-- What opens an expression starts with a character that clashes with few marks. -/
theorem OpensExpression.clashes_text {good : Lexeme → Prop} {lexeme : Lexeme}
    (legible : Lexeme.AreLegible good) (opens : lexeme.OpensExpression good) :
    ∃ first rest, lexeme.text.toList = first :: rest ∧ ∀ mark, clashes first mark = false := by
  cases lexeme with
  | punctuator mark =>
      simp only [OpensExpression, List.mem_cons, List.not_mem_nil, or_false] at opens
      rcases opens with rfl | rfl | rfl | rfl | rfl | rfl <;>
        exact ⟨_, [], rfl, clashes_eq_false (by decide) (by decide) (by decide)⟩
  | keyword word =>
      exact clashes_text_of_isLegible (isLegible_keyword word) fun mark => Lexeme.noConfusion
  | identifier name => exact clashes_text_of_isLegible (legible _ opens) (by simp)
  | number digits => exact clashes_text_of_isLegible (legible _ opens) (by simp)
  | string content quote => exact clashes_text_of_isLegible (legible _ opens) (by simp)
  | endOfSource => exact clashes_text_of_isLegible (legible _ opens) (by simp)

end Lexeme

/-- A printed block starts with its brace. -/
theorem Block.pieces_eq_cons (style : Style) (depth : UInt8) (block : Block) :
    ∃ rest, block.pieces style depth = .ofMark .openBrace :: rest := by
  cases block with
  | mk items span =>
      cases items with
      | nil => exact ⟨_, rfl⟩
      | cons first rest =>
          rw [Block.pieces]
          · exact ⟨_, rfl⟩
          · exact List.cons_ne_nil _ _

/-- One of the blanks of the layout. -/
def Style.IsBlank (style : Style) (text : String) : Prop :=
  text = " " ∨ style.pretty = true ∧ (text = "\n" ∨ text = style.indent)

/-- The blanks of a style are blank characters. -/
theorem Style.IsBlank.allBlank {style : Style} {text : String} (isBlank : style.IsBlank text)
    (blank : style.IndentsByBlanks) :
    ∀ character ∈ text.toList, Text.isBlank character = true := by
  rcases isBlank with rfl | ⟨_, rfl | rfl⟩
  · intro character inside
    obtain rfl := List.mem_singleton.mp inside
    decide
  · intro character inside
    obtain rfl := List.mem_singleton.mp inside
    decide
  · exact blank

/-- The token ends in front of the text, or it is a number that has an exponent letter for its end
and a sign behind it. -/
def Style.Keeps (style : Style) (good : Lexeme → Prop) (behind : List Char) (lexeme : Lexeme) :
    Prop :=
  lexeme.StopsBefore behind ∨
    (style.pretty = false ∧ good lexeme ∧ lexeme.endsInExponentLetter = true ∧
      (behind.head? = some '+' ∨ behind.head? = some '-'))

namespace Piece

/-- In front of the text, the layout keeps the tokens of the pieces apart by its blanks. -/
def Kept (style : Style) (good : Lexeme → Prop) (behind : List Char) : List Piece → Prop
  | [] => True
  | token lexeme :: rest =>
      style.Keeps good (characters rest ++ behind) lexeme ∧ Kept style good behind rest
  | blank text :: rest => style.IsBlank text ∧ Kept style good behind rest

section

variable {style : Style} {good : Lexeme → Prop} {behind : List Char} {pieces : List Piece}

/-- Joined pieces are kept if the first ones are, in front of the second ones. -/
theorem kept_append_iff {first second : List Piece} :
    Kept style good behind (first ++ second) ↔
      Kept style good (characters second ++ behind) first ∧ Kept style good behind second := by
  induction first with
  | nil => simp [Kept]
  | cons piece first inductionHypothesis =>
      cases piece <;> simp [Kept, inductionHypothesis, and_assoc]

/-- Every token that is kept is legible. -/
theorem Kept.isLegible (legible : Lexeme.AreLegible good) (kept : Kept style good behind pieces) :
    ∀ lexeme, token lexeme ∈ pieces → lexeme.IsLegible := by
  induction pieces with
  | nil => simp
  | cons piece pieces step =>
      intro lexeme inside
      rcases List.mem_cons.mp inside with rfl | inRest
      · rcases kept.1 with stops | ⟨_, isGood, _⟩
        · exact ⟨_, stops⟩
        · exact legible lexeme isGood
      · cases piece with
        | token first => exact step kept.2 lexeme inRest
        | blank text => exact step kept.2 lexeme inRest

/-- Every blank that is kept is one of the style. -/
theorem Kept.isBlank (kept : Kept style good behind pieces) :
    ∀ text, blank text ∈ pieces → style.IsBlank text := by
  induction pieces with
  | nil => simp
  | cons piece pieces step =>
      intro text inside
      cases piece with
      | token lexeme =>
          exact step kept.2 text ((List.mem_cons.mp inside).resolve_left Piece.noConfusion)
      | blank first =>
          rcases List.mem_cons.mp inside with same | inRest
          · obtain rfl := Piece.blank.inj same
            exact kept.1
          · exact step kept.2 text inRest

/-- A token is kept if it stops before what is printed behind it. -/
theorem kept_token {lexeme : Lexeme} (stops : lexeme.StopsBefore (characters pieces ++ behind))
    (kept : Kept style good behind pieces) : Kept style good behind (token lexeme :: pieces) :=
  ⟨.inl stops, kept⟩

/-- The opening of an expression clashes with no mark in front of it. -/
theorem OpenExpression.clashes_eq_false (legible : Lexeme.AreLegible good)
    (opens : OpenExpression good pieces) (behind : List Char) (mark : Punctuator) :
    ∀ next ∈ (characters pieces ++ behind).head?, Lexeme.clashes next mark = false := by
  obtain ⟨front, rest, rfl, isOpening⟩ := opens
  obtain ⟨first, others, isText, clear⟩ := isOpening.clashes_text legible
  rw [characters_cons, text, isText]
  rintro next ⟨⟩
  exact clear mark

/-- A space is kept in every style. -/
theorem kept_space (kept : Kept style good behind pieces) :
    Kept style good behind (space :: pieces) :=
  ⟨.inl rfl, kept⟩

/-- A space that may be left out is kept. -/
theorem kept_spaceIf (condition : Bool) :
    Kept style good behind (if condition then [space] else []) := by
  cases condition with
  | true => exact kept_space trivial
  | false => exact trivial

/-- The gap of a style is kept. -/
theorem kept_gap : Kept style good behind style.gap := kept_spaceIf style.pretty

/-- The line break of a style is kept. -/
theorem kept_lineBreak : Kept style good behind style.lineBreak := by
  unfold Style.lineBreak
  split
  · rename_i isPretty
    exact ⟨.inr ⟨isPretty, .inl rfl⟩, trivial⟩
  · exact trivial

/-- The indentation of a style is kept. -/
theorem kept_indentation (depth : UInt8) : Kept style good behind (style.indentation depth) := by
  unfold Style.indentation
  split
  · rename_i isPretty
    induction depth.toNat with
    | zero => exact trivial
    | succ levels inductionHypothesis => exact ⟨.inr ⟨isPretty, .inr rfl⟩, inductionHypothesis⟩
  · exact trivial

/-- Most marks are never read on. -/
theorem kept_mark_iff {mark : Punctuator} (apart : ∀ next, Lexeme.clashes next mark = false) :
    Kept style good behind (ofMark mark :: pieces) ↔ Kept style good behind pieces :=
  and_iff_right (.inl (Lexeme.stopsBefore_punctuator fun next _ => apart next))

/-- A keyword and the space behind it are kept. -/
theorem kept_keyword_space {word : Keyword} (kept : Kept style good behind pieces) :
    Kept style good behind (ofKeyword word :: space :: pieces) :=
  kept_token (Lexeme.stopsBefore_keyword (Style.minified.endsAll_space _).1) (kept_space kept)

/-- A semicolon is kept. -/
theorem kept_terminator (statement : Statement) : Kept style good behind statement.terminator := by
  unfold Statement.terminator
  split
  · exact (kept_mark_iff fun _ => rfl).mpr trivial
  · exact trivial

/-- Two marks around kept pieces are kept. -/
theorem kept_enclosed {opening closing : Punctuator}
    (openApart : ∀ next, Lexeme.clashes next opening = false)
    (closeApart : ∀ next, Lexeme.clashes next closing = false)
    (kept : Kept style good (closing.text.toList ++ behind) pieces) :
    Kept style good behind (enclosed opening closing pieces) := by
  rw [enclosed, List.cons_append, kept_mark_iff openApart, kept_append_iff,
    kept_mark_iff closeApart]
  refine ⟨?_, trivial⟩
  rw [characters_cons, characters_nil, List.append_nil]
  exact kept

/-- The expression in parentheses is followed by the closing one. -/
theorem kept_groupedIf {condition : Bool} {expression : Expression}
    (kept : ∀ behind, expression.EndsBefore style behind → Kept style good behind pieces)
    (ends : condition = false → expression.EndsBefore style behind) :
    Kept style good behind (groupedIf condition pieces) := by
  cases condition with
  | true =>
      apply kept_enclosed (fun _ => rfl) (fun _ => rfl)
      exact kept _ ((style.endsAll_mark (by decide) _).endsBefore expression)
  | false => exact kept _ (ends rfl)

/-- Each item is followed by a comma or by what stands behind the last one. -/
theorem kept_separated {items : List (List Piece)}
    (kept : ∀ item ∈ items, ∀ behind, style.EndsAll behind → Kept style good behind item)
    (ends : style.EndsAll behind) : Kept style good behind (style.comma.intercalate items) := by
  induction items with
  | nil => exact trivial
  | cons first rest inductionHypothesis =>
      rw [List.forall_mem_cons] at kept
      cases rest with
      | nil =>
          rw [List.intercalate_singleton]
          exact kept.1 _ ends
      | cons second rest =>
          rw [List.intercalate_cons_cons, List.append_assoc, Style.comma, List.cons_append,
            kept_append_iff, kept_mark_iff fun _ => rfl, kept_append_iff]
          exact ⟨kept.1 _ (style.endsAll_cons (by decide) _ _), kept_gap,
            inductionHypothesis kept.2⟩

/-- Kept lines are kept one below the other. -/
theorem kept_lines {lines : List (List Piece)}
    (kept : ∀ line ∈ lines, ∀ behind, Kept style good behind line) :
    Kept style good behind (style.lineBreak.intercalate lines) := by
  induction lines with
  | nil => exact trivial
  | cons first rest inductionHypothesis =>
      rw [List.forall_mem_cons] at kept
      cases rest with
      | nil =>
          rw [List.intercalate_singleton]
          exact kept.1 behind
      | cons second rest =>
          rw [List.intercalate_cons_cons, List.append_assoc, kept_append_iff, kept_append_iff]
          exact ⟨kept.1 _, kept_lineBreak, inductionHypothesis kept.2⟩

/-- The items of a list are kept if they are before every mark. -/
theorem kept_listed {items : List (List Piece)} {opening closing : Punctuator}
    (kept : ∀ item ∈ items, ∀ behind, style.EndsAll behind → Kept style good behind item)
    (openApart : ∀ next, Lexeme.clashes next opening = false)
    (closeApart : ∀ next, Lexeme.clashes next closing = false)
    (ends : style.EndsAll (closing.text.toList ++ behind)) :
    Kept style good behind (style.listed opening closing items) :=
  kept_enclosed openApart closeApart (kept_separated kept ends)

/-- No mark is read on in front of an operand. -/
theorem OpenExpression.clashes_spaceIf (legible : Lexeme.AreLegible good)
    (opens : OpenExpression good pieces) (condition : Bool) (behind : List Char)
    (mark : Punctuator) :
    ∀ next ∈ (characters ((if condition then [space] else []) ++ pieces) ++ behind).head?,
      Lexeme.clashes next mark = false := by
  cases condition with
  | true =>
      rintro next ⟨⟩
      exact Lexeme.clashes_eq_false (by decide) (by decide) (by decide) mark
  | false => exact opens.clashes_eq_false legible behind mark

/-- An operator ends its left operand and is not read on into the right one. -/
theorem kept_infix (legible : Lexeme.AreLegible good) {left right : List Piece}
    {mark : Punctuator} (notDot : mark ≠ .dot) (condition : Bool)
    (keptLeft : ∀ behind, style.EndsAll behind → Kept style good behind left)
    (opensRight : OpenExpression good right) (keptRight : Kept style good behind right) :
    Kept style good behind (left ++ (style.gap ++
      ofMark mark :: ((if condition then [space] else []) ++ right))) := by
  rw [kept_append_iff, kept_append_iff]
  refine ⟨keptLeft _ (style.endsAll_gap notDot _ _), kept_gap, ?_⟩
  apply kept_token
  · exact Lexeme.stopsBefore_punctuator
      (opensRight.clashes_spaceIf legible condition behind mark)
  · rw [kept_append_iff]
    exact ⟨kept_spaceIf condition, keptRight⟩

/-- An operator that is a word has a blank behind it. -/
theorem kept_prefix (legible : Lexeme.AreLegible good)
    {operator : UnaryOperator} {condition : Bool} {operand : List Piece}
    (isWord : operator.isWord = true → condition = true)
    (opens : OpenExpression good operand) (kept : Kept style good behind operand) :
    Kept style good behind
      (token operator.lexeme :: (if condition then [space] else []) ++ operand) := by
  rw [List.cons_append]
  apply kept_token
  · cases operator with
    | typeOf =>
        rw [isWord rfl]
        exact Lexeme.stopsBefore_keyword (style.endsAll_space _).1
    | void =>
        rw [isWord rfl]
        exact Lexeme.stopsBefore_keyword (style.endsAll_space _).1
    | _ =>
        exact Lexeme.stopsBefore_punctuator (opens.clashes_spaceIf legible condition behind _)
  · rw [kept_append_iff]
    exact ⟨kept_spaceIf condition, kept⟩

/-- A keyword is kept where a word ends. -/
theorem kept_keyword {word : Keyword} (ends : Scan.EndsWord behind) :
    Kept style good behind [ofKeyword word] :=
  kept_token (Lexeme.stopsBefore_keyword ends) trivial

/-- A legible word is kept where a word ends. -/
theorem kept_word {word : String} (isLegible : (Lexeme.ofWord word).IsLegible)
    (ends : Scan.EndsWord behind) : Kept style good behind [token (.ofWord word)] :=
  kept_token (Lexeme.stopsBefore_ofWord (Lexeme.isIdentifier_of_isLegible_ofWord isLegible) ends)
    trivial

/-- A legible name is kept where a word ends. -/
theorem kept_name {name : String} (isLegible : (Lexeme.identifier name).IsLegible)
    (ends : Scan.EndsWord behind) : Kept style good behind [token (.ofWord name)] := by
  rw [← (Lexeme.ofWord_of_isLegible isLegible).2] at isLegible
  exact kept_word isLegible ends

/-- A legible string is kept before anything. -/
theorem kept_string {content : String} {quote : Quote}
    (isLegible : (Lexeme.string content quote).IsLegible) :
    Kept style good behind [token (.string content quote)] :=
  kept_token (Lexeme.stopsBefore_string isLegible) trivial

/-- A sign may follow a number without a blank. -/
theorem kept_number {digits : String} {span : Span}
    (isLegible : (Lexeme.number digits).IsLegible)
    (isGood : (Lexeme.number digits).endsInExponentLetter = true → good (.number digits))
    (ends : (Expression.number digits span).EndsBefore style behind) :
    Kept style good behind [token (.number digits)] := by
  obtain ⟨endsWord, notPoint, notSign⟩ := ends
  refine ⟨?_, trivial⟩
  by_cases merges : (behind.head? = some '+' ∨ behind.head? = some '-') ∧
      (Lexeme.number digits).endsInExponentLetter = true
  · exact .inr ⟨notSign merges.1, isGood merges.2, merges.2, merges.1⟩
  · refine .inl (Lexeme.stopsBefore_number isLegible endsWord ?_ ?_)
    · intro isPoint
      have notBare := (notPoint isPoint).1
      rw [Expression.isBareInteger, Bool.not_eq_false'] at notBare
      exact notBare
    · intro isSign
      exact Bool.eq_false_iff.mpr fun isExponent => merges ⟨isSign, isExponent⟩

/-- A key is kept where expressions end. -/
theorem kept_key (legible : Lexeme.AreLegible good) {key : PropertyKey}
    (formed : key.Formed good) (ends : style.EndsAll behind) :
    Kept style good behind [key.piece] := by
  cases key with
  | identifier name span => exact kept_word (legible _ formed) ends.1
  | string content quote span => exact kept_string (legible _ formed)
  | number digits span =>
      exact kept_number (legible _ formed) (fun _ => formed)
        (ends.endsBefore (.number digits span))

end

section

variable {style : Style} {good : Lexeme → Prop}

mutual

/-- A printed expression is kept where it ends. -/
theorem kept_expression (legible : Lexeme.AreLegible good) (depth : UInt8) (expression : Expression)
    (written : expression.Written good) (behind : List Char)
    (ends : expression.EndsBefore style behind) :
    Kept style good behind (expression.pieces style depth) := by
  cases expression with
  | number digits span => exact kept_number (legible _ written) (fun _ => written) ends
  | string content quote span => exact kept_string (legible _ written)
  | boolean value span =>
      cases value <;> exact kept_keyword ends.1
  | null span => exact kept_keyword ends.1
  | undefined span =>
      -- Behind the zero the text goes on as behind the whole.
      have endsZero := (ends.endsAll (Nat.le_of_ble_eq_true rfl)).endsBefore (.number "0" .null)
      exact kept_keyword_space (kept_number ⟨[], rfl⟩ nofun endsZero)
  | array items span =>
      exact kept_listed (kept_expressions legible depth items written) (fun _ => rfl)
        (fun _ => rfl) (style.endsAll_mark (by decide) _)
  | object members span =>
      cases members with
      | nil =>
          show Kept style good behind (enclosed .openBrace .closeBrace [])
          exact kept_enclosed (fun _ => rfl) (fun _ => rfl) trivial
      | cons first rest =>
          -- Only an object with members has gaps inside of its braces.
          have endsLast := style.endsAll_gap (by decide : Punctuator.closeBrace ≠ .dot) [] behind
          rw [characters_append, List.append_assoc] at endsLast
          rw [Expression.pieces]
          · apply kept_enclosed (fun _ => rfl) (fun _ => rfl)
            rw [kept_append_iff, kept_append_iff]
            exact ⟨⟨kept_gap, kept_separated
              (kept_members legible depth (first :: rest) written) endsLast⟩, kept_gap⟩
          · exact List.cons_ne_nil _ _
  | function definition => exact kept_function legible depth definition written behind
  | group inner span =>
      exact kept_groupedIf (kept_expression legible depth inner written) nofun
  | reference name span => exact kept_name (legible _ written) ends.1
  | property parent name span =>
      rw [Expression.pieces, kept_append_iff, kept_mark_iff fun _ => rfl]
      refine ⟨?_, kept_word (legible _ written.2) ends.1⟩
      apply kept_groupedIf (kept_expression legible depth parent written.1)
      intro notGrouped
      exact Expression.endsBefore_dot notGrouped _
  | index parent key span =>
      rw [Expression.pieces, kept_append_iff]
      constructor
      · apply kept_groupedIf (kept_expression legible depth parent written.1)
        intro notGrouped
        exact (style.endsAll_enclosed (by decide) _ _ _).endsBefore parent
      · apply kept_enclosed (fun _ => rfl) (fun _ => rfl)
        exact kept_expression legible depth key written.2 _
          ((style.endsAll_mark (by decide) _).endsBefore key)
  | call callee arguments span =>
      rw [Expression.pieces, kept_append_iff]
      constructor
      · apply kept_groupedIf (kept_expression legible depth callee written.1)
        intro notGrouped
        exact (style.endsAll_enclosed (by decide) _ _ _).endsBefore callee
      · exact kept_listed (kept_expressions legible depth arguments written.2) (fun _ => rfl)
          (fun _ => rfl) (style.endsAll_mark (by decide) _)
  | unary operator operand span =>
      have opens := operand.openExpression_pieces style depth legible.tellsNames written
      have endsOperand := (ends.endsAll (Nat.le_of_ble_eq_true rfl)).endsBefore operand
      apply kept_prefix legible _ (opens.groupedIf _)
      · exact kept_groupedIf (kept_expression legible depth operand written) fun _ => endsOperand
      · intro isWord
        rw [isWord, Bool.true_or]
  | binary left operator right span =>
      have loose : (Expression.binary left operator right span).precedence < .member :=
        operator.precedence_lt_member
      have opens := right.openExpression_pieces style depth legible.tellsNames written.2
      have endsRight := (ends.endsAll loose).endsBefore right
      rw [Expression.pieces, List.append_assoc, List.append_assoc, List.append_assoc,
        List.singleton_append]
      apply kept_infix legible (by cases operator <;> decide) _ _ (opens.groupedIf _)
      · exact kept_groupedIf (kept_expression legible depth right written.2) fun _ => endsRight
      · intro behind' ends'
        exact kept_groupedIf (kept_expression legible depth left written.1) fun _ =>
          ends'.endsBefore left
  | assign target value span =>
      -- The target and the value are printed without parentheses, so the mark stands right
      -- between them.
      have isMember : .member ≤ target.precedence := Expression.member_le_of_isTarget written.1
      have loose : (Expression.assign target value span).precedence < .member := by
        exact Nat.le_of_ble_eq_true rfl
      have opens := value.openExpression_pieces style depth legible.tellsNames written.2.2
      have endsValue := (ends.endsAll loose).endsBefore value
      rw [Expression.pieces, Expression.placed_of_le isMember,
        Expression.placed_of_le value.assignment_le_precedence, List.append_assoc,
        List.append_assoc, List.append_assoc, List.singleton_append]
      apply kept_infix legible (by decide) style.pretty _ opens
      · exact kept_expression legible depth value written.2.2 behind endsValue
      · intro behind' ends'
        exact kept_expression legible depth target written.2.1 behind' (ends'.endsBefore target)

/-- Printed items are kept where expressions end. -/
theorem kept_expressions (legible : Lexeme.AreLegible good) (depth : UInt8) (items : List Expression)
    (written : Expression.AllWritten good items) :
    ∀ item ∈ Expression.itemPieces style depth items, ∀ behind, style.EndsAll behind →
      Kept style good behind item := by
  cases items with
  | nil => simp [Expression.itemPieces]
  | cons first rest =>
      rw [Expression.itemPieces, List.forall_mem_cons,
        Expression.placed_of_le first.assignment_le_precedence]
      refine ⟨?_, kept_expressions legible depth rest written.2⟩
      intro behind ends
      exact kept_expression legible depth first written.1 behind (ends.endsBefore first)

/-- Printed members are kept where expressions end. -/
theorem kept_members (legible : Lexeme.AreLegible good) (depth : UInt8) (members : List Member)
    (written : Member.AllWritten good members) :
    ∀ item ∈ Member.allPieces style depth members, ∀ behind, style.EndsAll behind →
      Kept style good behind item := by
  cases members with
  | nil => simp [Member.allPieces]
  | cons first rest =>
      cases first with
      | mk key value span =>
          rw [Member.allPieces, List.forall_mem_cons, Member.pieces,
            Expression.placed_of_le value.assignment_le_precedence]
          refine ⟨?_, kept_members legible depth rest written.2.2⟩
          intro behind ends
          rw [List.append_assoc, List.cons_append, List.singleton_append, ← List.singleton_append,
            kept_append_iff, kept_mark_iff fun _ => rfl, kept_append_iff]
          exact ⟨kept_key legible written.1 (style.endsAll_cons (by decide) _ _), kept_gap,
            kept_expression legible depth value written.2.1 behind (ends.endsBefore value)⟩

/-- A printed function is kept before anything. -/
theorem kept_function (legible : Lexeme.AreLegible good) (depth : UInt8) (definition : FunctionDef)
    (written : definition.Written good) (behind : List Char) :
    Kept style good behind (definition.pieces style depth) := by
  cases definition with
  | mk name parameters body span =>
      have keptParameters : ∀ item ∈ parameters.map fun word => [token (.ofWord word)],
          ∀ behind, style.EndsAll behind → Kept style good behind item := by
        rw [List.forall_mem_map]
        intro word inside behind ends
        exact kept_name (legible _ (written.2.1 word inside)) ends.1
      have keptRest : Kept style good behind (style.listed .openParenthesis .closeParenthesis
          (parameters.map fun word => [token (.ofWord word)]) ++
            (style.gap ++ body.pieces style depth)) := by
        rw [kept_append_iff, kept_append_iff]
        exact ⟨kept_listed keptParameters (fun _ => rfl) (fun _ => rfl)
          (style.endsAll_mark (by decide) _), kept_gap,
          kept_block legible depth body written.2.2 behind⟩
      have endsWord := (style.endsAll_listed (by decide : .openParenthesis ∉ _) .closeParenthesis
        (parameters.map fun word => [token (.ofWord word)]) (style.gap ++ body.pieces style depth)
        behind).1
      cases name with
      | none =>
          rw [FunctionDef.pieces, List.append_assoc, List.append_assoc]
          exact kept_token (Lexeme.stopsBefore_keyword endsWord) keptRest
      | some name =>
          rw [FunctionDef.pieces, List.append_assoc, List.append_assoc]
          apply kept_keyword_space
          exact kept_append_iff.mpr ⟨kept_name (legible _ (written.1 name rfl)) endsWord, keptRest⟩

/-- A printed block is kept before anything. -/
theorem kept_block (legible : Lexeme.AreLegible good) (depth : UInt8) (block : Block)
    (written : block.Written good) (behind : List Char) :
    Kept style good behind (block.pieces style depth) := by
  cases block with
  | mk items span =>
      cases items with
      | nil =>
          show Kept style good behind (enclosed .openBrace .closeBrace [])
          exact kept_enclosed (fun _ => rfl) (fun _ => rfl) trivial
      | cons first rest =>
          have kept := kept_statements legible (depth + 1) (first :: rest) written
          rw [Block.pieces]
          · apply kept_enclosed (fun _ => rfl) (fun _ => rfl)
            rw [kept_append_iff, kept_append_iff, kept_append_iff]
            exact ⟨⟨⟨kept_lineBreak, kept_lines kept⟩, kept_lineBreak⟩,
              kept_indentation depth⟩
          · exact List.cons_ne_nil _ _

/-- A statement ends in a mark that nothing behind it changes. -/
theorem kept_statement (legible : Lexeme.AreLegible good) (depth : UInt8) (statement : Statement)
    (written : statement.Written good) (behind : List Char) :
    Kept style good behind (statement.pieces style depth ++ statement.terminator) := by
  cases statement with
  | expression value span =>
      rw [kept_append_iff]
      refine ⟨?_, ?_⟩
      · apply kept_groupedIf (kept_expression legible depth value written)
        intro notGrouped
        exact (style.endsAll_terminator rfl behind).endsBefore value
      · exact kept_terminator _
  | declaration word items span =>
      rw [kept_append_iff]
      refine ⟨?_, ?_⟩
      · apply kept_keyword_space
        exact kept_separated (kept_declarators legible depth items written)
          (style.endsAll_terminator rfl behind)
      · exact kept_terminator _
  | function definition =>
      rw [kept_append_iff]
      exact ⟨kept_function legible depth definition written _, trivial⟩
  | conditional condition consequent alternate span =>
      rw [kept_append_iff, Statement.pieces, List.append_assoc, List.append_assoc,
        List.append_assoc, List.cons_append]
      refine ⟨kept_token ?_ ?_, trivial⟩
      · exact Lexeme.stopsBefore_keyword (style.endsAll_gap (by decide) _ _).1
      · rw [kept_append_iff, kept_append_iff, kept_append_iff, kept_append_iff]
        exact ⟨kept_gap, kept_groupedIf (kept_expression legible depth condition written.1) nofun,
          kept_gap, kept_branch legible depth consequent written.2.1 _,
          kept_alternate legible depth alternate written.2.2 _⟩
  | returning value span =>
      rw [kept_append_iff]
      refine ⟨?_, ?_⟩
      · cases value with
        | none => exact kept_keyword (style.endsAll_terminator rfl behind).1
        | some value =>
            apply kept_keyword_space
            exact kept_expression legible depth value written _
              ((style.endsAll_terminator rfl behind).endsBefore value)
      · exact kept_terminator _
  | block inner =>
      rw [kept_append_iff]
      exact ⟨kept_block legible depth inner written _, trivial⟩
  | empty span =>
      rw [kept_append_iff]
      exact ⟨(kept_mark_iff fun _ => rfl).mpr trivial, trivial⟩

/-- Every printed line is kept. -/
theorem kept_statements (legible : Lexeme.AreLegible good) (depth : UInt8) (items : List Statement)
    (written : Statement.AllWritten good items) :
    ∀ line ∈ Statement.lines style depth items, ∀ behind, Kept style good behind line := by
  cases items with
  | nil => simp [Statement.lines]
  | cons first rest =>
      rw [Statement.lines, List.forall_mem_cons]
      refine ⟨?_, kept_statements legible depth rest written.2⟩
      intro behind
      rw [List.append_assoc, kept_append_iff]
      exact ⟨kept_indentation depth, kept_statement legible depth first written.1 behind⟩

/-- Printed declarations are kept where expressions end. -/
theorem kept_declarators (legible : Lexeme.AreLegible good) (depth : UInt8) (items : List Declarator)
    (written : Declarator.AllWritten good items) :
    ∀ item ∈ Declarator.allPieces style depth items, ∀ behind, style.EndsAll behind →
      Kept style good behind item := by
  cases items with
  | nil => simp [Declarator.allPieces]
  | cons first rest =>
      cases first with
      | mk name value span =>
          rw [Declarator.allPieces, List.forall_mem_cons]
          cases value with
          | none =>
              refine ⟨?_, kept_declarators legible depth rest written.2⟩
              intro behind ends
              exact kept_name (legible _ written.1) ends.1
          | some value =>
              refine ⟨?_, kept_declarators legible depth rest written.2.2⟩
              intro behind ends
              have opens := value.openExpression_pieces style depth legible.tellsNames
                written.2.1
              have kept := kept_expression legible depth value written.2.1 behind
                (ends.endsBefore value)
              rw [Declarator.pieces, Expression.placed_of_le value.assignment_le_precedence,
                List.append_assoc, List.append_assoc, List.cons_append, List.singleton_append]
              exact kept_infix legible (by decide) style.pretty
                (fun _ ends => kept_name (legible _ written.1) ends.1) opens kept

/-- A printed branch is kept before anything. -/
theorem kept_branch (legible : Lexeme.AreLegible good) (depth : UInt8) (branch : Branch)
    (written : branch.Written good) (behind : List Char) :
    Kept style good behind (branch.pieces style depth) := by
  cases branch with
  | braced block => exact kept_block legible depth block written behind
  | single statement => exact kept_statement legible depth statement written behind

/-- A printed second branch is kept before anything. -/
theorem kept_alternate (legible : Lexeme.AreLegible good) (depth : UInt8) (branch : Option Branch)
    (written : Branch.AlternateWritten good branch) (behind : List Char) :
    Kept style good behind (Branch.alternatePieces style depth branch) := by
  cases branch with
  | none => exact trivial
  | some branch =>
      cases branch with
      | braced block =>
          have kept := kept_block legible depth block written behind
          obtain ⟨rest, isBlock⟩ := block.pieces_eq_cons style depth
          rw [Branch.alternatePieces, List.append_assoc, List.append_assoc, List.singleton_append,
            kept_append_iff]
          rw [isBlock] at kept ⊢
          refine ⟨kept_gap, kept_token ?_ (kept_append_iff.mpr ⟨kept_gap, kept⟩)⟩
          exact Lexeme.stopsBefore_keyword (style.endsAll_gap (by decide) _ _).1
      | single statement =>
          have kept := kept_statement legible depth statement written behind
          rw [Branch.alternatePieces, List.append_assoc, List.append_assoc, kept_append_iff]
          exact ⟨kept_gap, kept_keyword_space kept⟩

end

/-- Where no number has an exponent letter for its end, all tokens end where they should. -/
theorem Kept.spaced {style : Style} (blank : style.IndentsByBlanks) {behind : List Char}
    {pieces : List Piece} (kept : Kept style style.CanWrite behind pieces) :
    Spaced behind pieces := by
  induction pieces with
  | nil => exact trivial
  | cons piece pieces step =>
      cases piece with
      | token lexeme =>
          obtain ⟨stops | ⟨notPretty, canWrite, endsInLetter, _⟩, keptRest⟩ := kept
          · exact ⟨stops, step keptRest⟩
          · rcases canWrite.2 with isPretty | notLetter
            · rw [notPretty] at isPretty
              cases isPretty
            · rw [endsInLetter] at notLetter
              cases notLetter
      | blank text =>
          obtain ⟨isBlank, keptRest⟩ := kept
          exact ⟨isBlank.allBlank blank, step keptRest⟩

/-- The printed expression is spaced where it ends. -/
theorem spaced_expression {style : Style} (blank : style.IndentsByBlanks) (depth : UInt8)
    (expression : Expression) (written : expression.Written style.CanWrite) (behind : List Char)
    (ends : expression.EndsBefore style behind) :
    Spaced behind (expression.pieces style depth) :=
  (kept_expression style.areLegible_canWrite depth expression written behind ends).spaced blank

end

end Piece

namespace Script

variable {style : Style} {script : Script}

/-- The printed script is kept. -/
theorem kept_pieces {good : Lexeme → Prop} (legible : Lexeme.AreLegible good)
    (depth : UInt8) (formed : script.Formed good) :
    Piece.Kept style good [] (script.pieces style depth) :=
  Piece.kept_lines (Piece.kept_statements legible depth script.items
    (Statement.allWritten_of_formed script.items formed))

/-- The tokens of a printed script are read from its text one by one. -/
theorem spaced_pieces (blank : style.IndentsByBlanks) (depth : UInt8)
    (formed : script.Formed style.CanWrite) : Piece.Spaced [] (script.pieces style depth) :=
  (script.kept_pieces style.areLegible_canWrite depth formed).spaced blank

end Script

end ScriptStrip
