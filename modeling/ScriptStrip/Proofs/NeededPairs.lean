import ScriptStrip.Proofs.OwnPairs
import ScriptStrip.Proofs.Parting
import ScriptStrip.Proofs.ParserSound
import ScriptStrip.Proofs.RunTogether
import ScriptStrip.Proofs.SideBySide
import ScriptStrip.Tree.Node
/-
This file shows that printing adds no parentheses that could be left out. Without any one pair of
them, the text is read as something else or not at all.
-/

namespace ScriptStrip

open Piece Spelling

/-- No spelling that goes with the exposed trees step by step reaches the end of what is left. -/
theorem Piece.Pair.Fits.not_spelled {good : Lexeme → Prop} {Tree : Type} {form : Tree → Spelling}
    {same grouped : Tree → Prop} {style : Style} {pair : Pair}
    (fits : pair.Fits good style (Exposed form same grouped)) (legible : Lexeme.AreLegible good)
    (blank : style.IndentsByBlanks) (kept : Kept style good [] pair.whole)
    {stream rest : TokenStream}
    (scanned : TokenStream.ofSource (render pair.thinned) = .ok stream) {spelling : Spelling}
    (lockstep : ∀ related, StaysRelated related → ∀ tree, same tree →
      Lockstep related spelling (form tree) (grouped tree))
    (spelled : spelling stream rest) : rest.front.lexeme ≠ .endOfSource := by
  intro atEnd
  obtain ⟨glued, _, isGlued, ⟨tree, rfl, isSame, lacks⟩, spell⟩ := fits.exposes
  rw [TokenStream.ofSource, toList_render] at scanned
  by_cases spacedThinned : Spaced [] pair.thinned
  · obtain ⟨_, last, scanned', printed, _⟩ := Scan.stream_of_spaced spacedThinned 0 false
    obtain rfl := Except.ok.inj (scanned.symm.trans scanned')
    have stays : StaysRelated Eq := fun _ _ same => .inl (same ▸ ⟨rfl, rfl⟩)
    have isGrouped := (lockstep _ stays tree isSame rfl spelled
      (spell _ _ (ofPieces_false printed))).2
    rcases lacks with holds | notGrouped
    · exact (isGlued holds).not_spaced spacedThinned
    · exact notGrouped isGrouped
  · obtain ⟨other, last, printed, _, parts⟩ :=
      Scan.parts_of_joined (fits.joined legible blank kept) spacedThinned scanned
    have relatedEnds := (lockstep _ TokenStream.Parts.staysRelated tree isSame parts spelled
      (spell _ _ (ofPieces_false printed))).1
    exact relatedEnds.inside atEnd

/-- With the pair of parentheses taken out, the text is not read as the same expression. -/
def Expression.Needs (expression : Expression) (pair : Pair) : Prop :=
  ∀ again, Node.parse .expression (render pair.thinned) = .ok (.expression again) →
    again.erased.same expression.erased = false

/-- With the pair of parentheses taken out, the text is not read as the same statement. -/
def Statement.Needs (statement : Statement) (pair : Pair) : Prop :=
  ∀ again, Node.parse .statement (render pair.thinned) = .ok (.statement again) →
    again.erased.same statement.erased = false

variable {style : Style}

/-- What is read from a text is well shaped and spelled by all of its tokens. -/
theorem Expression.between_of_parse {source : String} {expression : Expression}
    (parsed : Node.parse .expression source = .ok (.expression expression)) :
    ∃ stream rest, TokenStream.ofSource source = .ok stream ∧ expression.Between stream rest ∧
      rest.front.lexeme = .endOfSource := by
  obtain ⟨stream, rest, scanned, reads, atEnd⟩ := Parser.readAll_eq_ok_iff.mp parsed
  obtain ⟨found, readsFound, isFound⟩ := Parser.reads_map_iff.mp reads
  obtain rfl := Node.expression.inj isFound
  have sound := Grammar.sound_within (stream.size + 1)
  exact ⟨stream, rest, scanned, (sound.assignment (Parser.reads_reader_iff.mp readsFound)).1, atEnd⟩

/-- A statement that is read from a text is spelled by the tokens of the text. -/
theorem Statement.spelled_of_parse {source : String} {statement : Statement}
    (parsed : Node.parse .statement source = .ok (.statement statement)) :
    ∃ stream rest, TokenStream.ofSource source = .ok stream ∧ statement.WellShaped ∧
      ofStatement statement stream rest ∧ rest.front.lexeme = .endOfSource := by
  obtain ⟨stream, rest, scanned, reads, atEnd⟩ := Parser.readAll_eq_ok_iff.mp parsed
  obtain ⟨found, readsFound, isFound⟩ := Parser.reads_map_iff.mp reads
  obtain rfl := Node.statement.inj isFound
  have sound := Grammar.sound_within (stream.size + 1)
  obtain ⟨wellShaped, spelled, _⟩ := sound.anyStatement (Parser.reads_reader_iff.mp readsFound)
  exact ⟨stream, rest, scanned, wellShaped, spelled, atEnd⟩

/-- Each pair that printing adds to an expression is needed. -/
theorem Expression.needs_of_added {good : Lexeme → Prop} (legible : Lexeme.AreLegible good)
    (blank : style.IndentsByBlanks) {expression : Expression} (written : expression.Written good)
    {pair : Pair}
    (isAdded : pair ∈ (expression.draft style 0).added) : expression.Needs pair := by
  intro again parsed
  rw [Bool.eq_false_iff]
  intro same
  obtain ⟨stream, rest, scanned, between, atEnd⟩ := Expression.between_of_parse parsed
  have spells := exposes_expression style 0 legible.tellsNames expression written
  have kept := kept_expression legible 0 expression written [] (style.endsAll_nil.endsBefore _)
  rw [← pieces_draft, ← Draft.whole_added _ pair isAdded] at kept
  apply (spells.fits pair isAdded).not_spelled legible blank kept scanned ?_ between.spelled atEnd
  intro related stays tree isSame
  rw [← isSame] at same
  exact ((inStep_of_same stays again tree same).lockstep stays).imp fun follows =>
    follows.grouped between.wellShaped

/-- Each pair that printing adds to a statement is needed. -/
theorem Statement.needs_of_added {good : Lexeme → Prop} (legible : Lexeme.AreLegible good)
    (blank : style.IndentsByBlanks) {expression : Expression} (written : expression.Written good)
    (span : Span) {pair : Pair}
    (isAdded : pair ∈ ((Statement.expression expression span).draft style 0).added) :
    (Statement.expression expression span).Needs pair := by
  intro again parsed
  rw [Bool.eq_false_iff]
  intro same
  obtain ⟨stream, rest, scanned, wellShaped, spelled, atEnd⟩ := Statement.spelled_of_parse parsed
  have spells := exposes_statement style 0 legible.tellsNames (.expression expression span) written
  have kept : Kept style good [] ((Statement.expression expression span).pieces style 0) :=
    kept_groupedIf (kept_expression legible 0 expression written)
      fun _ => style.endsAll_nil.endsBefore _
  rw [← pieces_draft, ← Draft.whole_added _ pair isAdded] at kept
  apply (spells.fits pair isAdded).not_spelled legible blank kept scanned ?_ spelled atEnd
  intro related stays tree isSame
  rw [← isSame] at same
  exact (lockstep_statement stays again tree same).imp fun isGrouped => isGrouped wellShaped

/-- An expression is ambiguous at the start of a statement if and only if its text starts with a
brace or with `function`. -/
theorem Expression.isAmbiguousAtStart_iff_front {good : Lexeme → Prop}
    (legible : Lexeme.AreLegible good) (blank : style.IndentsByBlanks) {expression : Expression}
    (written : expression.Written good) :
    ∃ stream, TokenStream.ofSource (expression.print style) = .ok stream ∧
      (expression.isAmbiguousAtStart = true ↔ stream.front.lexeme = .punctuator .openBrace ∨
        stream.front.lexeme = .keyword .functionKw) := by
  have kept := kept_expression legible 0 expression written [] (style.endsAll_nil.endsBefore _)
  have joined := kept.joined legible blank
  obtain ⟨stream, scanned⟩ := (joined.cuttable (kept.isLegible legible)).exists_stream 0 false
  refine ⟨stream, ?_, ?_⟩
  · rw [TokenStream.ofSource, print, toList_render]
    exact scanned
  · obtain ⟨other, rest, printed, _⟩ := exists_ofPieces _ joined.inside
    have spelled := spell_expression style 0 legible.tellsNames expression written other rest
      (ofPieces_false printed)
    obtain ⟨first, others, isPieces, _⟩ :=
      expression.openExpression_pieces style 0 legible.tellsNames written
    rw [isPieces] at kept scanned printed
    rw [← opensLikeStatement_regrouped, (front_ofExpression _ spelled).2, printed.1]
    rcases kept.front_of_stream legible scanned with same | ⟨⟨longer, isLonger⟩, digits, rfl⟩
    · rw [same]
    · simp [isLonger]

/-- An expression gets parentheses at the start of a statement if its text starts with a brace or
with `function`. All parentheses in its text are its own but the added ones, and none of these could
be left out. -/
theorem Expression.added_parentheses_needed (blank : style.IndentsByBlanks)
    {expression : Expression} (written : expression.Written Lexeme.IsLegible) (span : Span) :
    (∃ stream, TokenStream.ofSource (expression.print style) = .ok stream ∧
        (expression.isAmbiguousAtStart = true ↔ stream.front.lexeme = .punctuator .openBrace ∨
          stream.front.lexeme = .keyword .functionKw)) ∧
      (opened (expression.pieces style 0) =
          expression.ownPairs + (expression.draft style 0).added.length ∧
        ∀ pair ∈ (expression.draft style 0).added,
          render pair.whole = expression.print style ∧ expression.Needs pair) ∧
      let statement := Statement.expression expression span
      opened (statement.pieces style 0) =
          expression.ownPairs + (statement.draft style 0).added.length ∧
        ∀ pair ∈ (statement.draft style 0).added,
          render pair.whole = statement.print style ∧ statement.Needs pair := by
  have legible : Lexeme.AreLegible Lexeme.IsLegible := fun _ isLegible => isLegible
  refine ⟨isAmbiguousAtStart_iff_front legible blank written, ⟨?_, ?_⟩, ?_, ?_⟩
  · rw [← pieces_draft]
    exact expression.owns_draft style 0
  · intro pair isAdded
    refine ⟨?_, needs_of_added legible blank written isAdded⟩
    rw [Draft.whole_added _ pair isAdded, pieces_draft, print]
  · rw [← Statement.pieces_draft]
    exact (Statement.expression expression span).owns_draft style 0
  · intro pair isAdded
    refine ⟨?_, Statement.needs_of_added legible blank written span isAdded⟩
    rw [Draft.whole_added _ pair isAdded, Statement.pieces_draft, Statement.print]

/-- A sum that is multiplied has parentheses, without which a product would be added. -/
theorem Expression.added_parentheses_needed_product :
    let expression : Expression := .binary
      (.binary (.number "1" .null) .add (.number "2" .null) .null) .multiply
      (.number "3" .null) .null
    expression.Written Lexeme.IsLegible ∧ ∃ pair,
      (expression.draft .standard 0).added = [pair] ∧ render pair.whole = "(1 + 2) * 3" ∧
        render pair.thinned = "1 + 2 * 3" ∧ expression.Needs pair := by
  intro expression
  have written : expression.Written Lexeme.IsLegible := ⟨⟨⟨[], rfl⟩, ⟨[], rfl⟩⟩, ⟨[], rfl⟩⟩
  have needed := (added_parentheses_needed Style.indentsByBlanks_standard written .null).2.1.2
  exact ⟨written, _, rfl, by decide, by decide, (needed _ List.mem_cons_self).2⟩

end ScriptStrip
