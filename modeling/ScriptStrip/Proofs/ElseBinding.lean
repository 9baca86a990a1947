import Mathlib
import ScriptStrip.Proofs.Layouts
import ScriptStrip.Proofs.NearestElse
import ScriptStrip.Proofs.NodeSlices
import ScriptStrip.Proofs.ParserSound
import ScriptStrip.Proofs.Plain
/-
This file prints conditions that are put together by hand and reads the text again. The printer
does not mark which condition a second branch belongs to, so the last one that can take it gets it.
-/

namespace ScriptStrip

namespace Statement

/-- The printed text is read as a condition that means the same as this statement. -/
def ReadsAs (style : Style) (statement meaning : Statement) : Prop :=
  ∃ again, Node.parse .conditional (statement.print style) = .ok (.statement again) ∧
    again.erased.same meaning.erased = true

/-- The printed text is read as the condition it was printed from. -/
def ReadsBack (style : Style) (statement : Statement) : Prop :=
  statement.ReadsAs style statement.unified

/-- Only a conditional can take a second branch. -/
def IsConditional : Statement → Prop
  | .conditional .. => True
  | _ => False

variable {style : Style} {statement other : Statement}

/-- A conditional stays one when it takes a second branch. -/
theorem IsConditional.takeElse (isConditional : statement.IsConditional) (given : Branch) :
    (statement.takeElse given).IsConditional := by
  cases statement with
  | conditional condition consequent alternate span =>
      cases alternate with
      | none =>
          rw [Statement.takeElse]
          split <;> exact trivial
      | some alternate => exact trivial
  | _ => exact isConditional

/-- A conditional stays one when its second branch goes to the nearest one. -/
theorem IsConditional.nearest (isConditional : statement.IsConditional) :
    statement.nearest.IsConditional := by
  cases statement with
  | conditional condition consequent alternate span =>
      cases alternate with
      | none => exact trivial
      | some alternate =>
          have oneWay : (conditional condition consequent.nearest none span).IsConditional := trivial
          rw [Statement.nearest]
          exact oneWay.takeElse _
  | _ => exact isConditional.elim

/-- The parser reads closed conditions only. -/
theorem closed_of_parse {text : String} {again : Statement}
    (parsed : Node.parse .conditional text = .ok (.statement again)) : again.fork.Closed := by
  obtain ⟨stream, rest, _, reads, _⟩ := Parser.readAll_eq_ok_iff.mp parsed
  obtain ⟨found, readsFound, isFound⟩ := Parser.reads_map_iff.mp reads
  obtain rfl : found = again := Node.statement.inj isFound.symm
  exact found.closed_of_wellShaped
    (Grammar.Sound.conditional (Grammar.sound_within _) (Parser.reads_reader_iff.mp readsFound)).1

/-- Statements that mean the same have their second branches in the same places. -/
theorem fork_of_same (same : statement.erased.same other.erased = true) :
    statement.fork = other.fork := by
  have sameGist := (same_iff_gist _ _).mp same
  rw [← statement.fork_erased, ← statement.erased.fork_gist, sameGist, fork_gist, fork_erased]

/-- The tokens of a condition that can be printed are read as the condition. -/
theorem parse_of_spelled (isConditional : statement.IsConditional)
    (formed : statement.Formed Lexeme.IsLegible) {text : String} {stream rest : TokenStream}
    (scanned : TokenStream.ofSource text = .ok stream)
    (spelled : Spelling.ofStatement statement.regrouped stream rest)
    (atEnd : rest.front.lexeme = .endOfSource) :
    ∃ again, Node.parse .conditional text = .ok (.statement again) ∧
      again.erased.same statement.erased = true := by
  have wellShaped := statement.wellShaped_regrouped formed
  have sameMeaning := statement.erased_regrouped
  cases statement with
  | conditional condition consequent alternate span =>
      have closes : rest.front.ClosesStatements := .inr atEnd
      have recovers := Node.recovers_reader ((Grammar.complete_within (stream.size + 1)).conditional
        (by rw [Grammar.levels_within]; exact Nat.le_succ _) wellShaped spelled
        (Statement.endsBefore_of_closes closes))
      obtain ⟨again, parsed, same⟩ :=
        Node.parse_of_recovers .conditional .statement rfl scanned recovers atEnd
      refine ⟨again, parsed, ?_⟩
      apply same_of_placeless
      have sameErased := congrArg Statement.erased same
      rw [erased_placeless, erased_placeless] at sameErased
      exact sameErased.trans (congrArg placeless sameMeaning)
  | _ => exact isConditional.elim

/-- The text of a condition is accepted, and each second branch in it is read with the last
condition before it that can take it. -/
theorem reads_nearest (blank : style.IndentsByBlanks) (isConditional : statement.IsConditional)
    (assembled : statement.Assembled Lexeme.IsLegible)
    (apart : style.pretty = false → ∀ expression,
      (Node.expression expression).IsBelow (.statement statement) →
        expression.extendsNumber = false) :
    statement.ReadsAs style statement.nearest := by
  have legible : Lexeme.AreLegible Lexeme.IsLegible := fun _ isLegible => isLegible
  have written := statement.written_of_assembled assembled
  have noTerminator : statement.terminator = [] := by
    cases statement <;> first | rfl | exact isConditional.elim
  have kept : Piece.Kept style Lexeme.IsLegible []
      (statement.pieces style 0 ++ statement.terminator) :=
    Piece.kept_statement legible 0 statement written []
  rw [noTerminator, List.append_nil] at kept
  have spaced := (Node.spaced_iff (.statement statement) legible blank kept).mpr
    fun notPretty expression inside =>
      apart notPretty expression (inside.resolve_left Node.noConfusion)
  obtain ⟨stream, rest, scanned, printed, atEnd⟩ := Scan.stream_of_spaced spaced 0 false
  have spelled := Piece.spell_statement style 0 legible.tellsNames statement written stream rest
    (Spelling.ofPieces_false printed)
  rw [← Spelling.ofStatement_nearest] at spelled
  refine parse_of_spelled isConditional.nearest (statement.formed_nearest assembled) ?_ spelled
    atEnd
  rw [TokenStream.ofSource, print, Piece.toList_render]
  exact scanned

/-- The text of a condition reads back if and only if no first branch in it could take the second
branch behind it. What is read otherwise is the condition with its second branches moved. In the
layout that is not pretty, no number may end in its exponent letter before a sign. -/
theorem readsBack_iff_closed (blank : style.IndentsByBlanks)
    (isConditional : statement.IsConditional) (assembled : statement.Assembled Lexeme.IsLegible)
    (apart : style.pretty = false → ∀ expression,
      (Node.expression expression).IsBelow (.statement statement) →
        expression.extendsNumber = false) :
    statement.ReadsAs style statement.nearest ∧
      (statement.ReadsBack style ↔ statement.fork.Closed) := by
  have readsNearest := reads_nearest blank isConditional assembled apart
  refine ⟨readsNearest, ?_, ?_⟩
  · rintro ⟨again, parsed, same⟩
    have closed := closed_of_parse parsed
    rwa [fork_of_same same, fork_unified] at closed
  · intro closed
    rwa [ReadsBack, ← nearest_of_closed _ closed]

/-- Conditions that stand alone in a branch read back where each of them has both branches. -/
theorem readsBack_iff_closed_chain :
    let inner : Statement := .conditional (.reference "b" .null) (.single (.empty .null))
      (some (.single (.empty .null))) .null
    let statement : Statement := .conditional (.reference "a" .null) (.single inner)
      (some (.single (.empty .null))) .null
    statement.print .minified = "if(a)if(b);else ;else ;" ∧
      statement.ReadsBack .standard ∧ statement.ReadsBack .minified := by
  intro inner statement
  have isName {name : String} (isPlain : (Lexeme.identifier name).IsPlain) :
      (Expression.reference name .null).Formed Lexeme.IsLegible := isPlain.isLegible
  have isConditional : statement.IsConditional := trivial
  have assembled : statement.Assembled Lexeme.IsLegible :=
    ⟨isName ⟨by decide, by decide⟩, ⟨isName ⟨by decide, by decide⟩, trivial, trivial⟩, trivial⟩
  have closed : statement.fork.Closed := ⟨rfl, ⟨rfl, trivial, trivial⟩, trivial⟩
  have nothingBelow {whole part : Node} (isLeaf : whole.parts = []) : ¬ part.IsBelow whole := by
    rintro (isPart | ⟨_, isPart⟩) <;> rw [isLeaf] at isPart <;> cases isPart
  have apart : ∀ expression, (Node.expression expression).IsBelow (.statement statement) →
      expression.extendsNumber = false := by
    rintro expression (isPart | ⟨below, isPart⟩)
    · obtain rfl : expression = .reference "a" .null := by
        simpa [statement, Node.parts, Node.ofStatement, Branch.node] using isPart
      rfl
    · simp only [statement, Node.parts, Node.ofStatement, Branch.node, Option.map_some,
        Option.toList_some, List.mem_cons, List.not_mem_nil, or_false] at isPart
      rcases isPart with rfl | rfl | rfl
      · exact absurd below (nothingBelow rfl)
      · rcases below with isPart | ⟨below, isPart⟩
        · obtain rfl : expression = .reference "b" .null := by
            simpa [inner, Node.parts, Node.ofStatement, Branch.node] using isPart
          rfl
        · simp only [inner, Node.parts, Node.ofStatement, Branch.node, Option.map_some,
            Option.toList_some, List.mem_cons, List.not_mem_nil, or_false] at isPart
          rcases isPart with rfl | rfl | rfl <;> exact absurd below (nothingBelow rfl)
      · exact absurd below (nothingBelow rfl)
  refine ⟨by cbv, ?_, ?_⟩
  · exact (readsBack_iff_closed Style.indentsByBlanks_standard isConditional assembled
      fun notPretty => Bool.noConfusion notPretty).2.mpr closed
  · exact (readsBack_iff_closed Style.indentsByBlanks_minified isConditional assembled
      fun _ => apart).2.mpr closed

/-- The second branch of the outer condition is read as one of the inner condition. -/
theorem exists_parse_print_conditional_ne :
    let inner : Statement := .conditional (.reference "b" .null)
      (.single (.expression (.reference "c" .null) .null)) none .null
    let statement : Statement := .conditional (.reference "a" .null) (.single inner)
      (some (.single (.expression (.reference "d" .null) .null))) .null
    statement.print .standard = "if (a) if (b) c; else d;" ∧
      statement.print .minified = "if(a)if(b)c;else d;" ∧
      (∃ again, Node.parse .conditional (statement.print .standard) = .ok (.statement again) ∧
        again.erased.same statement.unified.erased = false) ∧
      ∃ again, Node.parse .conditional (statement.print .minified) = .ok (.statement again) ∧
        again.erased.same statement.unified.erased = false :=
  ⟨by cbv, by cbv, ⟨_, by cbv, by cbv⟩, _, by cbv, by cbv⟩

end Statement

end ScriptStrip
