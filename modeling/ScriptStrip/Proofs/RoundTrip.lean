import Mathlib
import ScriptStrip.Proofs.FormedReduction
import ScriptStrip.Proofs.ParserComplete
import ScriptStrip.Proofs.PrintedSpacing
import ScriptStrip.Proofs.Scanned
/-
This file follows a script from its source text to the printed text of what a pass leaves of it,
and back.
-/

namespace ScriptStrip

/-- Every token of a text can be read from some text. -/
theorem Scan.allGood_of_stream {source : List Char} {offset : Nat} {afterLineBreak : Bool}
    {stream : TokenStream} (scanned : Scan.stream source offset afterLineBreak = .ok stream) :
    stream.AllGood Lexeme.IsLegible := by
  obtain ⟨last, passes, _⟩ := Scan.passes_of_stream scanned
  exact passes.isLegible

namespace Script

/-- The printed text of the script is read again. The script that comes of it means the same and
is printed the same. -/
def ReadsBack (style : Style) (script : Script) : Prop :=
  ∃ again, parse (script.print style) = .ok again ∧ again.erased.same script.erased = true ∧
    again.print style = script.print style

/-- Whatever can be written in a layout reads back from it. -/
theorem readsBack_of_formed {style : Style} (blank : style.IndentsByBlanks) {script : Script}
    (formed : script.Formed style.CanWrite) : script.ReadsBack style := by
  obtain ⟨stream, rest, scanned, printed, atEnd⟩ :=
    Scan.stream_of_spaced (script.spaced_pieces blank 0 formed) 0 false
  have spelled := script.spell_pieces style 0 style.tellsNames_canWrite formed stream rest
    (Spelling.ofPieces_false printed)
  obtain ⟨again, rest', reads, same⟩ :=
    reads_of_spelledBy (script.wellShaped_regrouped formed) ⟨rest, spelled, atEnd⟩
  refine ⟨again, parse_eq_ok_iff.mpr ⟨stream, rest', ?_, reads⟩, ?_, print_of_placeless style same⟩
  · rw [TokenStream.ofSource, print, Piece.toList_render]
    exact scanned
  · have sameErased := same_erased_of_placeless same
    rwa [erased_regrouped] at sameErased

/-- What a pass leaves of a script that was read reads back from both layouts. In the layout that
is not pretty, no number may end in its exponent letter, because a sign behind the letter would
belong to the exponent. -/
theorem readsBack_rewrite {source : String} {script : Script}
    (accepted : parse source = .ok script) (configuration : Configuration) :
    (script.rewrite configuration).1.ReadsBack .standard ∧
      ((∀ stream, TokenStream.ofSource source = .ok stream →
          ∀ token ∈ stream.ahead, token.lexeme.endsInExponentLetter = false) →
        (script.rewrite configuration).1.ReadsBack .minified) := by
  obtain ⟨stream, rest, scanned, reads⟩ := parse_eq_ok_iff.mp accepted
  obtain ⟨wellShaped, spelled⟩ := spelledBy_of_reads reads
  have legible := Scan.allGood_of_stream scanned
  have readsBack (style : Style) (blank : style.IndentsByBlanks)
      (canWrite : stream.AllGood style.CanWrite) :
      (script.rewrite configuration).1.ReadsBack style := by
    have formed := spelled.formed wellShaped canWrite style.tellsNames_canWrite
    exact readsBack_of_formed blank (script.formed_rewrite configuration formed)
  constructor
  · apply readsBack .standard Style.indentsByBlanks_standard
    intro token inside
    exact ⟨legible token inside, .inl rfl⟩
  · intro plain
    apply readsBack .minified Style.indentsByBlanks_minified
    intro token inside
    exact ⟨legible token inside, .inr (plain stream scanned token inside)⟩

/-- The argument of an assertion becomes the operand of `void`. -/
theorem readsBack_rewrite_assertion : ∃ script,
    parse "a=-void dev.assert(0);" = .ok script ∧
      (script.rewrite .production).1.ReadsBack .standard ∧
      (script.rewrite .production).1.ReadsBack .minified := by
  have accepted : parse "a=-void dev.assert(0);" = .ok ⟨[.expression (.assign
      (.reference "a" ⟨0, 1⟩) (.unary .negate (.unary .void (.call (.property
        (.reference "dev" ⟨8, 11⟩) "assert" ⟨8, 18⟩) [.number "0" ⟨19, 20⟩] ⟨8, 21⟩) ⟨3, 21⟩)
        ⟨2, 21⟩) ⟨0, 21⟩) ⟨0, 21⟩], ⟨0, 22⟩⟩ := by
    cbv
  have lexemes : (TokenStream.ofSource "a=-void dev.assert(0);").map
      (fun stream => stream.ahead.map Token.lexeme) = .ok [.identifier "a", .punctuator .assign,
        .punctuator .minus, .keyword .voidKw, .identifier "dev", .punctuator .dot,
        .identifier "assert", .punctuator .openParenthesis, .number "0",
        .punctuator .closeParenthesis, .punctuator .semicolon] := by
    cbv
  obtain ⟨standard, minified⟩ := readsBack_rewrite accepted .production
  refine ⟨_, accepted, standard, minified ?_⟩
  intro stream scanned token inside
  rw [scanned] at lexemes
  have isLexeme : token.lexeme ∈ stream.ahead.map Token.lexeme := List.mem_map_of_mem inside
  have sameLexemes : stream.ahead.map Token.lexeme = _ := Except.ok.inj lexemes
  rw [sameLexemes] at isLexeme
  revert isLexeme
  generalize token.lexeme = lexeme
  revert lexeme
  decide

end Script

end ScriptStrip
