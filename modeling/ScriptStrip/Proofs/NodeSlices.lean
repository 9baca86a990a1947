import ScriptStrip.Proofs.ParserComplete
import ScriptStrip.Proofs.ParserPlaces
/-
This file cuts the text of a node out of its source and reads it on its own. Cut between two
tokens, a text is scanned to the same tokens, and the end of the text closes whatever stands there.
-/

namespace ScriptStrip

namespace Scan

variable {place : Nat → Nat → Span} {position last : Position} {token : Token}
  {tokens : List Token}

/-- The scanner can stop right behind the last token. -/
theorem Passes.stopBehind (passes : Passes .mk position (tokens ++ [token]) last) :
    ∃ stop, Passes .mk position (tokens ++ [token]) stop ∧ token.span.stop = stop.offset := by
  obtain ⟨middle, before, after⟩ := passes.split
  obtain ⟨start, behind, gap, found, isToken, _⟩ := after.uncons
  have step : Passes .mk start [token] ⟨behind, start.offset +
      Text.byteCount token.lexeme.text.toList, false⟩ := by
    rw [isToken]
    exact .token found .done
  refine ⟨_, before.trans (gap.trans step), ?_⟩
  rw [isToken]

/-- Behind its first token the scanner passes the other ones. -/
theorem Passes.behind {lexeme : Lexeme} {read behind : List Char}
    (passes : Passes place position (token :: tokens) last)
    (found : front position.rest = .token lexeme read behind) :
    Passes place ⟨behind, position.offset + Text.byteCount read, false⟩ tokens last := by
  cases passes with
  | gap found' =>
      rw [found] at found'
      cases found'
  | token found' following =>
      rw [found] at found'
      cases found'
      exact following

/-- Cut between two tokens, a text is scanned to the same tokens. -/
theorem Passes.alone {read : List Char} (passes : Passes place position tokens last)
    (isRest : position.rest = read ++ last.rest) (place' : Nat → Nat → Span) (offset : Nat) :
    ∃ tokens' offset', Passes place' ⟨read, offset, position.afterLineBreak⟩ tokens'
      ⟨[], offset', last.afterLineBreak⟩ ∧ List.Forall₂ Token.Alike tokens tokens' := by
  have cut := passes.moved isRest showsNoMore_nil
  rw [List.append_nil] at cut
  exact cut.shifted place' offset

/-- The text from the start of one token to the stop of another is scanned to the tokens between
them. A line break in front of the first token is not part of the text. -/
theorem Passes.cutOut {source : String} {first stop : Token} {rest inner : List Token}
    (inside : position.In source) (passes : Passes .mk position (first :: rest) last)
    (isTokens : first :: rest = inner ++ [stop]) :
    ∃ text span tokens final,
      Text.slice? source ⟨first.span.start, stop.span.stop⟩ = some text ∧
      List.Forall₂ Token.Alike rest tokens ∧ final.rest = [] ∧
      ∀ afterLineBreak, Passes .ofOffsets ⟨text.toList, 0, afterLineBreak⟩
        (⟨first.lexeme, span, afterLineBreak⟩ :: tokens) final := by
  obtain ⟨start, behind, passesGap, found, isFirst, following⟩ := passes.uncons
  have passesTokens : Passes .mk start (inner ++ [stop]) last := by
    rw [← isTokens, isFirst]
    exact .token found following
  obtain ⟨finish, passesToStop, isStop⟩ := passesTokens.stopBehind
  have startInside := inside.passes passesGap
  rw [← isTokens] at passesToStop
  have passesRest := passesToStop.behind found
  obtain ⟨later, isBehind, isOffset⟩ := passesRest.text
  dsimp only at isBehind isOffset
  have isRest := (front_token_append found).1
  subst isBehind
  have isWhole : start.rest = first.lexeme.text.toList ++ later ++ finish.rest := by
    rw [← isRest, List.append_assoc]
  have slice := startInside.slice isWhole
  have isStart : first.span.start = start.offset := by rw [isFirst]
  have isFinish : stop.span.stop = start.offset +
      Text.byteCount (first.lexeme.text.toList ++ later) := by
    rw [isStop, Text.byteCount_append, ← Nat.add_assoc, ← isOffset]
  rw [← isFinish, ← isStart] at slice
  obtain ⟨tokens, stopOffset, passesAlone, alike⟩ :=
    passesRest.alone rfl .ofOffsets (0 + Text.byteCount first.lexeme.text.toList)
  rw [← isRest] at found
  -- The last token was the last one of the text, so no character behind it is missed.
  have foundAlone := front_token_moved found showsNoMore_append
  refine ⟨_, .ofOffsets 0 (0 + Text.byteCount first.lexeme.text.toList), tokens,
    ⟨[], stopOffset, finish.afterLineBreak⟩, slice, alike, rfl, fun afterLineBreak => ?_⟩
  rw [String.toList_ofList]
  exact .token foundAlone passesAlone

end Scan

namespace TokenStream

variable {source : String} {stream : TokenStream}

/-- The tokens of a source stand in order. -/
theorem PlacedIn.ordered (placed : stream.PlacedIn source) : stream.Ordered := by
  have laidOut := placed.laidOut
  refine ⟨(List.pairwise_append.mp laidOut.ordered).1, fun token inside => ?_⟩
  exact laidOut.nonempty token (List.mem_append_left _ inside) (stream.ahead_lexeme token inside)

/-- The text that a span covers is scanned to the tokens that it encloses. Only a line break in
front of the first of them is lost. -/
theorem rescan {before after : TokenStream} {span : Span}
    (placed : stream.PlacedIn source) (inside : before.ahead <:+ stream.ahead)
    (encloses : span.Encloses before after) :
    ∃ text again copy atEnd, Text.slice? source span = some text ∧ text ≠ "" ∧
      ofSource text = .ok again ∧ again.front.lexeme = copy.front.lexeme ∧
      again.advance = copy.advance ∧ atEnd.front.lexeme = .endOfSource ∧
      Mirrors after atEnd before copy := by
  obtain ⟨skipped, isStream⟩ := inside
  obtain ⟨inner, stop, isBefore, rfl⟩ := encloses
  obtain ⟨last, passes, _⟩ := placed
  obtain ⟨first, rest, isTokens⟩ : ∃ first rest, first :: rest = inner ++ [stop] := by
    cases inner <;> simp
  have isAhead : before.ahead = (first :: rest) ++ after.ahead := by
    rw [isBefore, isTokens, List.append_assoc, List.singleton_append]
  have isFront : before.front = first := by
    rw [front, isAhead]
    rfl
  rw [← isStream, isAhead] at passes
  obtain ⟨middle, passesBefore, passesAfter⟩ := passes.split
  obtain ⟨next, passesTokens, _⟩ := passesAfter.split
  -- The tokens are cut out and read alone, once as a text of their own and once with the line
  -- break that stands in front of them.
  obtain ⟨text, span, tokens, final, slice, alike, atEnd, passesText⟩ :=
    passesTokens.cutOut (Scan.Position.in_start.passes passesBefore) isTokens
  obtain ⟨again, scannedAgain, isAgain, lastAgain⟩ := (passesText false).stream atEnd
  obtain ⟨copy, _, isCopy, lastCopy⟩ := (passesText first.afterLineBreak).stream atEnd
  refine ⟨text, again, copy, ⟨[], copy.last, by simp, copy.last_lexeme⟩, ?_, ?_, scannedAgain, ?_,
    ?_, copy.last_lexeme, ?_⟩
  · rw [isFront]
    exact slice
  · rintro rfl
    have same := Scan.stream_nil.symm.trans scannedAgain
    have isEmpty : [] = again.ahead := congrArg ahead (Except.ok.inj same)
    rw [isAgain] at isEmpty
    cases isEmpty
  · rw [front, front, isAgain, isCopy]
    rfl
  · exact eq_of_tokens (by rw [ahead_advance, ahead_advance, isAgain, isCopy]; rfl)
      (by rw [last_advance, last_advance, lastAgain, lastCopy])
  · have alikeAll : List.Forall₂ Token.Alike (first :: rest)
        (⟨first.lexeme, span, first.afterLineBreak⟩ :: tokens) := .cons ⟨rfl, rfl⟩ alike
    exact mirrors_of_forall₂ alikeAll isAhead (by rw [isCopy, List.append_nil]) rfl

end TokenStream

namespace Node
open ScriptStrip.Parser

/-- The node is one of those that are listed as parts of others. -/
def IsInner : Node → Prop
  | script _ | branch _ => False
  | _ => True

/-- A part of a node is not a whole script. -/
theorem isInner_of_mem_parts {node whole : Node} (isPart : node ∈ whole.parts) : node.IsInner := by
  have isBranch (branch : Branch) : branch.node.IsInner := by cases branch <;> trivial
  cases whole with
  | expression part =>
      cases part <;> simp only [parts, ofExpression, List.mem_cons, List.mem_map, List.not_mem_nil,
        or_false] at isPart
      all_goals grind [IsInner]
  | statement part =>
      cases part <;> simp only [parts, ofStatement, List.mem_cons, List.mem_map, List.not_mem_nil,
        Option.mem_toList, Option.map_eq_some_iff, or_false] at isPart
      all_goals grind [IsInner]
  | branch part =>
      obtain rfl := List.mem_singleton.mp isPart
      exact isBranch part
  | function definition =>
      obtain rfl := List.mem_singleton.mp isPart
      trivial
  | _ =>
      obtain ⟨_, _, rfl⟩ := List.mem_map.mp isPart
      trivial

/-- Whatever lies below a node is not a whole script. -/
theorem isInner_of_isBelow {node whole : Node} (below : node.IsBelow whole) : node.IsInner := by
  induction below with
  | part isPart => exact isInner_of_mem_parts isPart
  | deeper _ _ step => exact step

/-- Every node can be put in front of a token that closes statements. -/
theorem portable_spelling (node : Node) : node.spelling.Portable True := by
  cases node with
  | script whole => exact Spelling.portable_ofStatements whole.items
  | statement part => exact (Spelling.portable_ofBody part).weaken
  | expression part => exact (Spelling.portable_ofExpression part).weaken
  | block part => exact (Spelling.portable_ofBlock part).weaken
  | branch part => exact (Spelling.portable_ofBranchBody part).weaken
  | function definition => exact (Spelling.portable_ofFunction definition).weaken

/-- Every inner node may start on any line. -/
theorem startsAnywhere_spelling {node : Node} (isInner : node.IsInner) :
    node.spelling.StartsAnywhere := by
  cases node with
  | script whole => exact isInner.elim
  | statement part => exact Spelling.startsAnywhere_ofBody part
  | expression part => exact Spelling.startsAnywhere_ofExpression part
  | block part => exact Spelling.startsAnywhere_ofBlock part
  | branch part => exact isInner.elim
  | function definition => exact Spelling.startsAnywhere_ofFunction definition

variable {stream atEnd : TokenStream}

/-- What is found up to the end of a text is what the text is read as. -/
theorem parse_of_recovers {Value : Type} {text : String} {reader : Parser Value}
    {placeless : Value → Value} {value : Value} (form : Form) (node : Value → Node)
    (isParser : form.parser = node <$> reader) (scanned : TokenStream.ofSource text = .ok stream)
    (recovers : Recovers placeless reader stream value atEnd)
    (isEnd : atEnd.front.lexeme = .endOfSource) :
    ∃ found, parse form text = .ok (node found) ∧ placeless found = placeless value := by
  obtain ⟨found, reads, same⟩ := recovers
  refine ⟨found, ?_, same⟩
  rw [parse, readAll_eq_ok_iff, isParser]
  exact ⟨stream, atEnd, scanned, reads_map_iff.mpr ⟨found, reads, rfl⟩, isEnd⟩

/-- A reader for a part of the grammar is given a level for each token. -/
theorem recovers_reader {Value : Type} {placeless : Value → Value} {part : Grammar → Parser Value}
    {value : Value} (recovers : Recovers placeless (part (Grammar.within (stream.size + 1))) stream
      value atEnd) : Recovers placeless (Grammar.reader part) stream value atEnd := by
  obtain ⟨found, reads, same⟩ := recovers
  exact ⟨found, reads_reader_iff.mpr reads, same⟩

/-- A text whose tokens are those of a node is read as the node. -/
theorem parse_of_spelling {node : Node} {text : String} (isInner : node.IsInner)
    (wellShaped : node.WellShaped) (scanned : TokenStream.ofSource text = .ok stream)
    (spelled : node.spelling stream atEnd) (isEnd : atEnd.front.lexeme = .endOfSource) :
    ∀ form ∈ node.forms, ∃ again, parse form text = .ok again ∧ again.same node = true := by
  have complete := Grammar.complete_within (stream.size + 1)
  have inside : stream.size ≤ (Grammar.within (stream.size + 1)).levels := Nat.le_succ _
  have closes : atEnd.front.ClosesStatements := .inr isEnd
  cases node with
  | script whole => exact isInner.elim
  | branch part => exact isInner.elim
  | expression part =>
      rintro form isForm
      obtain rfl := List.mem_singleton.mp isForm
      have recovers := recovers_reader
        (complete.assignment inside ⟨wellShaped, spelled⟩ closes.not_continuesExpression)
      obtain ⟨found, parsed, same⟩ := parse_of_recovers .expression .expression rfl scanned recovers isEnd
      exact ⟨_, parsed, Expression.same_of_placeless same⟩
  | block part =>
      rintro form isForm
      obtain rfl := List.mem_singleton.mp isForm
      have recovers := recovers_reader (complete.block inside wellShaped spelled)
      obtain ⟨found, parsed, same⟩ := parse_of_recovers .block .block rfl scanned recovers isEnd
      exact ⟨_, parsed, Block.same_of_placeless same⟩
  | function definition =>
      rintro form isForm
      obtain rfl := List.mem_singleton.mp isForm
      have recovers : Recovers FunctionDef.placeless (Parser.functionDef false) stream definition atEnd :=
        recovers_reader (complete.functionDef inside wellShaped (by simp) spelled)
      obtain ⟨found, parsed, same⟩ := parse_of_recovers (.function false) .function rfl scanned recovers isEnd
      exact ⟨_, parsed, FunctionDef.same_of_placeless same⟩
  -- A declaration and a conditional can also be read by the readers of their own.
  | statement part =>
      have ended := Statement.edge_of_closes_front part closes
      have whole : Spelling.ofStatement part stream atEnd := by
        rw [Spelling.ofStatement_eq_andThen]
        exact ⟨atEnd, spelled, ended⟩
      have ends : part.EndsBefore atEnd.front := Statement.endsBefore_of_closes closes
      have recovers := recovers_reader (complete.anyStatement inside wellShaped whole ends)
      obtain ⟨found, parsed, same⟩ := parse_of_recovers .statement .statement rfl scanned recovers isEnd
      have asStatement : ∃ again, parse .statement text = .ok again ∧
          again.same (.statement part) = true := ⟨_, parsed, Statement.same_of_placeless same⟩
      cases part with
      | declaration word items span =>
          have recovers := recovers_reader (complete.declaration inside wellShaped whole ends)
          obtain ⟨found, parsed, same⟩ :=
            parse_of_recovers .declaration .statement rfl scanned recovers isEnd
          simp only [forms, List.forall_mem_cons, List.not_mem_nil, false_implies, implies_true, and_true]
          exact ⟨asStatement, _, parsed, Statement.same_of_placeless same⟩
      | conditional condition consequent alternate span =>
          have recovers := recovers_reader (complete.conditional inside wellShaped whole ends)
          obtain ⟨found, parsed, same⟩ :=
            parse_of_recovers .conditional .statement rfl scanned recovers isEnd
          simp only [forms, List.forall_mem_cons, List.not_mem_nil, false_implies, implies_true, and_true]
          exact ⟨asStatement, _, parsed, Statement.same_of_placeless same⟩
      | _ =>
          rintro form isForm
          obtain rfl := List.mem_singleton.mp isForm
          exact asStatement

end Node

end ScriptStrip
