import ScriptStrip.Proofs.NodeSlices
/-
This file shows that spans are exact. The span of a node covers the nodes below it, and the text
under it is the node again.
-/

namespace ScriptStrip

namespace Node

/-- The node is what stands in the source where its span says. -/
structure HasExactSpan (source : String) (node : Node) : Prop where
  /-- The part of the source is read as the node in every form that the node has. -/
  rereads : ∃ text, Text.slice? source node.span = some text ∧ text ≠ "" ∧
    ∀ form ∈ node.forms, ∃ again, parse form text = .ok again ∧ again.same node = true
  covers : ∀ inner : Node, inner.IsBelow node →
    node.span.start ≤ inner.span.start ∧ inner.span.stop ≤ node.span.stop
  /-- The nodes directly below the node stand behind one another. -/
  apart : node.parts.Pairwise fun first second => first.span.stop ≤ second.span.start

variable {node inner : Node} {nodes : List Node} {before after : TokenStream}

/-- Each of several located nodes stands between two places of the stream. -/
theorem AllLocated.of_mem (located : AllLocated nodes before after) (isIn : node ∈ nodes) :
    ∃ start stop, Located node start stop ∧ start.ahead <:+ before.ahead ∧
      after.ahead <:+ stop.ahead := by
  induction nodes generalizing before with
  | nil => cases isIn
  | cons first rest step =>
      cases located with
      | cons starts located locatedRest =>
          rcases List.mem_cons.mp isIn with rfl | isLater
          · exact ⟨_, _, located, starts, locatedRest.ends⟩
          · obtain ⟨start, stop, locatedNode, startsNode, stops⟩ := step locatedRest isLater
            exact ⟨start, stop, locatedNode, (startsNode.trans located.encloses.ends).trans starts,
              stops⟩

/-- Everything below a node lies between the streams that the node lies between. -/
theorem Located.of_isBelow (located : Located node before after) (below : inner.IsBelow node) :
    ∃ start stop, Located inner start stop ∧ start.ahead <:+ before.ahead ∧
      after.ahead <:+ stop.ahead := by
  induction below generalizing before after with
  | part isPart => exact located.parts.of_mem isPart
  | deeper _ isPart step =>
      obtain ⟨start, stop, locatedMiddle, starts, stops⟩ := located.parts.of_mem isPart
      obtain ⟨start', stop', locatedInner, starts', stops'⟩ := step locatedMiddle
      exact ⟨start', stop', locatedInner, starts'.trans starts, stops.trans stops'⟩

/-- Nodes that are located one behind the other do not overlap. -/
theorem AllLocated.apart (ordered : before.Ordered) (located : AllLocated nodes before after) :
    nodes.Pairwise fun first second => first.span.stop ≤ second.span.start := by
  induction nodes generalizing before with
  | nil => exact List.Pairwise.nil
  | cons first rest step =>
      cases located with
      | cons starts located locatedRest =>
          have orderedFirst := ordered.of_suffix starts
          have orderedRest := orderedFirst.of_suffix located.encloses.ends
          refine List.Pairwise.cons (fun second isLater => ?_) (step orderedRest locatedRest)
          obtain ⟨start, stop, locatedSecond, startsSecond, _⟩ := locatedRest.of_mem isLater
          exact located.encloses.stop_le_start orderedFirst startsSecond locatedSecond.encloses

/-- The span of a node covers the spans of all nodes in it. -/
theorem Located.covers (ordered : before.Ordered) (located : Located node before after)
    (below : inner.IsBelow node) :
    node.span.start ≤ inner.span.start ∧ inner.span.stop ≤ node.span.stop := by
  obtain ⟨start, stop, locatedInner, starts, stops⟩ := located.of_isBelow below
  exact located.encloses.covers ordered starts locatedInner.encloses stops

variable {source : String} {stream : TokenStream}

/-- The text under the span of a node is read as the node. -/
theorem Located.rereads (placed : stream.PlacedIn source)
    (inside : before.ahead <:+ stream.ahead) (isInner : node.IsInner) (located : Located node before after) :
    ∃ text, Text.slice? source node.span = some text ∧ text ≠ "" ∧
      ∀ form ∈ node.forms, ∃ again, parse form text = .ok again ∧ again.same node = true := by
  obtain ⟨text, again, copy, atEnd, slice, nonempty, scannedAgain, sameFront, sameRest, isEnd,
    mirrors⟩ := TokenStream.rescan placed inside located.encloses
  refine ⟨text, slice, nonempty, ?_⟩
  obtain ⟨stop, moved, mirrorsEnd⟩ :=
    (portable_spelling node).moves located.spelled mirrors (Nat.le_refl _) fun _ => .inr (.inr isEnd)
  obtain rfl := mirrorsEnd.of_size_eq rfl
  have spelledAgain := startsAnywhere_spelling isInner copy again stop moved sameFront sameRest
  exact parse_of_spelling isInner located.wellShaped scannedAgain spelledAgain isEnd

/-- A node that is located between tokens has the slice of just these tokens. -/
theorem Located.hasExactSpan (placed : stream.PlacedIn source)
    (inside : before.ahead <:+ stream.ahead) (isInner : node.IsInner)
    (located : Located node before after) : node.HasExactSpan source := by
  have ordered := placed.ordered.of_suffix inside
  exact ⟨located.rereads placed inside isInner, fun _ below => located.covers ordered below,
    located.parts.apart ordered⟩

end Node

/-- What is read from tokens at their places has its place as well. -/
theorem Script.hasExactSpan_of_reads {source : String} {stream rest : TokenStream}
    {script : Script} (placed : stream.PlacedIn source)
    (reads : Parser.Reads Parser.script stream script rest) :
    (script.items.Pairwise fun first second => first.span.stop ≤ second.span.start) ∧
      ∀ node : Node, node.IsBelow (.script script) → node.HasExactSpan source := by
  have located := located_of_reads placed.ordered reads
  refine ⟨?_, fun node below => ?_⟩
  · exact List.pairwise_map.mp (located.apart placed.ordered)
  · have isInner := Node.isInner_of_isBelow below
    obtain ⟨start, stop, locatedNode, starts⟩ : ∃ start stop, Node.Located node start stop ∧
        start.ahead <:+ stream.ahead := by
      cases below with
      | part isPart =>
          obtain ⟨start, stop, locatedNode, starts, _⟩ := located.of_mem isPart
          exact ⟨start, stop, locatedNode, starts⟩
      | deeper below isPart =>
          obtain ⟨start, stop, locatedWhole, starts, _⟩ := located.of_mem isPart
          obtain ⟨start', stop', locatedNode, starts', _⟩ := locatedWhole.of_isBelow below
          exact ⟨start', stop', locatedNode, starts'.trans starts⟩
    exact locatedNode.hasExactSpan placed starts isInner

/-- Every node of a script stands where its span says, and so do the statements of the script. -/
theorem Script.hasExactSpan_of_parse {source : String} {script : Script}
    (small : Text.byteCount source.toList < 0x100000000) (accepted : parse source = .ok script) :
    (script.items.Pairwise fun first second => first.span.stop ≤ second.span.start) ∧
      ∀ node : Node, node.IsBelow (.script script) → node.HasExactSpan source := by
  obtain ⟨stream, rest, scanned, reads⟩ := parse_eq_ok_iff.mp accepted
  exact hasExactSpan_of_reads (TokenStream.placedIn_of_ofSource small scanned) reads

/-- The semicolon behind a branch is no part of the branch. -/
theorem Script.hasExactSpan_of_parse_branch :
    Text.byteCount "/* \u00e9 */ if (a) return;".toList < 0x100000000 ∧
      ∃ script, parse "/* \u00e9 */ if (a) return;" = .ok script ∧
        (Node.statement (.returning none ⟨16, 22⟩)).IsBelow (.script script) ∧
        ∀ node : Node, node.IsBelow (.script script) →
          node.HasExactSpan "/* \u00e9 */ if (a) return;" := by
  have small : Text.byteCount "/* \u00e9 */ if (a) return;".toList < 0x100000000 := by decide
  have accepted : parse "/* \u00e9 */ if (a) return;" = .ok ⟨[.conditional
      (.reference "a" ⟨13, 14⟩) (.single (.returning none ⟨16, 22⟩)) none ⟨9, 22⟩], ⟨0, 23⟩⟩ := by
    cbv
  refine ⟨small, _, accepted, ?_, (hasExactSpan_of_parse small accepted).2⟩
  exact .deeper (.part (by simp [Node.parts, Node.ofStatement, Branch.node]))
    (List.mem_singleton.mpr rfl)

end ScriptStrip
