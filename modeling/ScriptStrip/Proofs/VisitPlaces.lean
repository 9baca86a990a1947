import Mathlib
import ScriptStrip.Proofs.FirstImpossible
import ScriptStrip.Proofs.SpansExact
import ScriptStrip.Proofs.Visits
/-
This file follows a visitor through the source of a script. What it is given starts farther and
farther to the right, and the scopes that it is told lie around it one inside the other.
-/

namespace ScriptStrip

/-- The first range reaches at least as far to both sides as the second one. -/
def Span.Covers (outer inner : Span) : Prop :=
  outer.start ≤ inner.start ∧ inner.stop ≤ outer.stop

/-- A span covers itself. -/
theorem Span.Covers.refl (span : Span) : span.Covers span := ⟨Nat.le_refl _, Nat.le_refl _⟩

/-- What is covered by a covered span is covered. -/
theorem Span.Covers.trans {outer middle inner : Span} (first : outer.Covers middle)
    (second : middle.Covers inner) : outer.Covers inner :=
  ⟨Nat.le_trans first.1 second.1, Nat.le_trans second.2 first.2⟩

/-- The script is everywhere, so it has no place in itself. -/
def Scope.span? : Scope → Option Span
  | script => none
  | function span | block span => some span

/-- A span that encloses tokens is not empty. -/
theorem Span.Encloses.nonempty {before after : TokenStream} {span : Span}
    (ordered : before.Ordered) (encloses : span.Encloses before after) : span.start < span.stop := by
  obtain ⟨inner, last, isAhead, rfl⟩ := encloses
  have inside : last ∈ before.ahead := by simp [isAhead]
  exact Nat.lt_of_le_of_lt (ordered.start_le last inside) (ordered.nonempty last inside)

namespace Visit

/-- The first visit is of something else and starts no later, and it ends either before the second
one starts or not before the second one ends. -/
structure Precedes (first second : Visit) : Prop where
  differs : first.visited ≠ second.visited
  start_le : first.visited.span.start ≤ second.visited.span.start
  apart : first.visited.span.Covers second.visited.span ∨
    first.visited.span.stop ≤ second.visited.span.start

/-- Behind the given scopes, the chain lists the scopes between the outer range and what is
visited, each of which covers everything behind it. -/
structure NestsIn (chain : ScopeChain) (outer : Span) (visit : Visit) : Prop where
  nonempty : visit.visited.span.start < visit.visited.span.stop
  nested : ∃ scopes, visit.chain = chain ++ scopes ∧ .script ∉ scopes ∧
    (outer :: (scopes.filterMap Scope.span? ++ [visit.visited.span])).Pairwise Span.Covers

variable {chain : ScopeChain} {outer inner : Span} {visit first second : Visit}

/-- A visit that is nested in a span is covered by it. -/
theorem NestsIn.covers (nests : visit.NestsIn chain outer) : outer.Covers visit.visited.span := by
  obtain ⟨scopes, _, _, nested⟩ := nests.nested
  exact List.rel_of_pairwise_cons nested (by simp)

/-- What lies in a range lies in a wider one as well. -/
theorem NestsIn.widen (nests : visit.NestsIn chain inner) (covers : outer.Covers inner) :
    visit.NestsIn chain outer := by
  obtain ⟨scopes, isChain, notScript, nested⟩ := nests.nested
  obtain ⟨around, inside⟩ := List.pairwise_cons.mp nested
  refine ⟨nests.nonempty, scopes, isChain, notScript, List.pairwise_cons.mpr ⟨?_, inside⟩⟩
  intro span isInside
  exact covers.trans (around span isInside)

/-- A scope that covers the inner range can be told apart from the scopes before it. -/
theorem NestsIn.open {scope : Scope} (isScope : scope.span? = some outer)
    (nests : visit.NestsIn (chain ++ [scope]) inner) (covers : outer.Covers inner) :
    visit.NestsIn chain outer := by
  obtain ⟨scopes, isChain, notScript, nested⟩ := (nests.widen covers).nested
  refine ⟨nests.nonempty, scope :: scopes, ?_, ?_, ?_⟩
  · rw [isChain, List.append_assoc, List.singleton_append]
  · rw [List.mem_cons, not_or]
    refine ⟨?_, notScript⟩
    rintro rfl
    cases isScope
  · rw [List.filterMap_cons, isScope]
    refine List.pairwise_cons.mpr ⟨?_, nested⟩
    rw [List.cons_append, List.forall_mem_cons]
    exact ⟨.refl outer, (List.pairwise_cons.mp nested).1⟩

/-- A visit precedes another that starts where it stops. -/
theorem Precedes.of_stop_le (nonempty : first.visited.span.start < first.visited.span.stop)
    (behind : first.visited.span.stop ≤ second.visited.span.start) : first.Precedes second := by
  have earlier := Nat.lt_of_lt_of_le nonempty behind
  refine ⟨fun same => ?_, Nat.le_of_lt earlier, .inr behind⟩
  rw [same] at earlier
  exact Nat.lt_irrefl _ earlier

end Visit

namespace Node

variable {node : Node} {nodes : List Node} {before after : TokenStream}

/-- The parts of an expression that are read lie in it like all of its parts. -/
theorem Located.readParts {expression : Expression} {before after : TokenStream}
    (located : Located (.expression expression) before after) :
    AllLocated expression.readParts before after := by
  cases expression with
  | assign target value span =>
      have parts := located.parts
      cases parts with
      | cons starts locatedTarget locatedValue =>
          exact (locatedTarget.readParts.within starts List.suffix_rfl).append List.suffix_rfl
            locatedValue
  | _ => exact located.parts

/-- What is given of a node lies in it, and the nodes that are given next lie in that. -/
theorem Located.opened (located : Located node before after) :
    ∃ start stop, node.visited.span.Encloses start stop ∧ start.ahead <:+ before.ahead ∧
      after.ahead <:+ stop.ahead ∧ AllLocated node.opened start stop := by
  have whole : node.span.Encloses before after ∧ AllLocated node.parts before after :=
    ⟨located.encloses, located.parts⟩
  cases node with
  | script | statement | block => exact ⟨_, _, whole.1, List.suffix_rfl, List.suffix_rfl, whole.2⟩
  | expression part =>
      exact ⟨_, _, whole.1, List.suffix_rfl, List.suffix_rfl, located.readParts⟩
  | branch part =>
      cases part with
      | braced inner =>
          obtain ⟨start, stop, locatedInner, starts, stops⟩ :=
            whole.2.of_mem (List.mem_singleton.mpr rfl)
          exact ⟨start, stop, locatedInner.encloses, starts, stops, locatedInner.parts⟩
      | single inner =>
          obtain ⟨start, stop, locatedInner, starts, stops⟩ :=
            whole.2.of_mem (List.mem_singleton.mpr rfl)
          exact ⟨start, stop, locatedInner.encloses, starts, stops, locatedInner.parts⟩
  | function definition =>
      obtain ⟨start, stop, locatedBody, starts, stops⟩ :=
        whole.2.of_mem (List.mem_singleton.mpr rfl)
      exact ⟨start, stop, locatedBody.encloses, starts, stops, locatedBody.parts⟩

/-- The parts of an expression are not whole scripts. -/
theorem isInner_of_mem_readParts {expression : Expression} (inside : node ∈ expression.readParts) :
    node.IsInner := by
  cases expression with
  | assign target value span =>
      rcases List.mem_append.mp inside with ofTarget | isValue
      · exact isInner_of_mem_readParts ofTarget
      · obtain rfl := List.mem_singleton.mp isValue
        trivial
  | _ =>
      have isPart : node ∈ (Node.expression _).parts := inside
      exact isInner_of_mem_parts isPart

/-- What is opened by a node is not a whole script. -/
theorem isInner_of_mem_opened {whole : Node} (inside : node ∈ whole.opened) : node.IsInner := by
  have ofItems {items : List Statement} (isItem : node ∈ items.map statement) : node.IsInner := by
    obtain ⟨item, _, rfl⟩ := List.mem_map.mp isItem
    trivial
  have ofStatement {part : Statement} (isPart : node ∈ Node.ofStatement part) : node.IsInner := by
    have isPart : node ∈ (Node.statement part).parts := isPart
    exact isInner_of_mem_parts isPart
  cases whole with
  | script | function | block => exact ofItems inside
  | statement part => exact ofStatement inside
  | expression part => exact isInner_of_mem_readParts inside
  | branch part =>
      cases part with
      | braced block => exact ofItems inside
      | single statement => exact ofStatement inside

/-- A node adds the scope that it covers itself, or none. -/
theorem scopes_cases (isInner : node.IsInner) (chain : ScopeChain) :
    node.scopes chain = chain ∨
      ∃ scope : Scope, scope.span? = some node.span ∧ node.scopes chain = chain ++ [scope] := by
  cases node with
  | script | branch => exact isInner.elim
  | statement | expression => exact .inl rfl
  | block part => exact .inr ⟨.block part.span, rfl, rfl⟩
  | function definition => exact .inr ⟨.function definition.span, rfl, rfl⟩

/-- The span of the node covers what is visited in it, and the scopes that are told lie between. -/
theorem Located.nestsIn {node : Node} {before after : TokenStream} (ordered : before.Ordered)
    (located : Located node before after) (isInner : node.IsInner) (chain : ScopeChain) :
    ∀ visit ∈ node.visits chain, visit.NestsIn chain node.span := by
  have within {visit : Visit} {range : Span} (nests : visit.NestsIn (node.scopes chain) range)
      (covers : node.span.Covers range) : visit.NestsIn chain node.span := by
    rcases scopes_cases isInner chain with same | ⟨scope, isScope, adds⟩
    · rw [same] at nests
      exact nests.widen covers
    · rw [adds] at nests
      exact nests.open isScope covers
  obtain ⟨start, stop, encloses, starts, stops, locatedParts⟩ := located.opened
  intro visit isVisit
  rw [visits_eq] at isVisit
  rcases List.mem_cons.mp isVisit with rfl | isDeeper
  · have nonempty := encloses.nonempty (ordered.of_suffix starts)
    refine within ⟨nonempty, [], by simp, by simp, ?_⟩
      (located.encloses.covers ordered starts encloses stops)
    simp [Span.Covers.refl]
  · obtain ⟨part, isPart, inPart⟩ := List.mem_flatMap.mp isDeeper
    obtain ⟨start', stop', locatedPart, starts', stops'⟩ := locatedParts.of_mem isPart
    have startsPart := starts'.trans starts
    have lower := height_lt_of_mem_opened isPart
    have nests := locatedPart.nestsIn (ordered.of_suffix startsPart) (isInner_of_mem_opened isPart)
      (node.scopes chain) visit inPart
    exact within nests
      (located.encloses.covers ordered startsPart locatedPart.encloses (stops.trans stops'))
termination_by node.height

/-- Of nodes that stand behind one another, the first is visited to its end before the next. -/
theorem AllLocated.inOrder (ordered : before.Ordered) (located : AllLocated nodes before after)
    (allInner : ∀ node ∈ nodes, node.IsInner) (chain : ScopeChain)
    (each : ∀ node ∈ nodes, (node.visits chain).Pairwise Visit.Precedes) :
    (nodes.flatMap (visits chain)).Pairwise Visit.Precedes := by
  rw [List.pairwise_flatMap]
  refine ⟨each, (located.apart ordered).imp_of_mem ?_⟩
  intro first second isFirst isSecond apart visit isVisit later isLater
  obtain ⟨start, _, locatedFirst, starts, _⟩ := located.of_mem isFirst
  obtain ⟨start', _, locatedSecond, starts', _⟩ := located.of_mem isSecond
  have nests := locatedFirst.nestsIn (ordered.of_suffix starts) (allInner first isFirst) chain
    visit isVisit
  have nestsLater := locatedSecond.nestsIn (ordered.of_suffix starts') (allInner second isSecond)
    chain later isLater
  apply Visit.Precedes.of_stop_le nests.nonempty
  have ends := nests.covers.2
  have begins := nestsLater.covers.1
  omega

/-- A node is visited before whatever is visited in it. -/
theorem precedes_of_mem_opened {part : Node} {chain scopes : ScopeChain} {visit : Visit}
    (isOpened : part ∈ node.opened) (inPart : visit ∈ part.visits chain)
    (covers : node.visited.span.Covers visit.visited.span) :
    Visit.Precedes ⟨scopes, node.visited⟩ visit := by
  refine ⟨fun same => ?_, covers.1, .inl covers⟩
  have lower := height_lt_of_mem_opened isOpened
  have notHigher := part.height_le_of_mem_visits _ inPart
  rw [← same, visited_height] at notHigher
  omega

/-- Whatever is visited in a node is visited in the order of the source. -/
theorem Located.inOrder {node : Node} {before after : TokenStream} (ordered : before.Ordered)
    (located : Located node before after) (chain : ScopeChain) :
    (node.visits chain).Pairwise Visit.Precedes := by
  obtain ⟨start, stop, encloses, starts, _, locatedParts⟩ := located.opened
  have orderedStart := ordered.of_suffix starts
  rw [visits_eq, List.pairwise_cons]
  constructor
  · intro visit isDeeper
    obtain ⟨part, isPart, inPart⟩ := List.mem_flatMap.mp isDeeper
    obtain ⟨start', _, locatedPart, starts', stops'⟩ := locatedParts.of_mem isPart
    have nests := locatedPart.nestsIn (orderedStart.of_suffix starts')
      (isInner_of_mem_opened isPart) (node.scopes chain) visit inPart
    have covers := encloses.covers orderedStart starts' locatedPart.encloses stops'
    have whole : node.visited.span.Covers visit.visited.span := Span.Covers.trans covers nests.covers
    exact precedes_of_mem_opened isPart inPart whole
  · apply locatedParts.inOrder orderedStart fun part => isInner_of_mem_opened
    intro part isPart
    obtain ⟨start', _, locatedPart, starts', _⟩ := locatedParts.of_mem isPart
    have lower := height_lt_of_mem_opened isPart
    exact locatedPart.inOrder (orderedStart.of_suffix starts') (node.scopes chain)
termination_by node.height

end Node

namespace TokenStream

variable {source : String} {stream stream' rest : TokenStream} {script : Script}

end TokenStream

namespace Script

/-- The second script is the first one with all of the offsets, where the parser keeps 32 bits of
each. Every node stands in the source where its span says. In a source of less than 4 GiB both
scripts are the same. -/
structure PlacedIn (source : String) (script placed : Script) : Prop where
  same : placed.placeless = script.placeless
  isExact : ∀ node : Node, node.IsBelow (.script placed) → node.HasExactSpan source
  isWhole : placed.span = ⟨0, Text.byteCount source.toList⟩
  kept : Text.byteCount source.toList < 0x100000000 → placed = script

variable {source : String} {stream rest : TokenStream} {script : Script}

end Script

end ScriptStrip
