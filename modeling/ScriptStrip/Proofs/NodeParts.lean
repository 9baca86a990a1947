import ScriptStrip.Proofs.ParserSound
import ScriptStrip.Proofs.TokenPlaces
import ScriptStrip.Proofs.Transplant
import ScriptStrip.Tree.Parts
/-
This file says where the nodes of a tree lie among the tokens. A node lies between two streams if
its tokens do and its span covers these tokens and no others.
-/

namespace ScriptStrip

/-- The tokens stand behind one another, and none of them is empty. -/
structure TokenStream.Ordered (stream : TokenStream) : Prop where
  precedes : stream.ahead.Pairwise Token.Precedes
  nonempty : ∀ token ∈ stream.ahead, token.span.start < token.span.stop

/-- The span starts with the first of the tokens between the streams and stops with the last. -/
def Span.Encloses (before after : TokenStream) (span : Span) : Prop :=
  ∃ inner last, before.ahead = inner ++ last :: after.ahead ∧
    span = ⟨before.front.span.start, last.span.stop⟩

namespace TokenStream.Ordered

variable {stream : TokenStream}

/-- An end of a stream in order is in order. -/
theorem of_suffix {rest : TokenStream} (ordered : stream.Ordered)
    (ends : rest.ahead <:+ stream.ahead) : rest.Ordered :=
  ⟨ordered.precedes.sublist ends.sublist, fun token inside => ordered.nonempty token (ends.mem inside)⟩

/-- A step keeps the order. -/
theorem advance (ordered : stream.Ordered) : stream.advance.Ordered :=
  ordered.of_suffix (List.tail_suffix _)

/-- The token in front starts before all others. -/
theorem start_le (ordered : stream.Ordered) :
    ∀ token ∈ stream.ahead, stream.front.span.start ≤ token.span.start := by
  intro token inside
  have precedes := ordered.precedes
  unfold TokenStream.front
  cases shape : stream.ahead with
  | nil =>
      rw [shape] at inside
      cases inside
  | cons first rest =>
      rw [shape] at inside precedes
      rcases List.mem_cons.mp inside with rfl | later
      · exact Nat.le_refl _
      · exact Nat.le_of_lt (List.rel_of_pairwise_cons precedes later).1

/-- The last of some tokens stops behind all of them. -/
theorem stop_le {inner after : List Token} {last : Token} (ordered : stream.Ordered)
    (isAhead : stream.ahead = inner ++ last :: after) :
    ∀ token ∈ inner ++ [last], token.span.stop ≤ last.span.stop := by
  intro token inside
  rcases List.mem_append.mp inside with earlier | isLast
  · have precedes := ordered.precedes
    rw [isAhead, List.pairwise_append] at precedes
    have before := precedes.2.2 token earlier last List.mem_cons_self
    have nonempty := ordered.nonempty last (by simp [isAhead])
    exact Nat.le_trans before.2 (Nat.le_of_lt nonempty)
  · obtain rfl := List.mem_singleton.mp isLast
    exact Nat.le_refl _

end TokenStream.Ordered

namespace Span.Encloses

variable {before middle next after : TokenStream} {first second : Span}

/-- The span of a token encloses just this token. -/
theorem of_token (inside : before.front.lexeme ≠ .endOfSource) :
    Encloses before before.advance before.front.span :=
  ⟨[], before.front, TokenStream.ahead_eq_cons inside, rfl⟩

/-- What is enclosed ends at an end of the stream. -/
theorem ends (encloses : first.Encloses before after) : after.ahead <:+ before.ahead := by
  obtain ⟨inner, last, isAhead, _⟩ := encloses
  exact ⟨inner ++ [last], by rw [isAhead]; simp⟩

/-- A span within the tokens of another one is covered by it. -/
theorem covers (ordered : before.Ordered) (encloses : first.Encloses before after)
    (starts : middle.ahead <:+ before.ahead) (enclosesInner : second.Encloses middle next)
    (stops : after.ahead <:+ next.ahead) : first.start ≤ second.start ∧ second.stop ≤ first.stop := by
  obtain ⟨inner, last, isAhead, rfl⟩ := encloses
  obtain ⟨inner', last', isMiddle, rfl⟩ := enclosesInner
  obtain ⟨skipped, isBefore⟩ := starts
  obtain ⟨left, isNext⟩ := stops
  have frontInside : middle.front ∈ before.ahead := by
    rw [← isBefore, TokenStream.front, isMiddle]
    cases inner' <;> simp
  have sameTokens : inner ++ [last] = skipped ++ inner' ++ last' :: left := by
    refine (List.append_left_inj after.ahead).mp ?_
    rw [List.append_assoc, List.singleton_append, ← isAhead, ← isBefore, isMiddle, ← isNext]
    simp
  refine ⟨ordered.start_le middle.front frontInside, ordered.stop_le isAhead last' ?_⟩
  rw [sameTokens]
  simp

/-- Spans of tokens that follow one another do not overlap. -/
theorem stop_le_start (ordered : before.Ordered) (encloses : first.Encloses before middle)
    (follows : next.ahead <:+ middle.ahead) (enclosesNext : second.Encloses next after) :
    first.stop ≤ second.start := by
  obtain ⟨inner, last, isAhead, rfl⟩ := encloses
  obtain ⟨inner', last', isNext, rfl⟩ := enclosesNext
  obtain ⟨skipped, isMiddle⟩ := follows
  have frontInside : next.front ∈ middle.ahead := by
    rw [← isMiddle, TokenStream.front, isNext]
    cases inner' <;> simp
  have precedes := ordered.precedes
  rw [isAhead, List.pairwise_append] at precedes
  exact (List.rel_of_pairwise_cons precedes.2.1 frontInside).2

/-- The union of two spans encloses all that lies between them. -/
theorem union (ordered : before.Ordered) (encloses : first.Encloses before middle)
    (follows : next.ahead <:+ middle.ahead) (enclosesNext : second.Encloses next after) :
    (first.union second).Encloses before after := by
  have apart := stop_le_start ordered encloses follows enclosesNext
  have nextOrdered := ordered.of_suffix (follows.trans encloses.ends)
  obtain ⟨inner, last, isAhead, rfl⟩ := encloses
  obtain ⟨inner', last', isNext, rfl⟩ := enclosesNext
  obtain ⟨skipped, isMiddle⟩ := follows
  have lastInside : last' ∈ next.ahead := by simp [isNext]
  have startsBefore := nextOrdered.start_le last' lastInside
  have nonempty := nextOrdered.nonempty last' lastInside
  have firstNonempty := ordered.nonempty last (by simp [isAhead])
  have firstStarts := ordered.start_le last (by simp [isAhead])
  refine ⟨inner ++ last :: (skipped ++ inner'), last', ?_, ?_⟩
  · rw [isAhead, ← isMiddle, isNext]
    simp
  · rw [Span.union, Span.mk.injEq]
    dsimp only at apart ⊢
    omega

end Span.Encloses

namespace Node

/-- A node is well shaped if its tree is. -/
def WellShaped : Node → Prop
  | script whole => whole.WellShaped
  | statement part => part.WellShaped
  | expression part => part.WellShaped
  | block part => part.WellShaped
  | branch part => part.WellShaped
  | function definition => definition.WellShaped

/-- The tokens that the span of the node covers. -/
def spelling : Node → Spelling
  | script whole => Spelling.ofStatements whole.items
  | statement part => Spelling.ofBody part
  | expression part => Spelling.ofExpression part
  | block part => Spelling.ofBlock part
  | branch part => Spelling.ofBranchBody part
  | function definition => Spelling.ofFunction definition

@[simp] theorem span_node (branch : Branch) : branch.node.span = branch.span := by
  cases branch <;> rfl

@[simp] theorem spelling_node (branch : Branch) :
    branch.node.spelling = Spelling.ofBranchBody branch := by
  cases branch with
  | braced block => rfl
  | single statement => rw [Spelling.ofBranchBody]; rfl

mutual

/-- The node and all nodes below it lie where their spans say. -/
inductive Located : Node → TokenStream → TokenStream → Prop
  | intro {node : Node} {before after : TokenStream} (wellShaped : node.WellShaped)
      (spelled : node.spelling before after) (encloses : node.span.Encloses before after)
      (parts : AllLocated node.parts before after) : Located node before after

/-- The nodes lie behind one another somewhere between the two streams. -/
inductive AllLocated : List Node → TokenStream → TokenStream → Prop
  | nil {before after : TokenStream} (ends : after.ahead <:+ before.ahead) :
      AllLocated [] before after
  | cons {first : Node} {rest : List Node} {before start stop after : TokenStream}
      (starts : start.ahead <:+ before.ahead) (located : Located first start stop)
      (locatedRest : AllLocated rest stop after) : AllLocated (first :: rest) before after

end

variable {node : Node} {nodes others : List Node} {before middle next after : TokenStream}

/-- A located node is well shaped. -/
theorem Located.wellShaped (located : Located node before after) : node.WellShaped := by
  cases located with
  | intro wellShaped _ _ _ => exact wellShaped

/-- The span of a located node encloses its tokens. -/
theorem Located.encloses (located : Located node before after) :
    node.span.Encloses before after := by
  cases located with
  | intro _ _ encloses _ => exact encloses

/-- A located node is spelled by its tokens. -/
theorem Located.spelled (located : Located node before after) : node.spelling before after := by
  cases located with
  | intro _ spelled _ _ => exact spelled

/-- The parts of a located node are located inside it. -/
theorem Located.parts (located : Located node before after) :
    AllLocated node.parts before after := by
  cases located with
  | intro _ _ _ parts => exact parts

/-- One located node is a list of located nodes. -/
theorem Located.all (located : Located node before after) : AllLocated [node] before after :=
  .cons List.suffix_rfl located (.nil List.suffix_rfl)

/-- Several nodes end at an end of the stream. -/
theorem AllLocated.ends (located : AllLocated nodes before after) : after.ahead <:+ before.ahead := by
  induction nodes generalizing before with
  | nil =>
      cases located with
      | nil ends => exact ends
  | cons first rest step =>
      cases located with
      | cons starts located locatedRest =>
          exact ((step locatedRest).trans located.encloses.ends).trans starts

/-- Nodes that follow other nodes can be listed behind them. -/
theorem AllLocated.append (located : AllLocated nodes before middle)
    (follows : next.ahead <:+ middle.ahead) (locatedNext : AllLocated others next after) :
    AllLocated (nodes ++ others) before after := by
  induction nodes generalizing before with
  | nil =>
      cases located with
      | nil ends =>
          cases locatedNext with
          | nil ends' => exact .nil ((ends'.trans follows).trans ends)
          | cons starts located locatedRest =>
              exact .cons ((starts.trans follows).trans ends) located locatedRest
  | cons first rest step =>
      cases located with
      | cons starts located locatedRest => exact .cons starts located (step locatedRest)

/-- The nodes lie between streams that are farther apart as well. -/
theorem AllLocated.within (located : AllLocated nodes middle next)
    (starts : middle.ahead <:+ before.ahead) (ends : after.ahead <:+ next.ahead) :
    AllLocated nodes before after := by
  have padded := (AllLocated.nil starts).append List.suffix_rfl (located.append ends (.nil List.suffix_rfl))
  rwa [List.nil_append, List.append_nil] at padded

end Node

end ScriptStrip
