import ScriptStrip.Proofs.Findings
import ScriptStrip.Proofs.Inventory
import ScriptStrip.Proofs.NodeInduction
import ScriptStrip.Proofs.Stricter
/-
This file shows that a pass which only knows the flags of the build mode takes nothing out of a
script but the calls that ask for them.
-/

namespace ScriptStrip

/-- A node that is neither a leaf nor parentheses, a property or a call, without the nodes below
it. -/
inductive Landmark where
  | statement (form : StatementForm)
  | array (size : Nat)
  | object (keys : List PropertyKey)
  | function (name : Option String) (parameters : List String)
  | index
  | unary (operator : UnaryOperator)
  | binary (operator : BinaryOperator)
  | assign
deriving DecidableEq, Repr

/-- Landmarks are all expressions but names, properties, calls, groups and constants. -/
def Expression.landmark? : Expression → Option Landmark
  | .array items _ => some (.array items.length)
  | .object members _ => some (.object (members.map Member.key))
  | .function definition => some (.function definition.name definition.parameters)
  | .index .. => some .index
  | .unary operator .. => some (.unary operator)
  | .binary _ operator .. => some (.binary operator)
  | .assign .. => some .assign
  | _ => none

/-- The form of a statement is its kind, without its parts. -/
def Statement.form : Statement → StatementForm
  | .expression .. => .expression
  | .declaration word .. => .declaration word
  | .function _ => .function
  | .conditional _ _ alternate _ => .conditional alternate.isSome
  | .returning value _ => .returning value.isSome
  | .block _ => .block
  | .empty _ => .empty

namespace Node

/-- The node and all nodes below it, each of them before the nodes below it. -/
def nodes (node : Node) : List Node :=
  node :: node.parts.attach.flatMap fun ⟨part, _⟩ => part.nodes
termination_by sizeOf node
decreasing_by exact sizeOf_parts ‹_›

/-- The nodes of a tree are its root and those of its parts. -/
theorem nodes_eq (node : Node) : node.nodes = node :: node.parts.flatMap nodes := by
  rw [nodes]
  simp

/-- The nodes of a tree are its root and whatever lies below it. -/
theorem mem_nodes_iff {inner whole : Node} :
    inner ∈ whole.nodes ↔ inner = whole ∨ inner.IsBelow whole := by
  induction whole using Node.induction with
  | step whole inductionHypothesis =>
      rw [nodes_eq, List.mem_cons, List.mem_flatMap]
      refine or_congr_right ⟨?_, fun below => ?_⟩
      · rintro ⟨part, isPart, inside⟩
        rcases (inductionHypothesis part isPart).mp inside with rfl | below
        · exact .part isPart
        · exact .deeper below isPart
      · cases below with
        | part isPart => exact ⟨inner, isPart, (inductionHypothesis inner isPart).mpr (.inl rfl)⟩
        | deeper below isPart =>
            exact ⟨_, isPart, (inductionHypothesis _ isPart).mpr (.inr below)⟩

/-- What the node is, with its span, if it is a landmark. -/
def landmark? : Node → Option (Landmark × Span)
  | expression part => part.landmark?.map (·, part.span)
  | statement part => some (.statement part.form, part.span)
  | _ => none

/-- Only some nodes are calls. -/
def call? : Node → Option Expression
  | expression (.call callee arguments span) => some (.call callee arguments span)
  | _ => none

/-- A call has a callee. -/
def callee? : Node → Option Expression
  | expression (.call callee _ _) => some callee
  | _ => none

/-- The node is a call that a pass unwraps. -/
def IsAssertion (node : Node) : Prop := ∃ callee ∈ node.callee?, callee.IsAssertion

instance : DecidablePred IsAssertion :=
  fun node => inferInstanceAs (Decidable (∃ callee ∈ node.callee?, callee.IsAssertion))

/-- Neither the node nor a node below it is an assertion. -/
def AssertsNothing (node : Node) : Prop := ∀ inner ∈ node.nodes, ¬ inner.IsAssertion

/-- A part of a tree without assertions has none. -/
theorem AssertsNothing.part {part whole : Node} (nothing : whole.AssertsNothing)
    (isPart : part ∈ whole.parts) : part.AssertsNothing := by
  intro inner inside
  apply nothing
  rw [nodes_eq]
  exact List.mem_cons_of_mem _ (List.mem_flatMap_of_mem isPart inside)

/-- The node is neither a landmark nor a call. -/
structure IsSlight (node : Node) : Prop where
  landmark : node.landmark? = none
  call : node.call? = none

/-- The first node becomes the second one in a pass that changes only what is below it. -/
structure BecomesPartly (configuration : Configuration) (before after : Node) : Prop where
  landmark : after.landmark? = before.landmark?
  call : after.call? =
    before.call?.map fun call => (call.reducedParts configuration).value

/-- The second list of nodes is what a pass leaves of the first one when it puts values in place of
so many flags. -/
inductive Folds (configuration : Configuration) : Nat → List Node → List Node → Prop where
  | nil : Folds configuration 0 [] []
  | keep {flags : Nat} {node left : Node} {before after : List Node}
      (becomes : BecomesPartly configuration node left)
      (folds : Folds configuration flags before after) :
      Folds configuration flags (node :: before) (left :: after)
  | lose {flags : Nat} {node : Node} {before after : List Node} (slight : node.IsSlight)
      (folds : Folds configuration flags before after) :
      Folds configuration flags (node :: before) after
  | gain {flags : Nat} {node : Node} {before after : List Node} (slight : node.IsSlight)
      (folds : Folds configuration flags before after) :
      Folds configuration flags before (node :: after)
  | call {flags : Nat} {call : Expression} {before after : List Node}
      (isCall : (expression call).call? = some call) (calls : configuration.CallsMode call)
      (folds : Folds configuration flags before after) :
      Folds configuration (flags + 1) (expression call :: before) after

namespace Folds

variable {configuration : Configuration} {flags flags' : Nat}
  {before after before' after' lost : List Node}

/-- Two lists that are folded are folded together, and their flags are added. -/
theorem append (folds : Folds configuration flags before after)
    (folds' : Folds configuration flags' before' after') :
    Folds configuration (flags + flags') (before ++ before') (after ++ after') := by
  induction folds with
  | nil =>
      rw [Nat.zero_add]
      exact folds'
  | keep becomes _ inductionHypothesis => exact .keep becomes inductionHypothesis
  | lose slight _ inductionHypothesis => exact .lose slight inductionHypothesis
  | gain slight _ inductionHypothesis => exact .gain slight inductionHypothesis
  | call isCall calls _ inductionHypothesis =>
      rw [Nat.add_right_comm]
      exact .call isCall calls inductionHypothesis

/-- Slight nodes may be lost in front. -/
theorem lose_all (slight : ∀ node ∈ lost, node.IsSlight)
    (folds : Folds configuration flags before after) :
    Folds configuration flags (lost ++ before) after := by
  induction lost with
  | nil => exact folds
  | cons node rest inductionHypothesis =>
      rw [List.forall_mem_cons] at slight
      exact .lose slight.1 (inductionHypothesis slight.2)

/-- The landmarks stay where they are. -/
theorem landmarks (folds : Folds configuration flags before after) :
    after.filterMap landmark? = before.filterMap landmark? := by
  induction folds with
  | nil => rfl
  | keep becomes _ inductionHypothesis =>
      rw [List.filterMap_cons, List.filterMap_cons, becomes.landmark, inductionHypothesis]
  | lose slight _ inductionHypothesis =>
      rw [List.filterMap_cons_none slight.landmark, inductionHypothesis]
  | gain slight _ inductionHypothesis =>
      rw [List.filterMap_cons_none slight.landmark, inductionHypothesis]
  | @call flags call before after isCall calls _ inductionHypothesis =>
      have isCallNode : (expression call).landmark? = none := by
        cases call <;> first | rfl | cases isCall
      rw [List.filterMap_cons_none isCallNode, inductionHypothesis]

/-- Each flag costs one call, and the other calls stay where they are. -/
theorem calls (folds : Folds configuration flags before after) :
    ∃ kept missing : List Expression,
      kept.Sublist (before.filterMap call?) ∧ missing.Sublist (before.filterMap call?) ∧
        (before.filterMap call?).Perm (kept ++ missing) ∧ missing.length = flags ∧
        (∀ call ∈ missing, configuration.CallsMode call) ∧
        after.filterMap call? = kept.map fun call => (call.reducedParts configuration).value := by
  induction folds with
  | nil => exact ⟨[], [], .slnil, .slnil, .nil, rfl, by simp, rfl⟩
  | @keep flags node left before after becomes _ inductionHypothesis =>
      obtain ⟨kept, missing, ofKept, ofMissing, perm, sameLength, callMode, left⟩ :=
        inductionHypothesis
      rw [List.filterMap_cons, List.filterMap_cons, becomes.call]
      cases node.call? with
      | none => exact ⟨kept, missing, ofKept, ofMissing, perm, sameLength, callMode, left⟩
      | some call =>
          refine ⟨call :: kept, missing, ofKept.cons_cons call, ofMissing.cons call,
            perm.cons call, sameLength, callMode, ?_⟩
          simp [left]
  | lose slight _ inductionHypothesis =>
      rw [List.filterMap_cons_none slight.call]
      exact inductionHypothesis
  | gain slight _ inductionHypothesis =>
      rw [List.filterMap_cons_none slight.call]
      exact inductionHypothesis
  | @call flags call before after isCall calls _ inductionHypothesis =>
      obtain ⟨kept, missing, ofKept, ofMissing, perm, sameLength, callMode, left⟩ :=
        inductionHypothesis
      rw [List.filterMap_cons_some isCall]
      refine ⟨kept, call :: missing, ofKept.cons call, ofMissing.cons_cons call,
        (perm.cons call).trans List.perm_middle.symm, congrArg (· + 1) sameLength,
        List.forall_mem_cons.mpr ⟨calls, callMode⟩, left⟩

end Folds

/-- This is `Folds` for the nodes with all that is below them. -/
def FoldsAll (configuration : Configuration) (flags : Nat) (before after : List Node) : Prop :=
  Folds configuration flags (before.flatMap nodes) (after.flatMap nodes)

namespace FoldsAll

variable {configuration : Configuration} {flags flags' : Nat} {node left : Node}
  {before after : List Node}

/-- Nothing is folded into nothing. -/
theorem nil : FoldsAll configuration 0 [] [] := Folds.nil

/-- Each tree of the list is folded into its own. -/
theorem cons (folds : Folds configuration flags node.nodes left.nodes)
    (foldsAll : FoldsAll configuration flags' before after) :
    FoldsAll configuration (flags + flags') (node :: before) (left :: after) :=
  folds.append foldsAll

/-- One folded tree is a list of them. -/
theorem single (folds : Folds configuration flags node.nodes left.nodes) :
    FoldsAll configuration flags [node] [left] := folds.append .nil

/-- Two folded trees are a list of them. -/
theorem pair {first second : Node} (folds : Folds configuration flags node.nodes left.nodes)
    (folds' : Folds configuration flags' first.nodes second.nodes) :
    FoldsAll configuration (flags + flags') [node, first] [left, second] :=
  cons folds (single folds')

end FoldsAll

/-- A tree is folded if its root becomes the other root and its parts are folded. -/
theorem Folds.whole {configuration : Configuration} {flags : Nat} {node left : Node}
    (becomes : BecomesPartly configuration node left)
    (parts : FoldsAll configuration flags node.parts left.parts) :
    Folds configuration flags node.nodes left.nodes := by
  rw [nodes_eq node, nodes_eq left]
  exact .keep becomes parts

end Node

open Node

section

variable {configuration : Configuration}

/-- A plain expression has slight nodes only. -/
theorem Expression.IsPlain.slight {expression : Expression} (plain : expression.IsPlain) :
    ∀ node ∈ (Node.expression expression).nodes, node.IsSlight := by
  induction plain with
  | property name span _ inductionHypothesis =>
      rw [nodes_eq, List.forall_mem_cons]
      exact ⟨⟨rfl, rfl⟩, by simpa [parts, ofExpression] using inductionHypothesis⟩
  | group span _ inductionHypothesis =>
      rw [nodes_eq, List.forall_mem_cons]
      exact ⟨⟨rfl, rfl⟩, by simpa [parts, ofExpression] using inductionHypothesis⟩
  | _ =>
      rw [nodes_eq, List.forall_mem_cons]
      exact ⟨⟨rfl, rfl⟩, by simp [parts, ofExpression]⟩

/-- Parentheses are slight. -/
theorem Expression.folds_of_ungrouped {expression : Expression} {flags : Nat}
    {before after : List Node}
    (folds : Folds configuration flags
      ((Node.expression expression.ungrouped).nodes ++ before) after) :
    Folds configuration flags ((Node.expression expression).nodes ++ before) after := by
  fun_induction Expression.ungrouped expression with
  | case1 inner span inductionHypothesis =>
      rw [nodes_eq, List.cons_append]
      refine .lose ⟨rfl, rfl⟩ ?_
      simpa [parts, ofExpression] using inductionHypothesis folds
  | case2 expression other => exact folds

/-- One call is lost where the flags of the build mode are asked for. -/
theorem Configuration.CallsMode.folds {expression : Expression}
    (calls : configuration.CallsMode expression) :
    Folds configuration 1 (Node.expression expression).nodes [] := by
  have again := calls
  obtain ⟨callee, arguments, accessor, ⟨span, isCall⟩, ⟨span', isProperty⟩, ⟨span'', isReference⟩,
    plain⟩ := calls
  have ofArguments : Folds configuration 0 ((arguments.map Node.expression).flatMap nodes) [] := by
    rw [← List.append_nil (List.flatMap _ _)]
    refine .lose_all ?_ .nil
    intro node inside
    simp only [List.mem_flatMap, List.mem_map] at inside
    obtain ⟨_, ⟨argument, isArgument, rfl⟩, inNodes⟩ := inside
    exact (plain argument isArgument).slight node inNodes
  rw [← List.append_nil (nodes _)]
  apply Expression.folds_of_ungrouped
  rw [isCall, nodes_eq, List.append_nil]
  refine .call rfl ?_ ?_
  · exact ⟨callee, arguments, accessor, ⟨span, rfl⟩, ⟨span', isProperty⟩, ⟨span'', isReference⟩,
      plain⟩
  · show Folds configuration 0 ((Node.expression callee).nodes ++ _) []
    apply Expression.folds_of_ungrouped
    rw [isProperty, nodes_eq, List.cons_append]
    refine .lose ⟨rfl, rfl⟩ ?_
    show Folds configuration 0 (((Node.expression accessor).nodes ++ []) ++ _) []
    rw [List.append_nil]
    apply Expression.folds_of_ungrouped
    rw [isReference, nodes_eq]
    exact .lose ⟨rfl, rfl⟩ ofArguments

/-- Parentheses hide no assertion. -/
theorem Node.AssertsNothing.ungrouped {expression : Expression}
    (nothing : (Node.expression expression).AssertsNothing) :
    (Node.expression expression.ungrouped).AssertsNothing := by
  fun_induction Expression.ungrouped expression with
  | case1 inner span inductionHypothesis =>
      exact inductionHypothesis (nothing.part (List.mem_singleton_self _))
  | case2 expression other => exact nothing

/-- Without suffixes and assertions, an expression is kept or the value of a flag takes its
place. -/
theorem Expression.reduced_cases {expression : Expression}
    (noSuffixes : configuration.suffixes = [])
    (nothing : (Node.expression expression).AssertsNothing) :
    expression.reduced configuration = .filled <$> expression.reducedParts configuration ∨
      ∃ parent name span value, expression.ungrouped = .property parent name span ∧
        configuration.CallsMode parent ∧ expression.reduced configuration =
          ⟨.filled (.boolean value expression.span), { replaced := 1 }⟩ := by
  have finds := configuration.finds expression
  rw [Expression.reduced_eq]
  generalize configuration.finding? expression = finding at finds
  cases finds with
  | stripped shape strips =>
      obtain ⟨_, _, suffix, inside, _⟩ := strips
      rw [noSuffixes] at inside
      cases inside
  | asserted shape kept asserts =>
      have ungrouped := nothing.ungrouped
      rw [shape] at ungrouped
      exact absurd ⟨_, rfl, asserts⟩ (ungrouped _ (mem_nodes_iff.mpr (.inl rfl)))
  | flag shape production calls known => exact .inr ⟨_, _, _, _, shape, calls, rfl⟩
  | _ => exact .inl rfl

/-- Without suffixes and assertions every expression stays where it is. -/
theorem Expression.reduced_filled {expression : Expression}
    (noSuffixes : configuration.suffixes = [])
    (nothing : (Node.expression expression).AssertsNothing) :
    (expression.reduced configuration).value =
      .filled (expression.reduced configuration).value.expression := by
  rcases Expression.reduced_cases noSuffixes nothing with isKept | ⟨_, _, _, _, _, _, isFlag⟩
  · rw [isKept]
    rfl
  · rw [isFlag]
    rfl

mutual

/-- An expression is folded into its reduced one. -/
theorem Expression.folds_reduced (noSuffixes : configuration.suffixes = [])
    (expression : Expression) (nothing : (Node.expression expression).AssertsNothing) :
    Folds configuration (expression.reduced configuration).counts.replaced
      (Node.expression expression).nodes
      (Node.expression (expression.reduced configuration).value.expression).nodes := by
  rcases Expression.reduced_cases noSuffixes nothing with
    isKept | ⟨parent, name, span, value, shape, calls, isFlag⟩
  · rw [isKept, Counted.counts_map]
    exact Expression.folds_reducedParts noSuffixes expression nothing
  · rw [isFlag]
    show Folds configuration 1 _ (Node.expression (.boolean value expression.span)).nodes
    rw [nodes_eq (.expression (.boolean _ _)), ← List.append_nil (nodes _)]
    refine .gain ⟨rfl, rfl⟩ (Expression.folds_of_ungrouped ?_)
    rw [shape, nodes_eq]
    refine .lose ⟨rfl, rfl⟩ ?_
    show Folds configuration 1 (((Node.expression parent).nodes ++ []) ++ []) []
    rw [List.append_nil, List.append_nil]
    exact calls.folds
termination_by (sizeOf expression, 1)

/-- The target of an assignment is kept, so this is about any expression. -/
theorem Expression.folds_reducedParts (noSuffixes : configuration.suffixes = [])
    (expression : Expression) (nothing : (Node.expression expression).AssertsNothing) :
    Folds configuration (expression.reducedParts configuration).counts.replaced
      (Node.expression expression).nodes
      (Node.expression (expression.reducedParts configuration).value).nodes := by
  cases expression with
  | array items span =>
      obtain ⟨folds, sameLength⟩ := Expression.folds_reducedAll noSuffixes items fun item inside =>
        nothing.part (List.mem_map_of_mem inside)
      rw [Expression.reducedParts]
      refine .whole ⟨?_, rfl⟩ folds
      show some (Landmark.array _, span) = some (.array items.length, span)
      rw [sameLength]
  | object members span =>
      obtain ⟨folds, sameKeys⟩ := Member.folds_reducedAll noSuffixes members fun member inside =>
        nothing.part (List.mem_map.mpr ⟨member, inside, rfl⟩)
      rw [Expression.reducedParts]
      refine .whole ⟨?_, rfl⟩ folds
      show some (Landmark.object _, span) = some (.object (members.map Member.key), span)
      rw [sameKeys]
  | function definition =>
      obtain ⟨folds, same⟩ := FunctionDef.folds_reduced noSuffixes definition
        (nothing.part (List.mem_singleton_self _))
      rw [Expression.reducedParts]
      exact .whole ⟨same, rfl⟩ (.single folds)
  | group inner span =>
      have folds := Expression.folds_reduced noSuffixes inner
        (nothing.part (List.mem_singleton_self _))
      rw [Expression.reducedParts]
      exact .whole ⟨rfl, rfl⟩ (.single folds)
  | property parent name span =>
      have folds := Expression.folds_reduced noSuffixes parent
        (nothing.part (List.mem_singleton_self _))
      rw [Expression.reducedParts]
      exact .whole ⟨rfl, rfl⟩ (.single folds)
  | index parent key span =>
      have ofParent := Expression.folds_reduced noSuffixes parent
        (nothing.part List.mem_cons_self)
      have ofKey := Expression.folds_reduced noSuffixes key
        (nothing.part (List.mem_cons_of_mem _ List.mem_cons_self))
      rw [Expression.reducedParts]
      exact .whole ⟨rfl, rfl⟩ (.pair ofParent ofKey)
  | call callee arguments span =>
      have ofCallee := Expression.folds_reduced noSuffixes callee (nothing.part List.mem_cons_self)
      obtain ⟨ofArguments, _⟩ := Expression.folds_reducedAll noSuffixes arguments
        fun argument inside =>
          nothing.part (List.mem_cons_of_mem _ (List.mem_map_of_mem inside))
      -- A call stays a call, so it is still counted as one of the calls in their order.
      have isCall : ((Expression.call callee arguments span).reducedParts configuration).value =
          .call (callee.reduced configuration).value.expression
            (Expression.reducedAll configuration arguments).value span := by
        rw [Expression.reducedParts]
        rfl
      refine .whole ⟨?_, ?_⟩ ?_
      · rw [isCall]
        rfl
      · show _ = some ((Expression.call callee arguments span).reducedParts configuration).value
        rw [isCall]
        rfl
      · rw [Expression.reducedParts]
        exact .cons ofCallee ofArguments
  | unary operator operand span =>
      have folds := Expression.folds_reduced noSuffixes operand
        (nothing.part (List.mem_singleton_self _))
      rw [Expression.reducedParts]
      exact .whole ⟨rfl, rfl⟩ (.single folds)
  | binary left operator right span =>
      have ofLeft := Expression.folds_reduced noSuffixes left (nothing.part List.mem_cons_self)
      have ofRight := Expression.folds_reduced noSuffixes right
        (nothing.part (List.mem_cons_of_mem _ List.mem_cons_self))
      rw [Expression.reducedParts]
      exact .whole ⟨rfl, rfl⟩ (.pair ofLeft ofRight)
  | assign target value span =>
      -- The target itself is not offered to the pass, only its parts are.
      have ofTarget := Expression.folds_reducedParts noSuffixes target
        (nothing.part List.mem_cons_self)
      have ofValue := Expression.folds_reduced noSuffixes value
        (nothing.part (List.mem_cons_of_mem _ List.mem_cons_self))
      rw [Expression.reducedParts]
      exact .whole ⟨rfl, rfl⟩ (.pair ofTarget ofValue)
  | _ =>
      rw [Expression.reducedParts] <;> first | exact .whole ⟨rfl, rfl⟩ .nil | simp
termination_by (sizeOf expression, 0)

/-- Items are folded into their reduced ones. -/
theorem Expression.folds_reducedAll (noSuffixes : configuration.suffixes = [])
    (items : List Expression) (nothing : ∀ item ∈ items, (Node.expression item).AssertsNothing) :
    FoldsAll configuration (Expression.reducedAll configuration items).counts.replaced
        (items.map .expression)
        ((Expression.reducedAll configuration items).value.map .expression) ∧
      (Expression.reducedAll configuration items).value.length = items.length := by
  cases items with
  | nil =>
      rw [Expression.reducedAll]
      exact ⟨.nil, rfl⟩
  | cons first rest =>
      rw [List.forall_mem_cons] at nothing
      have ofFirst := Expression.folds_reduced noSuffixes first nothing.1
      obtain ⟨ofRest, sameLength⟩ := Expression.folds_reducedAll noSuffixes rest nothing.2
      rw [Expression.reducedAll]
      exact ⟨.cons ofFirst ofRest, congrArg (· + 1) sameLength⟩
termination_by (sizeOf items, 0)

/-- Members are folded into their reduced ones. -/
theorem Member.folds_reducedAll (noSuffixes : configuration.suffixes = []) (members : List Member)
    (nothing : ∀ member ∈ members, (Node.expression member.value).AssertsNothing) :
    FoldsAll configuration (Member.reducedAll configuration members).counts.replaced
        (members.map fun member => .expression member.value)
        ((Member.reducedAll configuration members).value.map fun member =>
          .expression member.value) ∧
      (Member.reducedAll configuration members).value.map Member.key = members.map Member.key := by
  cases members with
  | nil =>
      rw [Member.reducedAll]
      exact ⟨.nil, rfl⟩
  | cons first rest =>
      rw [List.forall_mem_cons] at nothing
      cases first with
      | mk key value span =>
          have ofValue := Expression.folds_reduced noSuffixes value nothing.1
          obtain ⟨ofRest, sameKeys⟩ := Member.folds_reducedAll noSuffixes rest nothing.2
          rw [Member.reducedAll]
          exact ⟨.cons ofValue ofRest, congrArg (key :: ·) sameKeys⟩
termination_by (sizeOf members, 0)

/-- A function is folded into its reduced one. -/
theorem FunctionDef.folds_reduced (noSuffixes : configuration.suffixes = [])
    (definition : FunctionDef) (nothing : (Node.function definition).AssertsNothing) :
    Folds configuration (definition.reduced configuration).counts.replaced
        (Node.function definition).nodes
        (Node.function (definition.reduced configuration).value).nodes ∧
      (Node.expression (.function (definition.reduced configuration).value)).landmark? =
        (Node.expression (.function definition)).landmark? := by
  cases definition with
  | mk name parameters body span =>
      have folds := Block.folds_reduced noSuffixes body (nothing.part (List.mem_singleton_self _))
      rw [FunctionDef.reduced]
      exact ⟨.whole ⟨rfl, rfl⟩ (.single folds), rfl⟩
termination_by (sizeOf definition, 0)

/-- A block is folded into its reduced one. -/
theorem Block.folds_reduced (noSuffixes : configuration.suffixes = []) (block : Block)
    (nothing : (Node.block block).AssertsNothing) :
    Folds configuration (block.reduced configuration).counts.replaced (Node.block block).nodes
      (Node.block (block.reduced configuration).value).nodes := by
  cases block with
  | mk items span =>
      have folds := Statement.folds_reducedAll noSuffixes items fun item inside =>
        nothing.part (List.mem_map_of_mem inside)
      rw [Block.reduced]
      exact .whole ⟨rfl, rfl⟩ folds
termination_by (sizeOf block, 0)

/-- A statement is kept and folded into its reduced one. -/
theorem Statement.folds_reduced (noSuffixes : configuration.suffixes = [])
    (statement : Statement) (nothing : (Node.statement statement).AssertsNothing) :
    ∃ left, (statement.reduced configuration).value = some left ∧
      Folds configuration (statement.reduced configuration).counts.replaced
        (Node.statement statement).nodes (Node.statement left).nodes := by
  cases statement with
  | expression value span =>
      have ofValue := nothing.part (List.mem_singleton_self _)
      have folds := Expression.folds_reduced noSuffixes value ofValue
      have filled := Expression.reduced_filled noSuffixes ofValue
      rw [Statement.reduced, Counted.value_bind, Counted.counts_bind, filled]
      exact ⟨_, rfl, .whole ⟨rfl, rfl⟩ (.single folds)⟩
  | declaration word items span =>
      have folds := Declarator.folds_reducedAll noSuffixes items fun value inside =>
        nothing.part (List.mem_map_of_mem inside)
      rw [Statement.reduced]
      exact ⟨_, rfl, .whole ⟨rfl, rfl⟩ folds⟩
  | function definition =>
      obtain ⟨folds, _⟩ := FunctionDef.folds_reduced noSuffixes definition
        (nothing.part (List.mem_singleton_self _))
      rw [Statement.reduced]
      refine ⟨_, rfl, .whole ⟨?_, rfl⟩ (.single folds)⟩
      exact congrArg (fun span => some (Landmark.statement .function, span))
        (FunctionDef.span_reduced definition)
  | conditional condition consequent alternate span =>
      have ofCondition := Expression.folds_reduced noSuffixes condition
        (nothing.part List.mem_cons_self)
      have ofConsequent := Branch.folds_reduced noSuffixes consequent
        (nothing.part (List.mem_cons_of_mem _ List.mem_cons_self))
      obtain ⟨ofAlternate, sameForm⟩ := Branch.folds_reducedOption noSuffixes alternate
        fun branch inside => nothing.part (List.mem_cons_of_mem _ (List.mem_cons_of_mem _
          (by cases inside; exact List.mem_singleton_self _)))
      rw [Statement.reduced]
      refine ⟨_, rfl, .whole ⟨?_, rfl⟩ (.cons ofCondition (.cons ofConsequent ofAlternate))⟩
      show some (Landmark.statement (.conditional _), span) =
        some (.statement (.conditional alternate.isSome), span)
      rw [sameForm]
  | returning value span =>
      obtain ⟨folds, sameForm⟩ := Expression.folds_reducedOption noSuffixes value
        fun inner inside => nothing.part (by cases inside; exact List.mem_singleton_self _)
      rw [Statement.reduced]
      refine ⟨_, rfl, .whole ⟨?_, rfl⟩ folds⟩
      show some (Landmark.statement (.returning _), span) =
        some (.statement (.returning value.isSome), span)
      rw [sameForm]
  | block inner =>
      have folds := Block.folds_reduced noSuffixes inner (nothing.part (List.mem_singleton_self _))
      rw [Statement.reduced]
      refine ⟨_, rfl, .whole ⟨?_, rfl⟩ (.single folds)⟩
      exact congrArg (fun span => some (Landmark.statement .block, span)) (Block.span_reduced inner)
  | empty span =>
      rw [Statement.reduced]
      exact ⟨_, rfl, .whole ⟨rfl, rfl⟩ .nil⟩
termination_by (sizeOf statement, 0)

/-- An optional expression is folded into its reduced one. -/
theorem Expression.folds_reducedOption (noSuffixes : configuration.suffixes = [])
    (value : Option Expression)
    (nothing : ∀ inner ∈ value, (Node.expression inner).AssertsNothing) :
    FoldsAll configuration (Expression.reducedOption configuration value).counts.replaced
        (value.map .expression).toList
        ((Expression.reducedOption configuration value).value.map .expression).toList ∧
      (Expression.reducedOption configuration value).value.isSome = value.isSome := by
  cases value with
  | none =>
      rw [Expression.reducedOption]
      exact ⟨.nil, rfl⟩
  | some value =>
      have folds := Expression.folds_reduced noSuffixes value (nothing value rfl)
      rw [Expression.reducedOption]
      exact ⟨.single folds, rfl⟩
termination_by (sizeOf value, 0)

/-- Statements are folded into their reduced ones, and none is dropped. -/
theorem Statement.folds_reducedAll (noSuffixes : configuration.suffixes = [])
    (items : List Statement) (nothing : ∀ item ∈ items, (Node.statement item).AssertsNothing) :
    FoldsAll configuration (Statement.reducedAll configuration items).counts.replaced
      (items.map .statement)
      ((Statement.reducedAll configuration items).value.map .statement) := by
  cases items with
  | nil =>
      rw [Statement.reducedAll]
      exact .nil
  | cons first rest =>
      rw [List.forall_mem_cons] at nothing
      obtain ⟨left, isLeft, ofFirst⟩ := Statement.folds_reduced noSuffixes first nothing.1
      have ofRest := Statement.folds_reducedAll noSuffixes rest nothing.2
      rw [Statement.reducedAll, Counted.value_bind, Counted.counts_bind, isLeft]
      exact .cons ofFirst ofRest
termination_by (sizeOf items, 0)

/-- Declared names are folded into their reduced ones. -/
theorem Declarator.folds_reducedAll (noSuffixes : configuration.suffixes = [])
    (items : List Declarator)
    (nothing : ∀ value ∈ items.filterMap Declarator.value,
      (Node.expression value).AssertsNothing) :
    FoldsAll configuration (Declarator.reducedAll configuration items).counts.replaced
      ((items.filterMap Declarator.value).map .expression)
      (((Declarator.reducedAll configuration items).value.filterMap Declarator.value).map
        .expression) := by
  cases items with
  | nil =>
      rw [Declarator.reducedAll]
      exact .nil
  | cons first rest =>
      cases first with
      | mk name value span =>
          cases value with
          | none =>
              have ofRest := Declarator.folds_reducedAll noSuffixes rest nothing
              rw [Declarator.reducedAll, Declarator.reduced, pure_bind, Counted.counts_bind]
              exact ofRest
          | some value =>
              have ofBoth := List.forall_mem_cons.mp nothing
              have ofValue := Expression.folds_reduced noSuffixes value ofBoth.1
              have ofRest := Declarator.folds_reducedAll noSuffixes rest ofBoth.2
              have filled := Expression.reduced_filled noSuffixes ofBoth.1
              rw [Declarator.reducedAll, Declarator.reduced, Counted.value_bind,
                Counted.counts_bind, Counted.value_bind, Counted.counts_bind, filled]
              exact .cons ofValue ofRest
termination_by (sizeOf items, 0)

/-- No branch is emptied. -/
theorem Branch.folds_reduced (noSuffixes : configuration.suffixes = []) (branch : Branch)
    (nothing : branch.node.AssertsNothing) :
    Folds configuration (branch.reduced configuration).counts.replaced branch.node.nodes
      (branch.reduced configuration).value.node.nodes := by
  cases branch with
  | braced block =>
      have folds := Block.folds_reduced noSuffixes block nothing
      rw [Branch.reduced]
      exact folds
  | single statement =>
      obtain ⟨left, isLeft, folds⟩ := Statement.folds_reduced noSuffixes statement nothing
      rw [Branch.reduced, Counted.value_bind, Counted.counts_bind, isLeft]
      exact folds
termination_by (sizeOf branch, 0)

/-- An optional branch is folded into its reduced one. -/
theorem Branch.folds_reducedOption (noSuffixes : configuration.suffixes = [])
    (branch : Option Branch) (nothing : ∀ inner ∈ branch, inner.node.AssertsNothing) :
    FoldsAll configuration (Branch.reducedOption configuration branch).counts.replaced
        (branch.map Branch.node).toList
        ((Branch.reducedOption configuration branch).value.map Branch.node).toList ∧
      (Branch.reducedOption configuration branch).value.isSome = branch.isSome := by
  cases branch with
  | none =>
      rw [Branch.reducedOption]
      exact ⟨.nil, rfl⟩
  | some branch =>
      have folds := Branch.folds_reduced noSuffixes branch (nothing branch rfl)
      rw [Branch.reducedOption]
      exact ⟨.single folds, rfl⟩
termination_by (sizeOf branch, 0)

end

namespace Script

/-- The calls of the script in the order of the source. -/
def calls (script : Script) : List Expression := (Node.script script).nodes.filterMap call?

/-- The landmarks of the script in the order of the source. -/
def landmarks (script : Script) : List (Landmark × Span) :=
  (Node.script script).nodes.filterMap landmark?

/-- A script is folded into its reduced one. -/
theorem folds_reduced {script : Script} (noSuffixes : configuration.suffixes = [])
    (nothing : (Node.script script).AssertsNothing) :
    Folds configuration (script.reduced configuration).counts.replaced
      (Node.script script).nodes (Node.script (script.reduced configuration).value).nodes :=
  .whole ⟨rfl, rfl⟩ (Statement.folds_reducedAll noSuffixes script.items fun _ inside =>
    nothing.part (List.mem_map_of_mem inside))

/-- Without suffixes and assertions, each flag that a pass puts a value for costs the script one
call of `getMode`. Every other call stays, and so do the statements, functions, arrays, objects,
computed accesses, operators and assignments, all of them in their order and with their spans. -/
theorem rewrite_folds_modes {script : Script} (noSuffixes : configuration.suffixes = [])
    (noAssertions : ∀ node : Node, node.IsBelow (.script script) → ¬ node.IsAssertion) :
    (script.rewrite configuration).1.calls.length +
        (script.rewrite configuration).2.statistics.replaced = script.calls.length ∧
      (∃ kept missing : List Expression,
        kept.Sublist script.calls ∧ missing.Sublist script.calls ∧
          script.calls.Perm (kept ++ missing) ∧
          missing.length = (script.rewrite configuration).2.statistics.replaced ∧
          (∀ call ∈ missing, configuration.CallsMode call) ∧
          (script.rewrite configuration).1.calls =
            kept.map fun call => (call.reducedParts configuration).value) ∧
      (script.rewrite configuration).1.landmarks = script.landmarks := by
  have nothing : (Node.script script).AssertsNothing := by
    intro node inside
    rcases mem_nodes_iff.mp inside with rfl | below
    · rintro ⟨callee, ⟨⟩, _⟩
    · exact noAssertions node below
  have folds := folds_reduced noSuffixes nothing
  rw [← fst_rewrite, ← statistics_rewrite] at folds
  obtain ⟨kept, missing, ofKept, ofMissing, perm, flags, callMode, left⟩ := folds.calls
  refine ⟨?_, ⟨kept, missing, ofKept, ofMissing, perm, flags, callMode, left⟩, folds.landmarks⟩
  have sameLength : script.calls.length = kept.length + missing.length :=
    perm.length_eq.trans List.length_append
  rw [calls, left, List.length_map, sameLength, flags]

/-- A call of `getMode` with a call for its argument stays. -/
theorem rewrite_folds_modes_argument : ∃ script,
    parse "a=($mode.getMode)(b).test;c($mode.getMode(d()).test)" = .ok script ∧
      (script.rewrite ⟨true, [], "$mode"⟩).1.calls.length +
        (script.rewrite ⟨true, [], "$mode"⟩).2.statistics.replaced = script.calls.length ∧
      (∃ kept missing : List Expression,
        kept.Sublist script.calls ∧ missing.Sublist script.calls ∧
          script.calls.Perm (kept ++ missing) ∧
          missing.length = (script.rewrite ⟨true, [], "$mode"⟩).2.statistics.replaced ∧
          (∀ call ∈ missing, Configuration.CallsMode ⟨true, [], "$mode"⟩ call) ∧
          (script.rewrite ⟨true, [], "$mode"⟩).1.calls =
            kept.map fun call => (call.reducedParts ⟨true, [], "$mode"⟩).value) ∧
      (script.rewrite ⟨true, [], "$mode"⟩).1.landmarks = script.landmarks := by
  have accepted : (parse "a=($mode.getMode)(b).test;c($mode.getMode(d()).test)").toOption.any
      (fun script => (Node.script script).nodes.all fun node => !node.IsAssertion) = true := by
    cbv
  cases parsed : parse "a=($mode.getMode)(b).test;c($mode.getMode(d()).test)" with
  | error error =>
      rw [parsed] at accepted
      cases accepted
  | ok script =>
      refine ⟨script, rfl, rewrite_folds_modes rfl fun node below => ?_⟩
      rw [parsed] at accepted
      have notAssertion := List.all_eq_true.mp accepted node (mem_nodes_iff.mpr (.inr below))
      simpa using notAssertion

end Script

end

end ScriptStrip
