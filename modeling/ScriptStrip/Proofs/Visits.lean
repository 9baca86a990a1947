import ScriptStrip.Proofs.Placeless
import ScriptStrip.Proofs.ReductionWalk
import ScriptStrip.Tree.Parts
/-
This file says what a visitor is given of a tree, in which order and with which scopes around it.
A visitor that only watches is given that and leaves the tree as it is.
-/

namespace ScriptStrip

/-- A part of a tree that a visitor is given. -/
inductive Visited where
  | expression (expression : Expression)
  | statement (statement : Statement)
  | items (span : Span) (items : List Statement)

/-- A visit knows the place of what it meets. -/
def Visited.span : Visited → Span
  | expression part => part.span
  | statement part => part.span
  | items span _ => span

/-- A visit knows the height of what it meets. -/
def Visited.height : Visited → Nat
  | expression part => part.height
  | statement part => part.height
  | items _ list => Statement.heightList list + 1

/-- A part of a tree and the scopes that it is given with. -/
structure Visit where
  chain : ScopeChain
  visited : Visited

/-- The nodes directly below the expression that are read. A target is written and not read, so
the nodes below it stand in its place. -/
def Expression.readParts : Expression → List Node
  | .assign target value _ => target.readParts ++ [.expression value]
  | expression => Node.ofExpression expression

namespace Node

/-- The scopes around what is in the node. The body of a function adds none of its own. -/
def scopes (chain : ScopeChain) : Node → ScopeChain
  | script _ => chain ++ [.script]
  | function definition => chain ++ [.function definition.span]
  | block part | branch (.braced part) => chain ++ [.block part.span]
  | statement _ | branch (.single _) | expression _ => chain

/-- What is given of the node itself. A block is given as its list of statements. -/
def visited : Node → Visited
  | script whole => .items whole.span whole.items
  | function definition => .items definition.body.span definition.body.items
  | block part | branch (.braced part) => .items part.span part.items
  | statement part | branch (.single part) => .statement part
  | expression part => .expression part

/-- The nodes that are given next. -/
def opened : Node → List Node
  | script whole => whole.items.map statement
  | function definition => definition.body.items.map statement
  | block part | branch (.braced part) => part.items.map statement
  | statement part | branch (.single part) => ofStatement part
  | expression part => part.readParts

/-- A node is as high as its tree. -/
def height : Node → Nat
  | script whole => whole.height
  | statement part => part.height
  | expression part => part.height
  | block part => part.height
  | branch part => part.height
  | function definition => definition.height

/-- Statements are lower than the list that they stand in. -/
theorem height_lt_of_mem_items {items : List Statement} {part : Node}
    (inside : part ∈ items.map statement) : part.height < Statement.heightList items + 1 := by
  obtain ⟨item, isItem, rfl⟩ := List.mem_map.mp inside
  exact Nat.lt_succ_of_le (Statement.height_le_heightList isItem)

@[simp] theorem height_node (branch : Branch) : branch.node.height = branch.height := by
  cases branch <;> rfl

/-- The parts of a statement are lower than the statement. -/
theorem height_lt_of_mem_ofStatement {whole : Statement} {part : Node}
    (inside : part ∈ ofStatement whole) : part.height < whole.height := by
  cases whole with
  | expression value span =>
      obtain rfl := List.mem_singleton.mp inside
      exact Nat.lt_succ_self _
  | declaration word items span =>
      obtain ⟨value, isValue, rfl⟩ := List.mem_map.mp inside
      obtain ⟨item, isItem, hasValue⟩ := List.mem_filterMap.mp isValue
      have lower := Declarator.height_le_heightList isItem
      rw [hasValue, Expression.heightOption] at lower
      exact Nat.lt_succ_of_le lower
  | function definition =>
      obtain rfl := List.mem_singleton.mp inside
      exact Nat.lt_succ_self _
  | conditional condition consequent alternate span =>
      simp only [ofStatement, List.mem_cons, Option.mem_toList, Option.map_eq_some_iff] at inside
      rw [Statement.height]
      rcases inside with rfl | rfl | ⟨branch, rfl, rfl⟩
      · rw [height]
        omega
      · rw [height_node]
        omega
      · rw [height_node, Branch.heightOption]
        omega
  | returning value span =>
      cases value with
      | none => cases inside
      | some value =>
          obtain rfl := List.mem_singleton.mp inside
          exact Nat.lt_succ_self _
  | block inner =>
      obtain rfl := List.mem_singleton.mp inside
      exact Nat.lt_succ_self _
  | empty span => cases inside

/-- The parts of an expression are lower than the expression. -/
theorem height_lt_of_mem_readParts {whole : Expression} {part : Node}
    (inside : part ∈ whole.readParts) : part.height < whole.height := by
  cases whole with
  | array items span =>
      obtain ⟨item, isItem, rfl⟩ := List.mem_map.mp inside
      exact Nat.lt_succ_of_le (Expression.height_le_heightList isItem)
  | object members span =>
      obtain ⟨member, isMember, rfl⟩ := List.mem_map.mp inside
      exact Nat.lt_succ_of_le (Member.height_le_heightList isMember)
  | function definition | group inner span | property parent name span
  | unary operator operand span =>
      obtain rfl := List.mem_singleton.mp inside
      exact Nat.lt_succ_self _
  | index parent key span =>
      have isPart : part = .expression parent ∨ part = .expression key := by
        simpa [Expression.readParts, ofExpression] using inside
      rw [Expression.height]
      rcases isPart with rfl | rfl
      all_goals
        rw [height]
        omega
  | binary left operator right span =>
      have isPart : part = .expression left ∨ part = .expression right := by
        simpa [Expression.readParts, ofExpression] using inside
      rw [Expression.height]
      rcases isPart with rfl | rfl
      all_goals
        rw [height]
        omega
  | call callee arguments span =>
      rw [Expression.height]
      rcases List.mem_cons.mp inside with rfl | isArgument
      · rw [height]
        omega
      · obtain ⟨argument, isIn, rfl⟩ := List.mem_map.mp isArgument
        have := Expression.height_le_heightList isIn
        rw [height]
        omega
  | assign target value span =>
      rw [Expression.height]
      rcases List.mem_append.mp inside with ofTarget | isValue
      · have := height_lt_of_mem_readParts ofTarget
        omega
      · obtain rfl := List.mem_singleton.mp isValue
        rw [height]
        omega
  | _ => cases inside

/-- What is opened by a node is lower than the node. -/
theorem height_lt_of_mem_opened {node part : Node} (inside : part ∈ node.opened) :
    part.height < node.height := by
  cases node with
  | script whole => exact height_lt_of_mem_items inside
  | statement whole => exact height_lt_of_mem_ofStatement inside
  | expression whole => exact height_lt_of_mem_readParts inside
  | block whole =>
      cases whole
      exact height_lt_of_mem_items inside
  | branch whole =>
      cases whole with
      | braced block =>
          cases block
          exact height_lt_of_mem_items inside
      | single statement => exact height_lt_of_mem_ofStatement inside
  | function definition =>
      obtain ⟨_, _, ⟨items, _⟩, _⟩ := definition
      exact height_lt_of_mem_items inside

@[simp] theorem visited_height (node : Node) : node.visited.height = node.height := by
  rcases node with _ | _ | _ | ⟨_, _⟩ | (⟨_, _⟩ | _) | ⟨_, _, ⟨_, _⟩, _⟩ <;> rfl

/-- Every node is given before the nodes in it, and these are given from left to right. -/
def visits (chain : ScopeChain) (node : Node) : List Visit :=
  ⟨node.scopes chain, node.visited⟩ ::
    node.opened.attach.flatMap fun part => part.val.visits (node.scopes chain)
termination_by node.height
decreasing_by exact height_lt_of_mem_opened part.property

/-- The visits of a node are its own one and those of what it opens. -/
theorem visits_eq (chain : ScopeChain) (node : Node) :
    node.visits chain = ⟨node.scopes chain, node.visited⟩ ::
      node.opened.flatMap (visits (node.scopes chain)) := by
  rw [visits, List.flatMap_subtype fun _ _ => rfl, List.unattach_attach]

end Node

/-- Everything that a visitor of the script is given. -/
def Script.visits (script : Script) : List Visit := (Node.script script).visits []

namespace Node

variable {node part inner whole : Node}

/-- The scopes make no difference to what is given. -/
theorem visited_visits (node : Node) (chain chain' : ScopeChain) :
    (node.visits chain).map Visit.visited = (node.visits chain').map Visit.visited := by
  have each : node.opened.map (fun part => (part.visits (node.scopes chain)).map Visit.visited) =
      node.opened.map fun part => (part.visits (node.scopes chain')).map Visit.visited := by
    apply List.map_congr_left
    intro part inside
    have lower := height_lt_of_mem_opened inside
    exact visited_visits part _ _
  rw [visits_eq, visits_eq, List.map_cons, List.map_cons, List.map_flatMap, List.map_flatMap,
    List.flatMap_def, List.flatMap_def, each]
termination_by node.height

/-- Every node is visited itself. -/
theorem visited_mem_visits (node : Node) (chain : ScopeChain) :
    node.visited ∈ (node.visits chain).map Visit.visited := by
  rw [visits_eq]
  exact List.mem_cons_self

/-- What is given of a node that is opened is given. -/
theorem mem_visits_of_mem_opened {chain chain' : ScopeChain} {visited : Visited}
    (isOpened : part ∈ whole.opened) (inside : visited ∈ (part.visits chain).map Visit.visited) :
    visited ∈ (whole.visits chain').map Visit.visited := by
  rw [visited_visits part chain (whole.scopes chain')] at inside
  rw [visits_eq, List.map_cons, List.map_flatMap]
  exact List.mem_cons_of_mem _ (List.mem_flatMap.mpr ⟨part, isOpened, inside⟩)

/-- A part of a node is opened, or it is the same list of statements, or it is a target. -/
theorem mem_parts_cases (isPart : part ∈ whole.parts) :
    part ∈ whole.opened ∨ (part.visited = whole.visited ∧ part.opened = whole.opened) ∨
      ∃ target value span, whole = .expression (.assign target value span) ∧
        part = .expression target := by
  cases whole with
  | script | statement | block => exact .inl isPart
  | expression expression =>
      cases expression with
      | assign target value span =>
          have isEither : part = .expression target ∨ part = .expression value := by
            simpa [parts, ofExpression] using isPart
          rcases isEither with rfl | rfl
          · exact .inr (.inr ⟨target, value, span, rfl, rfl⟩)
          · exact .inl (List.mem_append_right _ List.mem_cons_self)
      | _ => exact .inl isPart
  | branch branch =>
      obtain rfl := List.mem_singleton.mp isPart
      cases branch <;> exact .inr (.inl ⟨rfl, rfl⟩)
  | function definition =>
      obtain rfl := List.mem_singleton.mp isPart
      exact .inr (.inl ⟨rfl, rfl⟩)

/-- The node is an expression that an assignment in the other node writes to. -/
def IsTargetIn (inner whole : Node) : Prop :=
  ∃ target value span, inner = .expression target ∧
    (whole = .expression (.assign target value span) ∨
      (Node.expression (.assign target value span)).IsBelow whole)

/-- What lies below a part lies below the whole. -/
theorem IsBelow.trans (first : inner.IsBelow part) (second : part.IsBelow whole) :
    inner.IsBelow whole := by
  induction second with
  | part isPart => exact .deeper first isPart
  | deeper _ isPart step => exact .deeper step isPart

/-- Everything below a node is given with it, unless it is a target. -/
theorem IsBelow.visited (below : inner.IsBelow whole) (chain : ScopeChain) :
    inner.visited ∈ (whole.visits chain).map Visit.visited ∨ inner.IsTargetIn whole := by
  induction below with
  | @part whole isPart =>
      rcases mem_parts_cases isPart with isOpened | ⟨same, _⟩ | ⟨target, value, span, rfl, rfl⟩
      · exact .inl (mem_visits_of_mem_opened isOpened (inner.visited_mem_visits chain))
      · rw [same]
        exact .inl (whole.visited_mem_visits chain)
      · exact .inr ⟨target, value, span, rfl, .inl rfl⟩
  | @deeper middle whole below isPart step =>
      -- Where the part between is a target, only what is below it is given.
      rcases step with given | ⟨target, value, span, rfl, rfl | belowMiddle⟩
      · rcases mem_parts_cases isPart with isOpened | ⟨same, sameOpened⟩ |
          ⟨target, value, span, rfl, rfl⟩
        · exact .inl (mem_visits_of_mem_opened isOpened given)
        · rw [visits_eq, List.map_cons, same, sameOpened] at given
          rcases List.mem_cons.mp given with isHead | isDeeper
          · rw [isHead]
            exact .inl (whole.visited_mem_visits chain)
          · obtain ⟨visit, isVisit, isVisited⟩ := List.mem_map.mp isDeeper
            obtain ⟨part, isOpened, inPart⟩ := List.mem_flatMap.mp isVisit
            rw [← isVisited]
            exact .inl (mem_visits_of_mem_opened isOpened (List.mem_map_of_mem inPart))
        · rw [visits_eq, List.map_cons] at given
          rcases List.mem_cons.mp given with isTarget | isDeeper
          · refine .inr ⟨target, value, span, ?_, .inl rfl⟩
            rcases inner with _ | _ | _ | _ | (_ | _) | _ <;> cases isTarget
            rfl
          · obtain ⟨visit, isVisit, isVisited⟩ := List.mem_map.mp isDeeper
            obtain ⟨part, isOpened, inPart⟩ := List.mem_flatMap.mp isVisit
            rw [← isVisited]
            have isRead : part ∈ (Node.expression (.assign target value span)).opened :=
              List.mem_append_left _ isOpened
            exact .inl (mem_visits_of_mem_opened isRead (List.mem_map_of_mem inPart))
      · exact .inr ⟨target, value, span, rfl, .inr (.part isPart)⟩
      · exact .inr ⟨target, value, span, rfl, .inr (.deeper belowMiddle isPart)⟩

/-- What is given with a node is no higher than the node. -/
theorem height_le_of_mem_visits (node : Node) (chain : ScopeChain) {visit : Visit}
    (given : visit ∈ node.visits chain) : visit.visited.height ≤ node.height := by
  rw [visits_eq] at given
  rcases List.mem_cons.mp given with rfl | isDeeper
  · exact Nat.le_of_eq node.visited_height
  · obtain ⟨part, isOpened, inPart⟩ := List.mem_flatMap.mp isDeeper
    have lower := height_lt_of_mem_opened isOpened
    exact Nat.le_trans (part.height_le_of_mem_visits _ inPart) (Nat.le_of_lt lower)
termination_by node.height

end Node

/-- The scope without the place where it stands. -/
def Scope.placeless : Scope → Scope
  | script => script
  | function _ => function .null
  | block _ => block .null

/-- A visit may be seen without places. -/
def Visited.placeless : Visited → Visited
  | expression part => expression part.placeless
  | statement part => statement part.placeless
  | items _ list => items .null (Statement.placelessAll list)

/-- The visit without the places of what is visited and of the scopes around it. -/
def Visit.placeless (visit : Visit) : Visit :=
  ⟨visit.chain.map Scope.placeless, visit.visited.placeless⟩

namespace Node

/-- The node without the places that it was read from. -/
def placeless : Node → Node
  | script whole => script whole.placeless
  | statement part => statement part.placeless
  | expression part => expression part.placeless
  | block part => block part.placeless
  | branch part => branch part.placeless
  | function definition => function definition.placeless

theorem node_placeless (branch : Branch) : branch.placeless.node = branch.node.placeless := by
  cases branch <;> rfl

theorem ofStatement_placeless (whole : Statement) :
    ofStatement whole.placeless = (ofStatement whole).map placeless := by
  cases whole with
  | declaration word items span =>
      rw [Statement.placeless, ofStatement, ofStatement, Declarator.placelessAll_eq_map]
      induction items with
      | nil => rfl
      | cons first rest inductionHypothesis =>
          obtain ⟨name, value, span⟩ := first
          cases value <;>
            simpa [Declarator.placeless, Expression.placelessOption, placeless]
              using inductionHypothesis
  | conditional condition consequent alternate span =>
      cases alternate <;>
        simp [Statement.placeless, Branch.placelessOption, ofStatement, placeless, node_placeless]
  | returning value span => cases value <;> rfl
  | _ => rfl

end Node

/-- This visitor takes an action on everything that it is given and leaves it as it is. -/
def Visitor.watch {State : Type} (action : Visit → State → State) : Visitor State where
  onExpression chain expression := do
    modify (action ⟨chain, .expression expression⟩)
    return expression
  onStatement chain statement := do
    modify (action ⟨chain, .statement statement⟩)
    return statement
  onItems chain span items := do
    modify (action ⟨chain, .items span items⟩)
    return items

variable {State : Type} {action : Visit → State → State}

/-- The value comes back, and the action is taken on the visits from the first to the last. -/
def Watches {Value : Type} (action : Visit → State → State) (run : StateM State Value)
    (value : Value) (visits : List Visit) : Prop :=
  ∀ state, run.run state = (value, visits.foldl (fun state visit => action visit state) state)

namespace Watches

variable {Value Result : Type} {run : StateM State Value} {value : Value} {visits later : List Visit}

/-- A value alone takes no action. -/
theorem pure (value : Value) : Watches action (pure value) value [] := fun _ => rfl

/-- What is given comes first, and what is done with it comes next. -/
theorem given {next : Value → StateM State Result} {result : Result} (visit : Visit)
    (watches : Watches action (next value) result visits) :
    Watches action ((do modify (action visit); return value) >>= next) result (visit :: visits) :=
  fun state => watches (action visit state)

/-- Two runs take the actions of both. -/
theorem bind {next : Value → StateM State Result} {result : Result}
    (first : Watches action run value visits) (second : Watches action (next value) result later) :
    Watches action (run >>= next) result (visits ++ later) := by
  intro state
  have ranFirst := first state
  have ranSecond := second (visits.foldl (fun state visit => action visit state) state)
  rw [StateT.run_bind, ranFirst, List.foldl_append]
  exact ranSecond

/-- A function on the result takes no action. -/
theorem map (function : Value → Result) (watches : Watches action run value visits) :
    Watches action (function <$> run) (function value) visits := by
  intro state
  rw [StateT.run_map, watches state]
  rfl

/-- What is seen of a list is what is seen of its items. -/
theorem mapM {single : Value → StateM State Value} {seen : Value → List Visit} {values : List Value}
    (each : ∀ value ∈ values, Watches action (single value) value (seen value)) :
    Watches action (values.mapM single) values (values.flatMap seen) := by
  induction values with
  | nil => exact Watches.pure []
  | cons first rest inductionHypothesis =>
      rw [List.forall_mem_cons] at each
      rw [List.mapM_cons, List.flatMap_cons]
      exact each.1.bind ((inductionHypothesis each.2).map _)

/-- An optional value takes the actions of its value. -/
theorem option {single : Value → StateM State Value} {seen : Value → List Visit}
    {value : Option Value} (each : ∀ inner ∈ value, Watches action (single inner) inner (seen inner)) :
    Watches action (value.mapM single) value (value.toList.flatMap seen) := by
  cases value with
  | none => exact Watches.pure none
  | some inner =>
      rw [Option.toList_some, List.flatMap_singleton]
      exact (each inner rfl).map some

variable {seen : Node → List Visit} {part : Expression → StateM State Expression}
  {function : FunctionDef → StateM State FunctionDef}

/-- A list of expressions takes the actions of its items in order. -/
theorem expressions {items : List Expression}
    (each : ∀ item ∈ items, Watches action (part item) item (seen (.expression item))) :
    Watches action (items.mapM part) items ((items.map Node.expression).flatMap seen) := by
  rw [List.flatMap_map]
  exact mapM each

/-- An object takes the actions of its values in order. -/
theorem members {members : List Member} (each : ∀ member ∈ members,
      Watches action (part member.value) member.value (seen (.expression member.value))) :
    Watches action (members.mapM fun member => do return { member with value := ← part member.value })
      members ((members.map fun member => Node.expression member.value).flatMap seen) := by
  rw [List.flatMap_map]
  apply mapM
  rintro ⟨key, value, span⟩ inside
  rw [bind_pure_comp]
  exact (each _ inside).map fun value => (⟨key, value, span⟩ : Member)

/-- A declaration takes the actions of its initial values in order. -/
theorem declarators {items : List Declarator} (each : ∀ item ∈ items, ∀ value ∈ item.value,
      Watches action (part value) value (seen (.expression value))) :
    Watches action (items.mapM fun item => do return { item with value := ← item.value.mapM part })
      items (((items.filterMap Declarator.value).map Node.expression).flatMap seen) := by
  have sameSeen : ((items.filterMap Declarator.value).map Node.expression).flatMap seen =
      items.flatMap fun item => item.value.toList.flatMap fun value => seen (.expression value) := by
    clear each
    induction items with
    | nil => rfl
    | cons first rest inductionHypothesis =>
        cases hasValue : first.value <;> simp [hasValue, inductionHypothesis]
  rw [sameSeen]
  apply mapM
  rintro ⟨name, value, span⟩ inside
  rw [bind_pure_comp]
  exact (option (each _ inside)).map fun value => (⟨name, value, span⟩ : Declarator)

/-- An expression whose parts are watched is seen as its parts are, from left to right. -/
theorem traverseExpression (expression : Expression)
    (parts : ∀ inner, .expression inner ∈ expression.readParts →
      Watches action (part inner) inner (seen (.expression inner)))
    (functions : ∀ definition, .function definition ∈ expression.readParts →
      Watches action (function definition) definition (seen (.function definition))) :
    Watches action (expression.traverse part function) expression
      (expression.readParts.flatMap seen) := by
  cases expression with
  | array items span =>
      rw [Expression.traverse, bind_pure_comp]
      exact (expressions fun item inside => parts item (List.mem_map_of_mem inside)).map
        (Expression.array · span)
  | object members span =>
      rw [Expression.traverse, bind_pure_comp]
      have each : ∀ member ∈ members, .expression member.value ∈
          (Expression.object members span).readParts := fun member inside =>
        List.mem_map.mpr ⟨member, inside, rfl⟩
      exact (Watches.members fun member inside => parts member.value (each member inside)).map
        (Expression.object · span)
  | function definition =>
      rw [Expression.traverse]
      exact (functions definition List.mem_cons_self).bind (Watches.pure _)
  | group inner span =>
      rw [Expression.traverse]
      exact (parts inner List.mem_cons_self).bind (Watches.pure _)
  | property parent name span =>
      rw [Expression.traverse]
      exact (parts parent List.mem_cons_self).bind (Watches.pure _)
  | index parent key span =>
      rw [Expression.traverse]
      exact (parts parent List.mem_cons_self).bind
        ((parts key (List.mem_cons_of_mem _ List.mem_cons_self)).bind (Watches.pure _))
  | call callee arguments span =>
      rw [Expression.traverse]
      have each := expressions fun item inside =>
        parts item (List.mem_cons_of_mem _ (List.mem_map_of_mem inside))
      simp only [bind_pure_comp]
      exact (parts callee List.mem_cons_self).bind (each.map (Expression.call callee · span))
  | unary operator operand span =>
      rw [Expression.traverse]
      exact (parts operand List.mem_cons_self).bind (Watches.pure _)
  | binary left operator right span =>
      rw [Expression.traverse]
      exact (parts left List.mem_cons_self).bind
        ((parts right (List.mem_cons_of_mem _ List.mem_cons_self)).bind (Watches.pure _))
  | assign target value span =>
      rw [Expression.traverse, Expression.readParts, List.flatMap_append]
      have ofTarget := traverseExpression target
        (fun inner inside => parts inner (List.mem_append_left _ inside))
        (fun definition inside => functions definition (List.mem_append_left _ inside))
      exact ofTarget.bind
        ((parts value (List.mem_append_right _ List.mem_cons_self)).bind (Watches.pure _))
  | _ => exact Watches.pure _

/-- A branch takes the actions of its block or statement. -/
theorem traverseBranch {block : Block → StateM State Block}
    {statement : Statement → StateM State Statement} {branch : Branch}
    (blocks : ∀ inner, branch = .braced inner →
      Watches action (block inner) inner (seen (.block inner)))
    (statements : ∀ inner, branch = .single inner →
      Watches action (statement inner) inner (seen (.statement inner))) :
    Watches action (branch.traverse block statement) branch (seen branch.node) := by
  cases branch with
  | braced inner =>
      rw [Branch.traverse, bind_pure_comp]
      exact (blocks inner rfl).map Branch.braced
  | single inner =>
      rw [Branch.traverse, bind_pure_comp]
      exact (statements inner rfl).map Branch.single

/-- A statement whose parts are watched is seen as its parts are, from left to right. -/
theorem traverseStatement {block : Block → StateM State Block}
    {statement : Statement → StateM State Statement} (whole : Statement)
    (parts : ∀ inner, .expression inner ∈ Node.ofStatement whole →
      Watches action (part inner) inner (seen (.expression inner)))
    (functions : ∀ definition, .function definition ∈ Node.ofStatement whole →
      Watches action (function definition) definition (seen (.function definition)))
    (blocks : ∀ inner, .block inner ∈ Node.ofStatement whole →
      Watches action (block inner) inner (seen (.block inner)))
    (statements : ∀ inner, .statement inner ∈ Node.ofStatement whole →
      Watches action (statement inner) inner (seen (.statement inner))) :
    Watches action (whole.traverse part function block statement) whole
      ((Node.ofStatement whole).flatMap seen) := by
  have branches (branch : Branch) (inside : branch.node ∈ Node.ofStatement whole) :
      Watches action (branch.traverse block statement) branch (seen branch.node) := by
    apply traverseBranch
    · rintro inner rfl
      exact blocks inner inside
    · rintro inner rfl
      exact statements inner inside
  cases whole with
  | expression value span =>
      rw [Statement.traverse]
      exact (parts value List.mem_cons_self).bind (Watches.pure _)
  | declaration word items span =>
      have each : ∀ item ∈ items, ∀ value ∈ item.value, .expression value ∈
          Node.ofStatement (.declaration word items span) := fun item inside value hasValue =>
        List.mem_map_of_mem (List.mem_filterMap.mpr ⟨item, inside, hasValue⟩)
      rw [Statement.traverse, bind_pure_comp]
      exact (declarators fun item inside value hasValue =>
        parts value (each item inside value hasValue)).map (Statement.declaration word · span)
  | function definition =>
      rw [Statement.traverse]
      exact (functions definition List.mem_cons_self).bind (Watches.pure _)
  | conditional condition consequent alternate span =>
      have ofAlternate : Watches action (alternate.mapM (Branch.traverse block statement)) alternate
          ((alternate.map Branch.node).toList.flatMap seen) := by
        cases alternate with
        | none => exact Watches.pure none
        | some branch =>
            rw [Option.map_some, Option.toList_some, List.flatMap_singleton]
            exact (branches branch (by simp [Node.ofStatement])).map some
      rw [Statement.traverse]
      simp only [bind_pure_comp]
      exact (parts condition List.mem_cons_self).bind
        ((branches consequent (List.mem_cons_of_mem _ List.mem_cons_self)).bind
          (ofAlternate.map (Statement.conditional condition consequent · span)))
  | returning value span =>
      cases value with
      | none => exact Watches.pure _
      | some value =>
          rw [Statement.traverse]
          exact ((parts value List.mem_cons_self).map some).bind (Watches.pure _)
  | block inner =>
      rw [Statement.traverse]
      exact (blocks inner List.mem_cons_self).bind (Watches.pure _)
  | empty span => exact Watches.pure _

end Watches

namespace Visitor

/-- Trees of so many levels are seen whole. -/
structure SeesTo (action : Visit → State → State) (levels : Nat) : Prop where
  expressions : ∀ chain expression, expression.height ≤ levels →
    Watches action ((watch action).expressionWithin levels chain expression) expression
      ((Node.expression expression).visits chain)
  statements : ∀ chain statement, statement.height ≤ levels →
    Watches action ((watch action).statementWithin levels chain statement) statement
      ((Node.statement statement).visits chain)
  items : ∀ chain span items, Statement.heightList items < levels →
    Watches action ((watch action).itemsWithin levels chain span items) items
      (⟨chain, .items span items⟩ :: (items.map Node.statement).flatMap (Node.visits chain))

namespace SeesTo

variable {levels : Nat}

/-- The body of a function is seen as a list of statements. -/
theorem functions (sees : SeesTo action levels) (chain : ScopeChain) (definition : FunctionDef)
    (lower : definition.height ≤ levels) :
    Watches action (do
        let items ← (watch action).itemsWithin levels
          (chain ++ [.function definition.span]) definition.body.span definition.body.items
        return { definition with body := { definition.body with items } })
      definition ((Node.function definition).visits chain) := by
  obtain ⟨name, parameters, ⟨items, span⟩, whole⟩ := definition
  rw [Node.visits_eq, bind_pure_comp]
  exact (sees.items _ _ _ lower).map fun items =>
    (⟨name, parameters, ⟨items, span⟩, whole⟩ : FunctionDef)

/-- A block takes the actions of its statements. -/
theorem blocks (sees : SeesTo action levels) (chain : ScopeChain) (block : Block)
    (lower : block.height ≤ levels) :
    Watches action (do
        let items ← (watch action).itemsWithin levels (chain ++ [.block block.span]) block.span
          block.items
        return { block with items })
      block ((Node.block block).visits chain) := by
  obtain ⟨items, span⟩ := block
  rw [Node.visits_eq, bind_pure_comp]
  exact (sees.items _ _ _ lower).map fun items => (⟨items, span⟩ : Block)

/-- With one level more the watch sees to expressions that are one higher. -/
theorem expressions_succ (sees : SeesTo action levels) (chain : ScopeChain)
    (expression : Expression) (lower : expression.height ≤ levels + 1) :
    Watches action ((watch action).expressionWithin (levels + 1) chain expression) expression
      ((Node.expression expression).visits chain) := by
  have below (part : Node) (inside : part ∈ expression.readParts) : part.height ≤ levels := by
    have := Node.height_lt_of_mem_readParts inside
    omega
  rw [expressionWithin, Node.visits_eq]
  have parts := Watches.traverseExpression expression
    (fun inner inside => sees.expressions chain inner (below _ inside))
    (fun definition inside => sees.functions chain definition (below _ inside))
  exact Watches.given _ parts

/-- With one level more the watch sees to statements that are one higher. -/
theorem statements_succ (sees : SeesTo action levels) (chain : ScopeChain)
    (statement : Statement) (lower : statement.height ≤ levels + 1) :
    Watches action ((watch action).statementWithin (levels + 1) chain statement) statement
      ((Node.statement statement).visits chain) := by
  have below (part : Node) (inside : part ∈ Node.ofStatement statement) :
      part.height ≤ levels := by
    have := Node.height_lt_of_mem_ofStatement inside
    omega
  rw [statementWithin, Node.visits_eq]
  have parts := Watches.traverseStatement statement
    (fun inner inside => sees.expressions chain inner (below _ inside))
    (fun definition inside => sees.functions chain definition (below _ inside))
    (fun inner inside => sees.blocks chain inner (below _ inside))
    (fun inner inside => sees.statements chain inner (below _ inside))
  exact Watches.given _ parts

/-- With one level more the watch sees to lists that are one higher. -/
theorem items_succ (sees : SeesTo action levels) (chain : ScopeChain) (span : Span)
    (items : List Statement) (lower : Statement.heightList items ≤ levels) :
    Watches action ((watch action).itemsWithin (levels + 1) chain span items) items
      (⟨chain, .items span items⟩ :: (items.map Node.statement).flatMap (Node.visits chain)) := by
  rw [itemsWithin, List.flatMap_map]
  have each := Watches.mapM fun item inside =>
    sees.statements chain item (Nat.le_trans (Statement.height_le_heightList inside) lower)
  exact Watches.given _ each

end SeesTo

end Visitor

end ScriptStrip
