import ScriptStrip.Proofs.Yields
/-
This file shows that what a visitor keeps true of its state stays true on a walk. The number of
rewritings that a pass logs is the number that it counts.
-/

namespace ScriptStrip

variable {State Value Result : Type} {invariant : State → Prop}

/-- What holds of a state before the action holds after it. -/
def Keeps (invariant : State → Prop) (action : StateM State Value) : Prop :=
  ∀ state, invariant state → invariant (action.run state).2

namespace Keeps

/-- A value alone changes no state. -/
theorem pure (value : Value) : Keeps invariant (pure value) := fun _ holds => holds

/-- Two actions in a row keep what both of them keep. -/
theorem bind {action : StateM State Value} {next : Value → StateM State Result}
    (first : Keeps invariant action) (second : ∀ value, Keeps invariant (next value)) :
    Keeps invariant (action >>= next) :=
  fun state holds => second _ _ (first state holds)

/-- A function on the result changes no state. -/
theorem map (function : Value → Result) {action : StateM State Value}
    (keeps : Keeps invariant action) : Keeps invariant (function <$> action) :=
  fun state holds => keeps state holds

/-- An action on every item keeps what each single one keeps. -/
theorem mapM {single : Value → StateM State Result} (each : ∀ value, Keeps invariant (single value))
    (values : List Value) : Keeps invariant (values.mapM single) := by
  induction values with
  | nil => exact .pure []
  | cons first rest inductionHypothesis =>
      rw [List.mapM_cons]
      exact (each first).bind fun _ => inductionHypothesis.bind fun _ => .pure _

/-- An action that drops items keeps what each single one keeps. -/
theorem filterMapM {single : Value → StateM State (Option Result)}
    (each : ∀ value, Keeps invariant (single value)) (values : List Value) :
    Keeps invariant (values.filterMapM single) := by
  induction values with
  | nil => exact .pure []
  | cons first rest inductionHypothesis =>
      rw [List.filterMapM_cons]
      refine (each first).bind fun left => ?_
      cases left with
      | none => exact inductionHypothesis
      | some kept => exact inductionHypothesis.bind fun _ => .pure _

/-- An action on an optional value keeps what it keeps on a value. -/
theorem option {single : Value → StateM State Result}
    (each : ∀ value, Keeps invariant (single value)) (value : Option Value) :
    Keeps invariant (value.mapM single) := by
  cases value with
  | none => exact .pure none
  | some inner => exact (each inner).map some

variable {part : Expression → StateM State Expression}
  {function : FunctionDef → StateM State FunctionDef} {block : Block → StateM State Block}
  {statement : Statement → StateM State Statement}

/-- A traversal of an expression keeps what the actions on its parts keep. -/
theorem traverseExpression (parts : ∀ expression, Keeps invariant (part expression))
    (functions : ∀ definition, Keeps invariant (function definition)) (expression : Expression) :
    Keeps invariant (expression.traverse part function) := by
  cases expression with
  | array items span => exact (mapM parts items).bind fun _ => .pure _
  | object members span =>
      refine (mapM (fun member => ?_) members).bind fun _ => .pure _
      exact (parts member.value).bind fun _ => .pure _
  | function definition => exact (functions definition).bind fun _ => .pure _
  | group inner span => exact (parts inner).bind fun _ => .pure _
  | property parent name span => exact (parts parent).bind fun _ => .pure _
  | index parent key span => exact (parts parent).bind fun _ => (parts key).bind fun _ => .pure _
  | call callee arguments span =>
      exact (parts callee).bind fun _ => (mapM parts arguments).bind fun _ => .pure _
  | unary operator operand span => exact (parts operand).bind fun _ => .pure _
  | binary left operator right span =>
      exact (parts left).bind fun _ => (parts right).bind fun _ => .pure _
  | assign target value span =>
      exact (traverseExpression parts functions target).bind fun _ =>
        (parts value).bind fun _ => .pure _
  | _ => exact .pure _

/-- A traversal of a branch keeps what the actions on its parts keep. -/
theorem traverseBranch (blocks : ∀ block', Keeps invariant (block block'))
    (statements : ∀ statement', Keeps invariant (statement statement')) (branch : Branch) :
    Keeps invariant (branch.traverse block statement) := by
  cases branch with
  | braced inner => exact (blocks inner).bind fun _ => .pure _
  | single inner => exact (statements inner).bind fun _ => .pure _

/-- A traversal of a statement keeps what the actions on its parts keep. -/
theorem traverseStatement (parts : ∀ expression, Keeps invariant (part expression))
    (functions : ∀ definition, Keeps invariant (function definition))
    (blocks : ∀ block', Keeps invariant (block block'))
    (statements : ∀ statement', Keeps invariant (statement statement')) (whole : Statement) :
    Keeps invariant (whole.traverse part function block statement) := by
  cases whole with
  | expression value span => exact (parts value).bind fun _ => .pure _
  | declaration word items span =>
      refine (mapM (fun item => ?_) items).bind fun _ => .pure _
      exact (option parts item.value).bind fun _ => .pure _
  | function definition => exact (functions definition).bind fun _ => .pure _
  | conditional condition consequent alternate span =>
      have branches := traverseBranch blocks statements
      exact (parts condition).bind fun _ => (branches consequent).bind fun _ =>
        (option branches alternate).bind fun _ => .pure _
  | returning value span => exact (option parts value).bind fun _ => .pure _
  | block inner => exact (blocks inner).bind fun _ => .pure _
  | empty span => exact .pure _

end Keeps

namespace Visitor

variable {visitor : Visitor State}

/-- Whatever the visitor is given, it keeps the invariant. -/
structure Keeps (visitor : Visitor State) (invariant : State → Prop) : Prop where
  expressions : ∀ chain expression, ScriptStrip.Keeps invariant (visitor.onExpression chain expression)
  statements : ∀ chain statement, ScriptStrip.Keeps invariant (visitor.onStatement chain statement)
  items : ∀ chain span items, ScriptStrip.Keeps invariant (visitor.onItems chain span items)

/-- A walk down to any number of levels keeps what the visitor keeps. -/
theorem keeps_within (keeps : visitor.Keeps invariant) (levels : Nat) :
    (∀ chain expression, ScriptStrip.Keeps invariant
      (visitor.expressionWithin levels chain expression)) ∧
    (∀ chain statement, ScriptStrip.Keeps invariant
      (visitor.statementWithin levels chain statement)) ∧
    ∀ chain span items, ScriptStrip.Keeps invariant
      (visitor.itemsWithin levels chain span items) := by
  induction levels with
  | zero => exact ⟨fun _ _ => .pure _, fun _ _ => .pure _, fun _ _ _ => .pure _⟩
  | succ levels inductionHypothesis =>
      obtain ⟨expressions, statements, items⟩ := inductionHypothesis
      refine ⟨?_, ?_, ?_⟩
      · intro chain expression
        refine (keeps.expressions chain expression).bind fun expression => ?_
        exact .traverseExpression (expressions chain)
          (fun definition => (items _ _ _).bind fun _ => .pure _) expression
      · intro chain statement
        refine (keeps.statements chain statement).bind fun statement => ?_
        exact .traverseStatement (expressions chain)
          (fun definition => (items _ _ _).bind fun _ => .pure _)
          (fun block => (items _ _ _).bind fun _ => .pure _) (statements chain) statement
      · intro chain span list
        exact (keeps.items chain span list).bind fun list => .mapM (statements chain) list

/-- A visitor whose hooks keep an invariant keeps it over a whole script. -/
theorem keeps_script (keeps : visitor.Keeps invariant) (script : Script) :
    ScriptStrip.Keeps invariant (visitor.script script) :=
  ((visitor.keeps_within keeps _).2.2 _ _ _).bind fun _ => .pure _

end Visitor

/-- Only these events tell of a rewrite. -/
def Event.isRewriting : Event → Bool
  | rewriting _ => true
  | _ => false

/-- As many rewritings are logged as are counted. -/
def Report.TellsAll (report : Report) : Prop :=
  report.log.countP Event.isRewriting = report.statistics.total

namespace Configuration

/-- Every finding is counted once. -/
@[simp] theorem Finding.total_counts (finding : Finding) : finding.counts.total = 1 := by
  cases finding <;> rfl

variable (configuration : Configuration)

/-- An event that tells of no rewrite leaves the counts as they are. -/
theorem keeps_record {event : Event} (other : event.isRewriting = false) :
    Keeps Report.TellsAll (modify (Report.record event)) := by
  intro report tells
  show (report.log.push event).countP Event.isRewriting = report.statistics.total
  rw [Array.countP_push, other]
  exact tells

/-- A rewrite is told and counted together. -/
theorem keeps_note (expression : Expression) (finding : Finding) :
    Keeps Report.TellsAll (note expression finding) := by
  intro report tells
  have logged : (report.log.push (.rewriting expression.shape)).countP Event.isRewriting =
      report.statistics.total + 1 := by
    rw [Array.countP_push, tells]
    rfl
  have counted : ((note expression finding).run report).2.statistics =
      report.statistics + finding.counts := by
    cases finding <;> rfl
  rw [Report.TellsAll, counted, Statistics.total_add, finding.total_counts, ← logged]
  cases finding <;> rfl

/-- Settling an expression tells every step that it counts. -/
theorem keeps_settle (expression : Expression) :
    Keeps Report.TellsAll (configuration.settle expression) := by
  fun_induction settle configuration expression with
  | case1 expression found => exact .pure _
  | case2 expression found => exact (keeps_note _ _).bind fun _ => .pure _
  | case3 expression value found => exact (keeps_note _ _).bind fun _ => .pure _
  | case4 expression found => exact (keeps_note _ _).bind fun _ => .pure _
  | case5 expression argument found inductionHypothesis =>
      exact (keeps_note _ _).bind fun _ => inductionHypothesis

/-- Rewriting an initial value tells every step that it counts. -/
theorem keeps_rewriteDeclarator (item : Declarator) :
    Keeps Report.TellsAll (configuration.rewriteDeclarator item) := by
  unfold rewriteDeclarator
  cases item.value with
  | none => exact .pure _
  | some value =>
      refine (configuration.keeps_settle value).bind fun slot => ?_
      cases slot <;> exact .pure _

/-- Dropping or keeping a statement tells every step that it counts. -/
theorem keeps_rewriteItem? (item : Statement) :
    Keeps Report.TellsAll (configuration.rewriteItem? item) := by
  cases item with
  | expression value span =>
      refine (configuration.keeps_settle value).bind fun slot => ?_
      cases slot <;> exact .pure _
  | declaration word items span =>
      exact (Keeps.mapM configuration.keeps_rewriteDeclarator items).bind fun _ => .pure _
  | _ => exact .pure _

/-- Rewriting a branch tells every step that it counts. -/
theorem keeps_rewriteBranch (branch : Branch) :
    Keeps Report.TellsAll (configuration.rewriteBranch branch) := by
  cases branch with
  | braced block => exact .pure _
  | single statement =>
      refine (configuration.keeps_rewriteItem? statement).bind fun left => ?_
      cases left <;> exact .pure _

/-- Each hook of the rewriter tells every step that it counts. -/
theorem keeps_rewriter : configuration.rewriter.Keeps Report.TellsAll where
  expressions _ expression := by
    refine (configuration.keeps_settle expression).bind fun slot => ?_
    cases slot <;> exact .pure _
  statements _ statement := by
    cases statement with
    | conditional condition consequent alternate span =>
        exact (configuration.keeps_rewriteBranch consequent).bind fun _ =>
          (Keeps.option configuration.keeps_rewriteBranch alternate).bind fun _ => .pure _
    | _ => exact .pure _
  items _ _ items :=
    (keeps_record rfl).bind fun _ => .filterMapM configuration.keeps_rewriteItem? items

end Configuration

/-- The log of a pass has one rewriting for each time that the pass acts. -/
theorem Script.tellsAll_rewrite (script : Script) (configuration : Configuration) :
    (script.rewrite configuration).2.TellsAll :=
  configuration.rewriter.keeps_script configuration.keeps_rewriter script {} rfl

end ScriptStrip
