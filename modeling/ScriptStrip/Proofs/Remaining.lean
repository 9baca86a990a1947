import Mathlib.Data.List.Flatten
import ScriptStrip.Proofs.Findings
import ScriptStrip.Proofs.Inventory
import ScriptStrip.Proofs.ReductionWalk
/-
This file shows that a rewriting pass puts no word into a script and takes no declaration out of it,
except with the calls that it removes and the arguments that it drops.
-/

namespace ScriptStrip

namespace Entry

/-- The first list is what remains of the second one. Nothing that declares is lost, and what is
new says nothing. -/
inductive Remain : List Entry → List Entry → Prop where
  | nil : Remain [] []
  | keep (entry : Entry) {remaining entries : List Entry} (remain : Remain remaining entries) :
      Remain (entry :: remaining) (entry :: entries)
  | lose {entry : Entry} {remaining entries : List Entry} (silent : entry.declares = false)
      (remain : Remain remaining entries) : Remain remaining (entry :: entries)
  | gain {entry : Entry} {remaining entries : List Entry} (fresh : entry.isFresh = true)
      (remain : Remain remaining entries) : Remain (entry :: remaining) entries

/-- What a pass puts in declares nothing. -/
theorem declares_of_isFresh {entry : Entry} (fresh : entry.isFresh = true) :
    entry.declares = false := by
  cases entry <;> first | rfl | cases fresh

/-- What a pass puts in has no words of the source. -/
theorem words_of_isFresh {entry : Entry} (fresh : entry.isFresh = true) (kind : WordKind) :
    entry.words kind = [] := by
  cases entry <;> first | cases fresh; done | cases kind <;> rfl

namespace Remain

variable {first second remaining entries : List Entry}

/-- All entries remain in themselves. -/
theorem refl (entries : List Entry) : Remain entries entries := by
  induction entries with
  | nil => exact .nil
  | cons entry rest inductionHypothesis => exact .keep entry inductionHypothesis

/-- What remains of two lists remains of both together. -/
theorem append (remain : Remain remaining entries) (remainNext : Remain first second) :
    Remain (remaining ++ first) (entries ++ second) := by
  induction remain with
  | nil => exact remainNext
  | keep entry _ inductionHypothesis => exact .keep entry inductionHypothesis
  | lose silent _ inductionHypothesis => exact .lose silent inductionHypothesis
  | gain fresh _ inductionHypothesis => exact .gain fresh inductionHypothesis

/-- Entries that declare nothing can be lost together. -/
theorem of_silent (silent : ∀ entry ∈ entries, entry.declares = false) : Remain [] entries := by
  induction entries with
  | nil => exact .nil
  | cons entry rest inductionHypothesis =>
      rw [List.forall_mem_cons] at silent
      exact .lose silent.1 (inductionHypothesis silent.2)

/-- The words that remain keep their order. -/
theorem words_sublist (remain : Remain remaining entries) (kind : WordKind) :
    (remaining.flatMap (words kind)).Sublist (entries.flatMap (words kind)) := by
  induction remain with
  | nil => exact List.Sublist.slnil
  | keep entry _ inductionHypothesis =>
      rw [List.flatMap_cons, List.flatMap_cons]
      exact (List.Sublist.refl _).append inductionHypothesis
  | lose _ _ inductionHypothesis =>
      rw [List.flatMap_cons]
      exact inductionHypothesis.trans (List.sublist_append_right _ _)
  | gain fresh _ inductionHypothesis =>
      rw [List.flatMap_cons, words_of_isFresh fresh, List.nil_append]
      exact inductionHypothesis

/-- Apart from what a pass puts in, the entries that remain keep their order. -/
theorem filter_sublist (remain : Remain remaining entries) :
    (remaining.filter fun entry => !entry.isFresh).Sublist
      (entries.filter fun entry => !entry.isFresh) := by
  induction remain with
  | nil => exact List.Sublist.slnil
  | keep entry _ inductionHypothesis =>
      rw [List.filter_cons, List.filter_cons]
      split
      · exact inductionHypothesis.cons_cons entry
      · exact inductionHypothesis
  | lose _ _ inductionHypothesis =>
      rw [List.filter_cons]
      split
      · exact inductionHypothesis.cons _
      · exact inductionHypothesis
  | gain fresh _ inductionHypothesis =>
      rw [List.filter_cons_of_neg (by rw [fresh]; decide)]
      exact inductionHypothesis

/-- All declarations remain. -/
theorem filter_declares (remain : Remain remaining entries) :
    remaining.filter declares = entries.filter declares := by
  induction remain with
  | nil => rfl
  | keep entry _ inductionHypothesis =>
      rw [List.filter_cons, List.filter_cons, inductionHypothesis]
  | lose silent _ inductionHypothesis =>
      rw [List.filter_cons_of_neg (by rw [silent]; decide)]
      exact inductionHypothesis
  | gain fresh _ inductionHypothesis =>
      rw [List.filter_cons_of_neg (by rw [declares_of_isFresh fresh]; decide)]
      exact inductionHypothesis

end Remain

end Entry

open Entry

variable {configuration : Configuration}

/-- A vacant place says nothing. -/
def Slot.entries : Slot → List Entry
  | .filled expression => expression.entries
  | .vacant _ => []

/-- What stands in the place of a dropped call brings no entry of the source. -/
theorem Slot.remain_expression {slot : Slot} {entries : List Entry}
    (remain : Remain slot.entries entries) : Remain slot.expression.entries entries := by
  cases slot with
  | filled expression => exact remain
  | vacant span => exact .gain rfl remain

section

variable {fate : Expression → Fate}

/-- Parentheses declare nothing. -/
theorem Expression.remain_of_ungrouped {expression : Expression} {remaining : List Entry}
    (remain : Remain remaining (expression.ungrouped.entriesUnder fate true)) :
    Remain remaining (expression.entriesUnder fate true) := by
  fun_induction Expression.ungrouped expression with
  | case1 inner span inductionHypothesis => exact .lose rfl (inductionHypothesis remain)
  | case2 expression other => exact remain

/-- A plain expression declares nothing. -/
theorem Expression.IsPlain.silent {expression : Expression} (plain : expression.IsPlain) :
    ∀ entry ∈ expression.entriesUnder fate true, entry.declares = false := by
  induction plain with
  | property name span _ inductionHypothesis =>
      rw [Expression.entriesUnder, List.forall_mem_append]
      exact ⟨inductionHypothesis, by simp [declares]⟩
  | group span _ inductionHypothesis =>
      rw [Expression.entriesUnder, List.forall_mem_cons]
      exact ⟨rfl, inductionHypothesis⟩
  | _ => simp [Expression.entriesUnder, declares]

/-- Plain arguments declare nothing. -/
theorem Expression.silent_entriesUnderAll {items : List Expression}
    (plain : ∀ item ∈ items, item.IsPlain) :
    ∀ entry ∈ Expression.entriesUnderAll fate items, entry.declares = false := by
  induction items with
  | nil => simp [Expression.entriesUnderAll]
  | cons first rest inductionHypothesis =>
      rw [List.forall_mem_cons] at plain
      rw [Expression.entriesUnderAll, List.forall_mem_append]
      exact ⟨plain.1.silent, inductionHypothesis plain.2⟩

/-- Nothing is declared where the flags of the build mode are asked for. -/
theorem Configuration.CallsMode.remain_nil {expression : Expression}
    (calls : configuration.CallsMode expression) :
    Remain [] (expression.entriesUnder fate true) := by
  obtain ⟨callee, arguments, accessor, ⟨span, isCall⟩, ⟨span', isProperty⟩, ⟨span'', isReference⟩,
    plain⟩ := calls
  have ofAccessor : Remain [] (accessor.entriesUnder fate true) := by
    apply Expression.remain_of_ungrouped
    rw [isReference]
    exact .lose rfl .nil
  have ofCallee : Remain [] (callee.entriesUnder fate true) := by
    apply Expression.remain_of_ungrouped
    rw [isProperty]
    exact ofAccessor.append (.lose rfl .nil)
  have silent : ∀ entry ∈ Expression.entriesUnderAll fate arguments, entry.declares = false :=
    Expression.silent_entriesUnderAll plain
  have ofArguments := Remain.of_silent silent
  apply Expression.remain_of_ungrouped
  rw [isCall, Expression.entriesUnder]
  split
  · exact .nil
  · apply Remain.of_silent
    intro entry inside
    exact silent entry ((Expression.sublist_entriesUnderHead arguments).subset inside)
  · exact ofCallee.append (.lose rfl ofArguments)

end

/-- A call that nothing is found at is kept. -/
theorem Configuration.fate_of_finding? {callee : Expression} {arguments : List Expression}
    {span : Span} (notFound : configuration.finding? (.call callee arguments span) = none) :
    configuration.fate callee = .kept := by
  obtain ⟨kept, plain⟩ := Configuration.not_of_finding?_call notFound
  rw [Configuration.fate, if_neg kept, if_neg plain]

/-- The target of an assignment and an expression that nothing is found at are not replaced. -/
theorem Configuration.isRead_of_finding? {expression : Expression} {isRead : Bool}
    (kept : isRead = true → configuration.finding? expression = none) {callee : Expression}
    {arguments : List Expression} {span : Span}
    (isCall : expression = .call callee arguments span) :
    isRead = true → configuration.fate callee = .kept := by
  intro read
  have notFound := kept read
  rw [isCall] at notFound
  exact Configuration.fate_of_finding? notFound

mutual

/-- The entries of a reduced expression remain of those of the expression. -/
theorem Expression.remain_reduced (expression : Expression) :
    Remain (expression.reduced configuration).value.entries
      (expression.entriesUnder configuration.fate true) := by
  have finds := configuration.finds expression
  rw [Expression.reduced_eq]
  cases found : configuration.finding? expression with
  | none => exact Expression.remain_reducedParts expression true fun _ => found
  | some finding =>
      rw [found] at finds
      apply Expression.remain_of_ungrouped
      cases finding with
      | stripped =>
          cases finds with
          | stripped shape strips =>
              rw [shape, Expression.entriesUnder, if_pos rfl, Configuration.fate, if_pos strips]
              exact .nil
      | flag value =>
          cases finds with
          | flag shape production calls known =>
              rw [shape, Expression.entriesUnder]
              exact .gain rfl (calls.remain_nil.append (.lose rfl .nil))
      | asserted argument =>
          obtain ⟨callee, arguments, span, shape, kept, asserts, rfl⟩ :=
            Configuration.exists_call_of_asserted found
          rw [shape, Expression.entriesUnder, if_pos rfl, Configuration.fate, if_neg kept,
            if_pos asserts]
          cases arguments with
          | nil => exact .nil
          | cons first rest =>
              have smaller := Configuration.sizeOf_asserted_lt found
              exact Expression.remain_reduced first
termination_by (sizeOf expression, 1)

/-- This is about expressions that are not replaced as a whole. -/
theorem Expression.remain_reducedParts (expression : Expression) (isRead : Bool)
    (kept : isRead = true → configuration.finding? expression = none) :
    Remain (expression.reducedParts configuration).value.entries
      (expression.entriesUnder configuration.fate isRead) := by
  cases expression with
  | array items span =>
      obtain ⟨remain, sameLength⟩ := Expression.remain_reducedAll items
      rw [Expression.reducedParts]
      show Remain (.array _ span :: _) (.array items.length span :: _)
      rw [sameLength]
      exact .keep _ remain
  | object members span =>
      obtain ⟨remain, sameLength⟩ := Member.remain_reducedAll members
      rw [Expression.reducedParts]
      show Remain (.object _ span :: _) (.object members.length span :: _)
      rw [sameLength]
      exact .keep _ remain
  | function definition =>
      rw [Expression.reducedParts]
      exact FunctionDef.remain_reduced definition
  | group inner span =>
      rw [Expression.reducedParts]
      exact .keep _ (Slot.remain_expression (Expression.remain_reduced inner))
  | property parent name span =>
      rw [Expression.reducedParts]
      exact (Slot.remain_expression (Expression.remain_reduced parent)).append (.refl _)
  | index parent key span =>
      have ofKey := Slot.remain_expression (Expression.remain_reduced key)
      rw [Expression.reducedParts]
      exact (Slot.remain_expression (Expression.remain_reduced parent)).append (.keep _ ofKey)
  | call callee arguments span =>
      obtain ⟨remain, sameLength⟩ := Expression.remain_reducedAll arguments
      have ofCallee := Slot.remain_expression (Expression.remain_reduced callee)
      rw [Expression.entriesUnder_call_of_kept (Configuration.isRead_of_finding? kept rfl),
        Expression.reducedParts]
      apply ofCallee.append
      show Remain (.call _ span :: _) _
      rw [sameLength]
      exact .keep _ remain
  | unary operator operand span =>
      rw [Expression.reducedParts]
      exact .keep _ (Slot.remain_expression (Expression.remain_reduced operand))
  | binary left operator right span =>
      have ofRight := Slot.remain_expression (Expression.remain_reduced right)
      rw [Expression.reducedParts]
      exact (Slot.remain_expression (Expression.remain_reduced left)).append (.keep _ ofRight)
  | assign target value span =>
      have ofValue := Slot.remain_expression (Expression.remain_reduced value)
      have ofTarget := Expression.remain_reducedParts target false Bool.noConfusion
      rw [← Expression.entriesUnder_of_kept _ false] at ofTarget
      rw [Expression.reducedParts]
      exact ofTarget.append (.keep _ ofValue)
  | _ =>
      rw [Expression.reducedParts] <;> first | exact .refl _ | simp
termination_by (sizeOf expression, 0)

/-- The entries of reduced items remain. -/
theorem Expression.remain_reducedAll (items : List Expression) :
    Remain (Expression.entriesUnderAll (fun _ => .kept)
        (Expression.reducedAll configuration items).value)
      (Expression.entriesUnderAll configuration.fate items) ∧
    (Expression.reducedAll configuration items).value.length = items.length := by
  cases items with
  | nil =>
      rw [Expression.reducedAll]
      exact ⟨.nil, rfl⟩
  | cons first rest =>
      obtain ⟨remain, sameLength⟩ := Expression.remain_reducedAll rest
      rw [Expression.reducedAll]
      exact ⟨(Slot.remain_expression (Expression.remain_reduced first)).append remain,
        congrArg (· + 1) sameLength⟩
termination_by (sizeOf items, 0)

/-- The entries of reduced members remain. -/
theorem Member.remain_reducedAll (members : List Member) :
    Remain (Member.entriesUnderAll (fun _ => .kept)
        (Member.reducedAll configuration members).value)
      (Member.entriesUnderAll configuration.fate members) ∧
    (Member.reducedAll configuration members).value.length = members.length := by
  cases members with
  | nil =>
      rw [Member.reducedAll]
      exact ⟨.nil, rfl⟩
  | cons first rest =>
      cases first with
      | mk key value span =>
          obtain ⟨remain, sameLength⟩ := Member.remain_reducedAll rest
          rw [Member.reducedAll]
          exact ⟨.keep _ ((Slot.remain_expression (Expression.remain_reduced value)).append remain),
            congrArg (· + 1) sameLength⟩
termination_by (sizeOf members, 0)

/-- The entries of a reduced function remain. -/
theorem FunctionDef.remain_reduced (definition : FunctionDef) :
    Remain ((definition.reduced configuration).value.entriesUnder fun _ => .kept)
      (definition.entriesUnder configuration.fate) := by
  cases definition with
  | mk name parameters body span =>
      rw [FunctionDef.reduced]
      exact .keep _ (Block.remain_reduced body)
termination_by (sizeOf definition, 0)

/-- The entries of a reduced block remain. -/
theorem Block.remain_reduced (block : Block) :
    Remain ((block.reduced configuration).value.entriesUnder fun _ => .kept)
      (block.entriesUnder configuration.fate) := by
  cases block with
  | mk items span =>
      rw [Block.reduced]
      exact Statement.remain_reducedAll items
termination_by (sizeOf block, 0)

/-- The entries of a reduced statement remain, if it is kept at all. -/
theorem Statement.remain_reduced (statement : Statement) (standing : Standing) :
    Remain ((statement.reduced configuration).value.elim []
        (Statement.entriesUnder (fun _ => .kept) standing))
      (statement.entriesUnder configuration.fate standing) := by
  cases statement with
  | expression value span =>
      have ofValue : Remain (value.reduced configuration).value.entries _ :=
        Expression.remain_reduced value
      rw [Statement.reduced, Counted.value_bind]
      -- Where nothing is left of the value, the statement goes with it.
      cases slot : (value.reduced configuration).value with
      | filled value' =>
          rw [slot] at ofValue
          exact .keep _ ofValue
      | vacant span' =>
          rw [slot] at ofValue
          exact .lose rfl ofValue
  | declaration word items span =>
      rw [Statement.reduced]
      exact .keep _ (Declarator.remain_reducedAll items)
  | function definition =>
      have sameSpan : (definition.reduced configuration).value.span = definition.span := by
        cases definition
        rw [FunctionDef.reduced]
        rfl
      rw [Statement.reduced]
      show Remain (.statement standing .function _ :: _) _
      rw [sameSpan]
      exact .keep _ (FunctionDef.remain_reduced definition)
  | conditional condition consequent alternate span =>
      have ofCondition := Slot.remain_expression (Expression.remain_reduced condition)
      have ofConsequent := Branch.remain_reduced consequent
      obtain ⟨ofAlternate, sameForm⟩ := Branch.remain_reducedOption alternate
      rw [Statement.reduced]
      show Remain (.statement standing (.conditional _) span :: _) _
      rw [sameForm]
      exact .keep _ ((ofCondition.append ofConsequent).append ofAlternate)
  | returning value span =>
      obtain ⟨remain, sameForm⟩ := Expression.remain_reducedOption value
      rw [Statement.reduced]
      show Remain (.statement standing (.returning _) span :: _) _
      rw [sameForm]
      exact .keep _ remain
  | block inner =>
      have sameSpan : (inner.reduced configuration).value.span = inner.span := by
        cases inner
        rw [Block.reduced]
        rfl
      rw [Statement.reduced]
      show Remain (.statement standing .block _ :: _) _
      rw [sameSpan]
      exact .keep _ (Block.remain_reduced inner)
  | empty span =>
      rw [Statement.reduced]
      exact .refl _
termination_by (sizeOf statement, 0)

/-- The entries of a reduced optional expression remain. -/
theorem Expression.remain_reducedOption (value : Option Expression) :
    Remain (Expression.entriesUnderOption (fun _ => .kept)
        (Expression.reducedOption configuration value).value)
      (Expression.entriesUnderOption configuration.fate value) ∧
    (Expression.reducedOption configuration value).value.isSome = value.isSome := by
  cases value with
  | none =>
      rw [Expression.reducedOption]
      exact ⟨.nil, rfl⟩
  | some value =>
      rw [Expression.reducedOption]
      exact ⟨Slot.remain_expression (Expression.remain_reduced value), rfl⟩
termination_by (sizeOf value, 0)

/-- The entries of reduced statements remain. -/
theorem Statement.remain_reducedAll (items : List Statement) :
    Remain (Statement.entriesUnderAll (fun _ => .kept)
        (Statement.reducedAll configuration items).value)
      (Statement.entriesUnderAll configuration.fate items) := by
  cases items with
  | nil =>
      rw [Statement.reducedAll]
      exact .nil
  | cons first rest =>
      have ofFirst : Remain ((first.reduced configuration).value.elim [] _) _ :=
        Statement.remain_reduced first .listed
      have ofRest := Statement.remain_reducedAll rest
      rw [Statement.reducedAll, Counted.value_bind, Counted.value_bind, Counted.value_pure]
      cases left : (first.reduced configuration).value with
      | none =>
          rw [left] at ofFirst
          exact ofFirst.append ofRest
      | some kept =>
          rw [left] at ofFirst
          exact ofFirst.append ofRest
termination_by (sizeOf items, 0)

/-- The entries of reduced declared names remain. -/
theorem Declarator.remain_reducedAll (items : List Declarator) :
    Remain (Declarator.entriesUnderAll (fun _ => .kept)
        (Declarator.reducedAll configuration items).value)
      (Declarator.entriesUnderAll configuration.fate items) := by
  cases items with
  | nil =>
      rw [Declarator.reducedAll]
      exact .nil
  | cons first rest =>
      have ofRest := Declarator.remain_reducedAll rest
      rw [Declarator.reducedAll]
      cases first with
      | mk name value span =>
          cases value with
          | none =>
              rw [Declarator.reduced]
              exact .keep _ ofRest
          | some value =>
              have ofValue : Remain (value.reduced configuration).value.entries _ :=
                Expression.remain_reduced value
              rw [Declarator.reduced, Counted.value_bind, Counted.value_bind, Counted.value_pure,
                Counted.value_bind]
              cases slot : (value.reduced configuration).value with
              | filled value' =>
                  rw [slot] at ofValue
                  exact .keep _ (ofValue.append ofRest)
              | vacant span' =>
                  rw [slot] at ofValue
                  exact .keep _ (ofValue.append ofRest)
termination_by (sizeOf items, 0)

/-- An empty statement can come to stand in a branch. -/
theorem Branch.remain_reduced (branch : Branch) :
    Remain ((branch.reduced configuration).value.entriesUnder fun _ => .kept)
      (branch.entriesUnder configuration.fate) := by
  cases branch with
  | braced block =>
      rw [Branch.reduced]
      exact Block.remain_reduced block
  | single statement =>
      have ofStatement : Remain ((statement.reduced configuration).value.elim [] _) _ :=
        Statement.remain_reduced statement .alone
      rw [Branch.reduced, Counted.value_bind]
      cases left : (statement.reduced configuration).value with
      | none =>
          rw [left] at ofStatement
          exact .gain rfl ofStatement
      | some kept =>
          rw [left] at ofStatement
          exact ofStatement
termination_by (sizeOf branch, 0)

/-- The entries of a reduced optional branch remain. -/
theorem Branch.remain_reducedOption (branch : Option Branch) :
    Remain (Branch.entriesUnderOption (fun _ => .kept)
        (Branch.reducedOption configuration branch).value)
      (Branch.entriesUnderOption configuration.fate branch) ∧
    (Branch.reducedOption configuration branch).value.isSome = branch.isSome := by
  cases branch with
  | none =>
      rw [Branch.reducedOption]
      exact ⟨.nil, rfl⟩
  | some branch =>
      rw [Branch.reducedOption]
      exact ⟨Branch.remain_reduced branch, rfl⟩
termination_by (sizeOf branch, 0)

end

namespace Script

variable (script : Script)

/-- A pass leaves what lies outside of removed calls and dropped arguments, save for the modes that
it reads. -/
theorem remain_rewrite (configuration : Configuration) :
    Remain (script.rewrite configuration).1.entries (script.entriesOutside configuration) := by
  rw [script.fst_rewrite]
  exact Statement.remain_reducedAll script.items

/-- The entries outside of removed calls are entries of the script, in order. -/
theorem sublist_entriesOutside (configuration : Configuration) :
    (script.entriesOutside configuration).Sublist script.entries :=
  Statement.sublist_entriesUnderAll script.items

/-- A pass introduces no word of any kind and changes no order. The only entries that are not taken
from the script are booleans, undefined values and the empty statements that stand alone in a
branch. All functions and declared variables stay, except in removed calls and dropped
arguments. -/
theorem rewrite_introduces_nothing (configuration : Configuration) :
    (∀ kind, ((script.rewrite configuration).1.words kind).Sublist (script.words kind)) ∧
      ((script.rewrite configuration).1.entries.filter fun entry => !entry.isFresh).Sublist
        (script.entries.filter fun entry => !entry.isFresh) ∧
      (script.rewrite configuration).1.entries.filter Entry.declares =
        (script.entriesOutside configuration).filter Entry.declares := by
  have remain := script.remain_rewrite configuration
  have outside := script.sublist_entriesOutside configuration
  refine ⟨?_, ?_, remain.filter_declares⟩
  · intro kind
    exact (remain.words_sublist kind).trans (outside.flatMap _)
  · exact remain.filter_sublist.trans (outside.filter _)

end Script

end ScriptStrip
