import Mathlib
import ScriptStrip.Parser.Grammar
import ScriptStrip.Proofs.Remaining
/-
This file compares two rewriting passes over one script. The pass whose configuration asks for more
leaves no word that the other one does not leave.
-/

namespace ScriptStrip

/-- The second configuration asks for all that the first one asks for. -/
structure Configuration.IsWithin (configuration stricter : Configuration) : Prop where
  sameAccessor : configuration.modeAccessor = stricter.modeAccessor
  suffixes : ∀ suffix ∈ configuration.suffixes, suffix ∈ stricter.suffixes
  production : configuration.isProduction = true → stricter.isProduction = true

namespace Configuration

variable {configuration stricter : Configuration} {callee expression : Expression}

/-- Where one pass reads a flag, another pass reads the same flag or acts on nothing. -/
theorem finding?_of_flag (configuration : Configuration) {value : Bool}
    (found : stricter.finding? expression = some (.flag value)) :
    configuration.finding? expression = none ∨
      configuration.finding? expression = some (.flag value) := by
  generalize isFinding : some (Configuration.Finding.flag value) = finding at found
  have finds := stricter.finds expression
  rw [found] at finds
  cases finds with
  | flag shape production calls known =>
      rw [finding?_of_property shape]
      split
      · exact .inr (by rw [known]; rfl)
      · exact .inl rfl
  | _ => cases isFinding

namespace IsWithin

/-- A stricter configuration removes all calls that the other one removes. -/
theorem stripsCallee (within : configuration.IsWithin stricter)
    (strips : configuration.StripsCallee callee) : stricter.StripsCallee callee := by
  obtain ⟨names, chain, suffix, configured, ending⟩ := strips
  exact ⟨names, chain, suffix, within.suffixes suffix configured, ending⟩

/-- Both configurations have the same mode accessor. -/
theorem callsMode_iff (within : configuration.IsWithin stricter) :
    configuration.CallsMode expression ↔ stricter.CallsMode expression := by
  rw [CallsMode, CallsMode, within.sameAccessor]

/-- The stricter pass unwraps no assertion that the other one keeps or removes. -/
theorem finding?_of_asserted (within : configuration.IsWithin stricter)
    {argument : Option Expression}
    (found : stricter.finding? expression = some (.asserted argument)) :
    configuration.finding? expression = some (.asserted argument) := by
  obtain ⟨callee, arguments, span, shape, kept, asserts, rfl⟩ := exists_call_of_asserted found
  rw [finding?_of_call shape]
  exact callFinding?_of_asserts (mt within.stripsCallee kept) asserts

/-- Where the stricter pass acts on nothing, the other one does not either. -/
theorem finding?_of_none (within : configuration.IsWithin stricter)
    (found : stricter.finding? expression = none) : configuration.finding? expression = none := by
  have finds := stricter.finds expression
  rw [found] at finds
  cases finds with
  | call shape kept plain =>
      rw [finding?_of_call shape]
      exact callFinding?_of_neither (mt within.stripsCallee kept) plain
  | property shape kept =>
      rw [finding?_of_property shape]
      split
      · rename_i calls
        rw [Option.map_eq_none_iff, ← Option.not_isSome_iff_eq_none]
        intro known
        exact kept ⟨within.production calls.1, within.callsMode_iff.mp calls.2, known⟩
      · rfl
  | other notCall notProperty => exact finding?_of_other notCall notProperty

end IsWithin

end Configuration

namespace Entry

/-- All that the first list says is said by the second one, in this order. -/
def Within (first second : List Entry) : Prop :=
  (first.filter fun entry => !entry.isFresh).Sublist (second.filter fun entry => !entry.isFresh)

/-- What a pass puts in has no words. -/
theorem words_filter (entries : List Entry) (kind : WordKind) :
    (entries.filter fun entry => !entry.isFresh).flatMap (words kind) =
      entries.flatMap (words kind) := by
  induction entries with
  | nil => rfl
  | cons entry rest inductionHypothesis =>
      rw [List.filter_cons, List.flatMap_cons, ← inductionHypothesis]
      cases fresh : entry.isFresh with
      | true => rw [words_of_isFresh fresh kind, if_neg (by decide), List.nil_append]
      | false => rw [if_pos (by decide), List.flatMap_cons]

namespace Within

variable {first second first' second' : List Entry}

/-- The empty list is within every list. -/
theorem nil (entries : List Entry) : Within [] entries := List.nil_sublist _

/-- Every list is within itself. -/
theorem refl (entries : List Entry) : Within entries entries := List.Sublist.refl _

/-- What is within two lists is within both together. -/
theorem append (within : Within first second) (within' : Within first' second') :
    Within (first ++ first') (second ++ second') := by
  rw [Within, List.filter_append, List.filter_append]
  exact List.Sublist.append within within'

/-- An entry may be kept on both sides. -/
theorem keep (entry : Entry) (within : Within first second) :
    Within (entry :: first) (entry :: second) := (refl [entry]).append within

/-- What is new in the first list says nothing. -/
theorem gain {entry : Entry} (fresh : entry.isFresh = true) (within : Within first second) :
    Within (entry :: first) second := by
  rw [Within, List.filter_cons_of_neg (by rw [fresh]; decide)]
  exact within

/-- An entry may be kept on the looser side alone. -/
theorem cons (entry : Entry) (within : Within first second) : Within first (entry :: second) :=
  (nil [entry]).append within

/-- The words of what is within keep their order. -/
theorem words_sublist (within : Within first second) (kind : WordKind) :
    (first.flatMap (words kind)).Sublist (second.flatMap (words kind)) := by
  rw [← words_filter first, ← words_filter second]
  exact List.Sublist.flatMap within _

end Within

end Entry

open Entry

variable {configuration stricter : Configuration}

/-- A place that is vacant for the second one of two passes is vacant for the stricter pass. -/
inductive Slot.Within : Slot → Slot → Prop where
  | vacant (span : Span) (slot : Slot) : Within (.vacant span) slot
  | filled {expression other : Expression} (within : Entry.Within expression.entries other.entries) :
      Within (.filled expression) (.filled other)

/-- Slots within each other hold expressions within each other. -/
theorem Slot.Within.expression {slot slot' : Slot} (within : slot.Within slot') :
    Entry.Within slot.expression.entries slot'.expression.entries := by
  cases within with
  | vacant span slot' => exact .gain rfl (.nil _)
  | filled within => exact within

/-- Reduction keeps the place of a function. -/
theorem FunctionDef.span_reduced (definition : FunctionDef) :
    (definition.reduced configuration).value.span = definition.span := by
  cases definition
  rw [FunctionDef.reduced]
  rfl

/-- Reduction keeps the place of a block. -/
theorem Block.span_reduced (block : Block) :
    (block.reduced configuration).value.span = block.span := by
  cases block
  rw [Block.reduced]
  rfl

/-- The entries of a kept statement come first, those of a dropped one are none. -/
theorem Statement.entriesUnderAll_toList_append (fate : Expression → Fate)
    (statement : Option Statement) (rest : List Statement) :
    Statement.entriesUnderAll fate (statement.toList ++ rest) =
      statement.elim [] (Statement.entriesUnder fate .listed) ++
        Statement.entriesUnderAll fate rest := by
  cases statement <;> rfl

mutual

/-- An expression reduced by the stricter configuration is within the other result. -/
theorem Expression.within_reduced (within : configuration.IsWithin stricter)
    (expression : Expression) :
    (expression.reduced stricter).value.Within (expression.reduced configuration).value := by
  rw [Expression.reduced_eq]
  cases found : stricter.finding? expression with
  | none =>
      rw [Expression.reduced_eq, within.finding?_of_none found]
      exact .filled (Expression.within_reducedParts within expression)
  | some finding =>
      cases finding with
      | stripped => exact .vacant _ _
      | flag value =>
          rw [Expression.reduced_eq]
          rcases Configuration.finding?_of_flag configuration found with same | same
          <;> rw [same]
          · exact .filled (.gain rfl (.nil _))
          · exact .filled (.refl _)
      | asserted argument =>
          rw [Expression.reduced_eq, within.finding?_of_asserted found]
          cases argument with
          | none => exact .vacant _ _
          | some argument =>
              have smaller := Configuration.sizeOf_asserted_lt found
              exact Expression.within_reduced within argument
termination_by (sizeOf expression, 1)

/-- The parts reduced by the stricter configuration are within the others. -/
theorem Expression.within_reducedParts (within : configuration.IsWithin stricter)
    (expression : Expression) :
    Within (expression.reducedParts stricter).value.entries
      (expression.reducedParts configuration).value.entries := by
  cases expression with
  | array items span =>
      obtain ⟨ofItems, sameLength⟩ := Expression.within_reducedAll within items
      rw [Expression.reducedParts, Expression.reducedParts]
      show Within (.array _ span :: _) (.array _ span :: _)
      rw [sameLength]
      exact .keep _ ofItems
  | object members span =>
      obtain ⟨ofMembers, sameLength⟩ := Member.within_reducedAll within members
      rw [Expression.reducedParts, Expression.reducedParts]
      show Within (.object _ span :: _) (.object _ span :: _)
      rw [sameLength]
      exact .keep _ ofMembers
  | function definition =>
      rw [Expression.reducedParts, Expression.reducedParts]
      exact FunctionDef.within_reduced within definition
  | group inner span =>
      rw [Expression.reducedParts, Expression.reducedParts]
      exact .keep _ ((Expression.within_reduced within inner).expression)
  | property parent name span =>
      rw [Expression.reducedParts, Expression.reducedParts]
      exact ((Expression.within_reduced within parent).expression).append (.refl _)
  | index parent key span =>
      have ofKey := (Expression.within_reduced within key).expression
      rw [Expression.reducedParts, Expression.reducedParts]
      exact ((Expression.within_reduced within parent).expression).append
        (.keep _ ofKey)
  | call callee arguments span =>
      obtain ⟨ofArguments, sameLength⟩ := Expression.within_reducedAll within arguments
      rw [Expression.reducedParts, Expression.reducedParts]
      apply ((Expression.within_reduced within callee).expression).append
      show Within (.call _ span :: _) (.call _ span :: _)
      rw [sameLength]
      exact .keep _ ofArguments
  | unary operator operand span =>
      rw [Expression.reducedParts, Expression.reducedParts]
      exact .keep _ ((Expression.within_reduced within operand).expression)
  | binary left operator right span =>
      have ofRight := (Expression.within_reduced within right).expression
      rw [Expression.reducedParts, Expression.reducedParts]
      exact ((Expression.within_reduced within left).expression).append
        (.keep _ ofRight)
  | assign target value span =>
      -- A target is not read, so its own entry does not depend on the configuration.
      have ofTarget := Expression.within_reducedParts within target
      have ofValue := (Expression.within_reduced within value).expression
      rw [← Expression.entriesUnder_of_kept _ false, ← Expression.entriesUnder_of_kept _ false]
        at ofTarget
      rw [Expression.reducedParts, Expression.reducedParts]
      exact ofTarget.append (.keep _ ofValue)
  | _ =>
      rw [Expression.reducedParts, Expression.reducedParts] <;> first | exact .refl _ | simp
termination_by (sizeOf expression, 0)

/-- Items reduced by the stricter configuration are within the others. -/
theorem Expression.within_reducedAll (within : configuration.IsWithin stricter)
    (items : List Expression) :
    Within (Expression.entriesUnderAll (fun _ => .kept) (Expression.reducedAll stricter items).value)
      (Expression.entriesUnderAll (fun _ => .kept)
        (Expression.reducedAll configuration items).value) ∧
    (Expression.reducedAll stricter items).value.length =
      (Expression.reducedAll configuration items).value.length := by
  cases items with
  | nil =>
      rw [Expression.reducedAll, Expression.reducedAll]
      exact ⟨.refl _, rfl⟩
  | cons first rest =>
      obtain ⟨ofRest, sameLength⟩ := Expression.within_reducedAll within rest
      rw [Expression.reducedAll, Expression.reducedAll]
      exact ⟨((Expression.within_reduced within first).expression).append ofRest,
        congrArg (· + 1) sameLength⟩
termination_by (sizeOf items, 0)

/-- Members reduced by the stricter configuration are within the others. -/
theorem Member.within_reducedAll (within : configuration.IsWithin stricter)
    (members : List Member) :
    Within (Member.entriesUnderAll (fun _ => .kept) (Member.reducedAll stricter members).value)
      (Member.entriesUnderAll (fun _ => .kept) (Member.reducedAll configuration members).value) ∧
    (Member.reducedAll stricter members).value.length =
      (Member.reducedAll configuration members).value.length := by
  cases members with
  | nil =>
      rw [Member.reducedAll, Member.reducedAll]
      exact ⟨.refl _, rfl⟩
  | cons first rest =>
      cases first with
      | mk key value span =>
          obtain ⟨ofRest, sameLength⟩ := Member.within_reducedAll within rest
          have ofValue := (Expression.within_reduced within value).expression
          rw [Member.reducedAll, Member.reducedAll]
          exact ⟨.keep _ (ofValue.append ofRest), congrArg (· + 1) sameLength⟩
termination_by (sizeOf members, 0)

/-- A function reduced by the stricter configuration is within the other. -/
theorem FunctionDef.within_reduced (within : configuration.IsWithin stricter)
    (definition : FunctionDef) :
    Within ((definition.reduced stricter).value.entriesUnder fun _ => .kept)
      ((definition.reduced configuration).value.entriesUnder fun _ => .kept) := by
  cases definition with
  | mk name parameters body span =>
      rw [FunctionDef.reduced, FunctionDef.reduced]
      exact .keep _ (Block.within_reduced within body)
termination_by (sizeOf definition, 0)

/-- A block reduced by the stricter configuration is within the other. -/
theorem Block.within_reduced (within : configuration.IsWithin stricter) (block : Block) :
    Within ((block.reduced stricter).value.entriesUnder fun _ => .kept)
      ((block.reduced configuration).value.entriesUnder fun _ => .kept) := by
  cases block with
  | mk items span =>
      rw [Block.reduced, Block.reduced]
      exact Statement.within_reducedAll within items
termination_by (sizeOf block, 0)

/-- A statement that is left out says nothing. -/
theorem Statement.within_reduced (within : configuration.IsWithin stricter)
    (statement : Statement) (standing : Standing) :
    Within ((statement.reduced stricter).value.elim []
        (Statement.entriesUnder (fun _ => .kept) standing))
      ((statement.reduced configuration).value.elim []
        (Statement.entriesUnder (fun _ => .kept) standing)) := by
  cases statement with
  | expression value span =>
      have ofValue := Expression.within_reduced within value
      rw [Statement.reduced, Statement.reduced, Counted.value_bind, Counted.value_bind]
      generalize (value.reduced stricter).value = slot at ofValue ⊢
      generalize (value.reduced configuration).value = slot' at ofValue ⊢
      cases ofValue with
      | vacant span' => exact .nil _
      | filled ofValue => exact .keep _ ofValue
  | declaration word items span =>
      rw [Statement.reduced, Statement.reduced]
      exact .keep _ (Declarator.within_reducedAll within items)
  | function definition =>
      rw [Statement.reduced, Statement.reduced]
      show Within (.statement standing .function _ :: _) (.statement standing .function _ :: _)
      rw [FunctionDef.span_reduced, FunctionDef.span_reduced]
      exact .keep _ (FunctionDef.within_reduced within definition)
  | conditional condition consequent alternate span =>
      have ofCondition := (Expression.within_reduced within condition).expression
      have ofConsequent := Branch.within_reduced within consequent
      obtain ⟨ofAlternate, sameForm⟩ := Branch.within_reducedOption within alternate
      rw [Statement.reduced, Statement.reduced]
      show Within (.statement standing (.conditional _) span :: _)
        (.statement standing (.conditional _) span :: _)
      rw [sameForm]
      exact .keep _ ((ofCondition.append ofConsequent).append ofAlternate)
  | returning value span =>
      obtain ⟨ofValue, sameForm⟩ := Expression.within_reducedOption within value
      rw [Statement.reduced, Statement.reduced]
      show Within (.statement standing (.returning _) span :: _)
        (.statement standing (.returning _) span :: _)
      rw [sameForm]
      exact .keep _ ofValue
  | block inner =>
      rw [Statement.reduced, Statement.reduced]
      show Within (.statement standing .block _ :: _) (.statement standing .block _ :: _)
      rw [Block.span_reduced, Block.span_reduced]
      exact .keep _ (Block.within_reduced within inner)
  | empty span =>
      rw [Statement.reduced, Statement.reduced]
      exact .refl _
termination_by (sizeOf statement, 0)

/-- An optional expression reduced by the stricter configuration is within the other. -/
theorem Expression.within_reducedOption (within : configuration.IsWithin stricter)
    (value : Option Expression) :
    Within (Expression.entriesUnderOption (fun _ => .kept)
        (Expression.reducedOption stricter value).value)
      (Expression.entriesUnderOption (fun _ => .kept)
        (Expression.reducedOption configuration value).value) ∧
    (Expression.reducedOption stricter value).value.isSome =
      (Expression.reducedOption configuration value).value.isSome := by
  cases value with
  | none =>
      rw [Expression.reducedOption, Expression.reducedOption]
      exact ⟨.refl _, rfl⟩
  | some value =>
      rw [Expression.reducedOption, Expression.reducedOption]
      exact ⟨(Expression.within_reduced within value).expression, rfl⟩
termination_by (sizeOf value, 0)

/-- Statements reduced by the stricter configuration are within the others. -/
theorem Statement.within_reducedAll (within : configuration.IsWithin stricter)
    (items : List Statement) :
    Within (Statement.entriesUnderAll (fun _ => .kept) (Statement.reducedAll stricter items).value)
      (Statement.entriesUnderAll (fun _ => .kept)
        (Statement.reducedAll configuration items).value) := by
  cases items with
  | nil =>
      rw [Statement.reducedAll, Statement.reducedAll]
      exact .refl _
  | cons first rest =>
      have ofFirst := Statement.within_reduced within first .listed
      have ofRest := Statement.within_reducedAll within rest
      rw [Statement.reducedAll, Statement.reducedAll, Counted.value_bind, Counted.value_bind,
        Counted.value_bind, Counted.value_bind, Counted.value_pure, Counted.value_pure,
        Statement.entriesUnderAll_toList_append, Statement.entriesUnderAll_toList_append]
      exact ofFirst.append ofRest
termination_by (sizeOf items, 0)

/-- Declared names reduced by the stricter configuration are within the others. -/
theorem Declarator.within_reducedAll (within : configuration.IsWithin stricter)
    (items : List Declarator) :
    Within (Declarator.entriesUnderAll (fun _ => .kept) (Declarator.reducedAll stricter items).value)
      (Declarator.entriesUnderAll (fun _ => .kept)
        (Declarator.reducedAll configuration items).value) := by
  cases items with
  | nil =>
      rw [Declarator.reducedAll, Declarator.reducedAll]
      exact .refl _
  | cons first rest =>
      have ofRest := Declarator.within_reducedAll within rest
      rw [Declarator.reducedAll, Declarator.reducedAll]
      cases first with
      | mk name value span =>
          cases value with
          | none =>
              rw [Declarator.reduced, Declarator.reduced]
              exact .keep _ ofRest
          | some value =>
              have ofValue := Expression.within_reduced within value
              simp only [Declarator.reduced, Counted.value_bind, Counted.value_pure]
              generalize (value.reduced stricter).value = slot at ofValue ⊢
              generalize (value.reduced configuration).value = slot' at ofValue ⊢
              cases ofValue with
              | vacant span' =>
                  cases slot' with
                  | vacant span'' => exact .keep _ ofRest
                  | filled other => exact .keep _ ((Within.nil _).append ofRest)
              | filled ofValue => exact .keep _ (ofValue.append ofRest)
termination_by (sizeOf items, 0)

/-- An empty statement says nothing where a branch was. -/
theorem Branch.within_reduced (within : configuration.IsWithin stricter) (branch : Branch) :
    Within ((branch.reduced stricter).value.entriesUnder fun _ => .kept)
      ((branch.reduced configuration).value.entriesUnder fun _ => .kept) := by
  cases branch with
  | braced block =>
      rw [Branch.reduced, Branch.reduced]
      exact Block.within_reduced within block
  | single statement =>
      have ofStatement := Statement.within_reduced within statement .alone
      rw [Branch.reduced, Branch.reduced, Counted.value_bind, Counted.value_bind]
      cases left : (statement.reduced stricter).value with
      | none => exact .gain rfl (.nil _)
      | some kept =>
          rw [left] at ofStatement
          cases left' : (statement.reduced configuration).value with
          | none =>
              rw [left'] at ofStatement
              exact ofStatement.cons _
          | some kept' =>
              rw [left'] at ofStatement
              exact ofStatement
termination_by (sizeOf branch, 0)

/-- An optional branch reduced by the stricter configuration is within the other. -/
theorem Branch.within_reducedOption (within : configuration.IsWithin stricter)
    (branch : Option Branch) :
    Within (Branch.entriesUnderOption (fun _ => .kept)
        (Branch.reducedOption stricter branch).value)
      (Branch.entriesUnderOption (fun _ => .kept)
        (Branch.reducedOption configuration branch).value) ∧
    (Branch.reducedOption stricter branch).value.isSome =
      (Branch.reducedOption configuration branch).value.isSome := by
  cases branch with
  | none =>
      rw [Branch.reducedOption, Branch.reducedOption]
      exact ⟨.refl _, rfl⟩
  | some branch =>
      rw [Branch.reducedOption, Branch.reducedOption]
      exact ⟨Branch.within_reduced within branch, rfl⟩
termination_by (sizeOf branch, 0)

end

namespace Script

/-- The stricter of two passes leaves no word of any kind that the other one does not leave, and
keeps the order of the rest. This goes for all entries that a pass cannot put into a script. -/
theorem rewrite_of_isWithin (script : Script) (within : configuration.IsWithin stricter) :
    (∀ kind, ((script.rewrite stricter).1.words kind).Sublist
        ((script.rewrite configuration).1.words kind)) ∧
      ((script.rewrite stricter).1.entries.filter fun entry => !entry.isFresh).Sublist
        ((script.rewrite configuration).1.entries.filter fun entry => !entry.isFresh) := by
  have ofItems : Within (script.rewrite stricter).1.entries
      (script.rewrite configuration).1.entries := by
    rw [fst_rewrite, fst_rewrite]
    exact Statement.within_reducedAll within script.items
  exact ⟨fun kind => ofItems.words_sublist kind, ofItems⟩

/-- Without suffixes and flags, a pass only unwraps assertions. -/
theorem rewrite_of_isWithin_production : ∃ script,
    parse "x=dev.assert(a);log.dev.fine(b);if($mode.getMode(c).test)d()" = .ok script ∧
      (script.rewrite .standard).1.words .reference = ["x", "a", "log", "b", "$mode", "c", "d"] ∧
      (script.rewrite .production).1.words .reference = ["x", "a", "d"] ∧
      ∀ kind, ((script.rewrite .production).1.words kind).Sublist
        ((script.rewrite .standard).1.words kind) := by
  have within : Configuration.standard.IsWithin .production := ⟨rfl, by decide, by decide⟩
  obtain ⟨script, accepted, ofStandard, ofProduction⟩ : ∃ script,
      parse "x=dev.assert(a);log.dev.fine(b);if($mode.getMode(c).test)d()" = .ok script ∧
        (script.rewrite .standard).1.words .reference =
          ["x", "a", "log", "b", "$mode", "c", "d"] ∧
        (script.rewrite .production).1.words .reference = ["x", "a", "d"] :=
    ⟨_, by cbv, by cbv, by cbv⟩
  exact ⟨script, accepted, ofStandard, ofProduction, (script.rewrite_of_isWithin within).1⟩

end Script

end ScriptStrip
