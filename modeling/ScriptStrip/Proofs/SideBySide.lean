import ScriptStrip.Proofs.Lockstep
/-
This file shows that the tokens of a tree and what the tree means tell where its parentheses are.
An expression may start with parentheses that end in the middle of it, so the parentheses at its
start are counted and what follows them is compared.
-/

namespace ScriptStrip

namespace Expression

/-- The number of parentheses that the expression starts with. -/
def lead : Expression → Nat
  | group inner _ => inner.lead + 1
  | property first _ _ | index first _ _ | call first _ _ | binary first _ _ _
  | assign first _ _ => first.lead
  | _ => 0

/-- The parentheses in front are those around the expression and those inside of it. -/
theorem lead_eq (expression : Expression) :
    expression.lead = expression.groups + expression.ungrouped.lead := by
  cases expression with
  | group inner span =>
      rw [lead, groups, ungrouped, lead_eq inner]
      omega
  | _ => exact (Nat.zero_add _).symm

@[simp] theorem groups_ungrouped (expression : Expression) : expression.ungrouped.groups = 0 := by
  cases expression with
  | group inner span => exact groups_ungrouped inner
  | _ => rfl

@[simp] theorem ungrouped_ungrouped (expression : Expression) :
    expression.ungrouped.ungrouped = expression.ungrouped := by
  cases expression with
  | group inner span => exact ungrouped_ungrouped inner
  | _ => rfl

/-- Where the first expression fits in, the second one does. -/
structure Follows (first second : Expression) : Prop where
  precedence : second.precedence = first.precedence
  opens : second.opensLikeStatement = first.opensLikeStatement
  grouped : first.WellShaped → second.Grouped

/-- Equally many parentheses make no difference. -/
theorem Follows.of_ungrouped (first second : Expression)
    (follows : first.ungrouped.Follows second.ungrouped) (sameGroups : first.groups = second.groups) :
    first.Follows second := by
  cases first with
  | group inner span =>
      cases second with
      | group inner' span' =>
          have inside := of_ungrouped inner inner' follows (Nat.succ.inj sameGroups)
          exact ⟨rfl, rfl, inside.grouped⟩
      | _ => cases sameGroups
  | _ =>
      cases second with
      | group inner' span' => cases sameGroups
      | _ => exact follows

end Expression

/-- The same key may be written with other quotes, but not as another word or number. -/
theorem PropertyKey.text_eq_of_same {key key' : PropertyKey} {lexeme lexeme' : Lexeme}
    (same : key.same key' = true) (runsOn : lexeme.runsOn = true)
    (isKey : key.IsWrittenAs lexeme) (isKey' : key'.IsWrittenAs lexeme') :
    lexeme.text = lexeme'.text := by
  cases key with
  | identifier name span =>
      cases key' with
      | identifier name' span' =>
          obtain rfl := beq_iff_eq.mp same
          rw [Lexeme.IsWord.text_eq isKey, Lexeme.IsWord.text_eq isKey']
      | _ => cases same
  | string content quote span =>
      obtain rfl : lexeme = .string content quote := isKey
      cases runsOn
  | number digits span =>
      cases key' with
      | number digits' span' =>
          obtain rfl := beq_iff_eq.mp same
          obtain rfl : lexeme = .number digits := isKey
          obtain rfl : lexeme' = .number digits := isKey'
          rfl
      | _ => cases same

namespace Spelling

/-- The same mark is written several times. -/
def repeated (wanted : Punctuator) : Nat → Spelling
  | 0 => nothing
  | count + 1 => (mark wanted).andThen (repeated wanted count)

/-- One mark more may be written in front or behind. -/
theorem repeated_andThen_mark (wanted : Punctuator) (count : Nat) :
    (repeated wanted count).andThen (mark wanted) = repeated wanted (count + 1) := by
  induction count with
  | zero =>
      rw [repeated, nothing_andThen, repeated, repeated, andThen_nothing]
  | succ count step =>
      rw [repeated, andThen_assoc, step, ← repeated]

/-- What follows the parentheses that the expression starts with. -/
def afterLead : Expression → Spelling
  | .group inner _ => (afterLead inner).andThen (mark .closeParenthesis)
  | .property parent name _ =>
      (afterLead parent).andThen ((mark .dot).andThen (one (·.IsWord name)))
  | .index parent key _ =>
      (afterLead parent).andThen (enclosed .openBracket .closeBracket (ofExpression key))
  | .call callee arguments _ =>
      (afterLead callee).andThen
        (enclosed .openParenthesis .closeParenthesis (listed (ofExpressions arguments)))
  | .binary left operator right _ =>
      (afterLead left).andThen ((one (· = operator.lexeme)).andThen (ofExpression right))
  | .assign target value _ =>
      (afterLead target).andThen ((mark .assign).andThen (ofExpression value))
  | expression => ofExpression expression

/-- An expression is its parentheses in front, and the rest behind them. -/
theorem ofExpression_eq_lead (expression : Expression) :
    ofExpression expression =
      (repeated .openParenthesis expression.lead).andThen (afterLead expression) := by
  cases expression with
  | group inner span =>
      rw [Expression.lead, repeated, afterLead, andThen_assoc, ← andThen_assoc (repeated _ _),
        ← ofExpression_eq_lead inner]
      rfl
  | property parent name span =>
      rw [Expression.lead, afterLead, ← andThen_assoc, ← ofExpression_eq_lead parent]
      rfl
  | index parent key span =>
      rw [Expression.lead, afterLead, ← andThen_assoc, ← ofExpression_eq_lead parent]
      rfl
  | call callee arguments span =>
      rw [Expression.lead, afterLead, ← andThen_assoc, ← ofExpression_eq_lead callee]
      rfl
  | binary left operator right span =>
      rw [Expression.lead, afterLead, ← andThen_assoc, ← ofExpression_eq_lead left]
      rfl
  | assign target value span =>
      rw [Expression.lead, afterLead, ← andThen_assoc, ← ofExpression_eq_lead target]
      rfl
  | _ => exact (nothing_andThen _).symm

/-- Behind the parentheses in front stand the bare rest and the closing ones. -/
theorem afterLead_eq (expression : Expression) :
    afterLead expression = (afterLead expression.ungrouped).andThen
      (repeated .closeParenthesis expression.groups) := by
  cases expression with
  | group inner span =>
      rw [afterLead, afterLead_eq inner, andThen_assoc, repeated_andThen_mark]
      rfl
  | _ => exact (andThen_nothing _).symm

/-- All the parentheses at the start are counted. -/
theorem front_afterLead (expression : Expression) {before after : TokenStream}
    (spelled : afterLead expression before after) :
    before.front.lexeme ≠ .punctuator .openParenthesis := by
  cases expression with
  | group inner span =>
      obtain ⟨middle, spelledInner, _⟩ := spelled
      exact front_afterLead inner spelledInner
  | property parent name span =>
      obtain ⟨middle, spelledParent, _⟩ := spelled
      exact front_afterLead parent spelledParent
  | index parent key span =>
      obtain ⟨middle, spelledParent, _⟩ := spelled
      exact front_afterLead parent spelledParent
  | call callee arguments span =>
      obtain ⟨middle, spelledCallee, _⟩ := spelled
      exact front_afterLead callee spelledCallee
  | binary left operator right span =>
      obtain ⟨middle, spelledLeft, _⟩ := spelled
      exact front_afterLead left spelledLeft
  | assign target value span =>
      obtain ⟨middle, spelledTarget, _⟩ := spelled
      exact front_afterLead target spelledTarget
  | boolean value span =>
      cases value <;>
      · rw [spelled.1]
        simp
  | undefined span =>
      obtain ⟨middle, ⟨isWord, _⟩, _⟩ := spelled
      simp [isWord]
  | array items span => simp [front_enclosed spelled]
  | object members span => simp [front_enclosed spelled]
  | function definition => simp [front_ofFunction spelled]
  | unary operator operand span =>
      obtain ⟨middle, ⟨isOperator, _⟩, _⟩ := spelled
      rw [isOperator]
      cases operator <;> simp [UnaryOperator.lexeme]
  | _ =>
      rw [spelled.1]
      simp

variable {related : TokenStream → TokenStream → Prop} {outcome : Prop}

/-- The same number of marks goes in lockstep. -/
theorem Lockstep.repeated (stays : StaysRelated related) (wanted : Punctuator) (count : Nat) :
    Lockstep related (repeated wanted count) (Spelling.repeated wanted count) True := by
  induction count with
  | zero => exact .nothing trivial
  | succ count step => exact ((Lockstep.mark stays wanted).andThen step).imp fun _ => trivial

/-- Where no more of the marks follow, there are equally many of them. -/
theorem repeated_inStep (stays : StaysRelated related) {wanted : Punctuator} (count count' : Nat)
    {before before' after after' : TokenStream} (isRelated : related before before')
    (spelled : repeated wanted count before after) (spelled' : repeated wanted count' before' after')
    (stops : after.front.lexeme ≠ .punctuator wanted)
    (stops' : after'.front.lexeme ≠ .punctuator wanted) : related after after' ∧ count = count' := by
  have sameFront := stays.front_mark_iff isRelated wanted
  cases count with
  | zero =>
      obtain rfl : after = before := spelled
      cases count' with
      | zero =>
          obtain rfl : after' = before' := spelled'
          exact ⟨isRelated, rfl⟩
      | succ count' =>
          obtain ⟨middle', isMark', _⟩ := spelled'
          exact absurd (sameFront.mpr isMark'.1) stops
  | succ count =>
      obtain ⟨middle, isMark, spelledRest⟩ := spelled
      cases count' with
      | zero =>
          obtain rfl : after' = before' := spelled'
          exact absurd (sameFront.mp isMark.1) stops'
      | succ count' =>
          obtain ⟨middle', isMark', spelledRest'⟩ := spelled'
          obtain ⟨relatedMiddle, _⟩ := Lockstep.mark stays wanted isRelated isMark isMark'
          obtain ⟨relatedAfter, rfl⟩ := repeated_inStep stays count count' relatedMiddle spelledRest
            spelledRest' stops stops'
          exact ⟨relatedAfter, rfl⟩

/-- Behind the parentheses that they start with, the two expressions are in step up to the
parentheses around them. -/
def InStep (related : TokenStream → TokenStream → Prop) (first second : Expression) : Prop :=
  ∀ ⦃before before' after after' : TokenStream⦄, related before before' →
    afterLead first before after → afterLead second before' after' →
    ∃ middle middle', related middle middle' ∧
      repeated .closeParenthesis first.groups middle after ∧
      repeated .closeParenthesis second.groups middle' after' ∧
      first.ungrouped.lead = second.ungrouped.lead ∧ first.ungrouped.Follows second.ungrouped

namespace InStep

variable {first second : Expression} {following following' : Spelling}

/-- As a whole, expressions that are in step have equally many parentheses around them. -/
theorem lockstep (stays : StaysRelated related) (inStep : InStep related first second) :
    Lockstep related (ofExpression first) (ofExpression second) (first.Follows second) := by
  intro before before' after after' isRelated spelled spelled'
  rw [ofExpression_eq_lead] at spelled spelled'
  obtain ⟨start, opens, behind⟩ := spelled
  obtain ⟨start', opens', behind'⟩ := spelled'
  obtain ⟨relatedStart, sameLead⟩ := repeated_inStep stays _ _ isRelated opens opens'
    (front_afterLead first behind) (front_afterLead second behind')
  obtain ⟨middle, middle', relatedMiddle, closes, closes', sameLeadInside, follows⟩ :=
    inStep relatedStart behind behind'
  have sameGroups : first.groups = second.groups := by
    rw [first.lead_eq, second.lead_eq] at sameLead
    omega
  rw [← sameGroups] at closes'
  exact ⟨(Lockstep.repeated stays .closeParenthesis _ relatedMiddle closes closes').1,
    .of_ungrouped first second follows sameGroups⟩

/-- Parentheses around the second expression are left aside. -/
theorem of_matches (notGroup : ∀ inner span, first ≠ .group inner span)
    (same : first.erased.same second.erased = true)
    (inStep : ∀ core, first.Matches core → InStep related first core) :
    InStep related first second := by
  rw [← second.erased_ungrouped] at same
  have isMatch := Expression.matches_of_same notGroup second.ungrouped_ne_group same
  intro before before' after after' isRelated spelled spelled'
  rw [afterLead_eq second] at spelled'
  obtain ⟨core', spelledCore', closes'⟩ := spelled'
  obtain ⟨middle, middle', relatedMiddle, closes, isCore, sameLead, follows⟩ :=
    inStep _ isMatch isRelated spelled spelledCore'
  rw [Expression.groups_ungrouped] at isCore
  obtain rfl : core' = middle' := isCore
  rw [Expression.ungrouped_ungrouped] at sameLead follows
  exact ⟨middle, core', relatedMiddle, closes, closes', sameLead, follows⟩

/-- What stands at the start of an expression ends in front of a token that is no closing
parenthesis. -/
theorem before (stays : StaysRelated related) (inStep : InStep related first second)
    (lockstep : Lockstep related following following' outcome)
    (stops : ∀ before after, following before after →
      before.front.lexeme ≠ .punctuator .closeParenthesis)
    (stops' : ∀ before after, following' before after →
      before.front.lexeme ≠ .punctuator .closeParenthesis) :
    Lockstep related ((afterLead first).andThen following) ((afterLead second).andThen following')
      (first.lead = second.lead ∧ first.Follows second ∧ outcome) := by
  rintro before before' after after' isRelated ⟨middle, spelled, behind⟩ ⟨middle', spelled', behind'⟩
  obtain ⟨core, core', relatedCore, closes, closes', sameLead, follows⟩ :=
    inStep isRelated spelled spelled'
  obtain ⟨relatedMiddle, sameGroups⟩ := repeated_inStep stays _ _ relatedCore closes closes'
    (stops _ _ behind) (stops' _ _ behind')
  obtain ⟨relatedAfter, holds⟩ := lockstep relatedMiddle behind behind'
  refine ⟨relatedAfter, ?_, .of_ungrouped first second follows sameGroups, holds⟩
  rw [first.lead_eq, second.lead_eq, sameGroups, sameLead]

/-- Without parentheses around them, expressions that are in step end together. -/
theorem of_lockstep (isUngrouped : first.groups = 0) (isUngrouped' : second.groups = 0)
    (again : first.ungrouped = first) (again' : second.ungrouped = second)
    (lockstep : Lockstep related (afterLead first) (afterLead second)
      (first.lead = second.lead ∧ first.Follows second)) : InStep related first second := by
  intro before before' after after' isRelated spelled spelled'
  obtain ⟨relatedAfter, sameLead, follows⟩ := lockstep isRelated spelled spelled'
  rw [isUngrouped, isUngrouped', again, again']
  exact ⟨after, after', relatedAfter, rfl, rfl, sameLead, follows⟩

end InStep

/-- A spelling that starts with another token starts with no closing parenthesis. -/
theorem not_closeParenthesis_of_one {wanted : Lexeme → Prop} {following : Spelling}
    (notClose : ¬ wanted (.punctuator .closeParenthesis)) (before after : TokenStream)
    (spelled : (one wanted).andThen following before after) :
    before.front.lexeme ≠ .punctuator .closeParenthesis := by
  obtain ⟨middle, ⟨found, _⟩, _⟩ := spelled
  intro isClose
  rw [isClose] at found
  exact notClose found

/-- A bare zero is the same as the zero behind the undefined value. -/
theorem same_zero_of_isBareZero {operand : Expression} (isZero : operand.erased.isBareZero = true) :
    (Expression.number "0" .null).erased.same operand.erased = true ∧
      operand.erased.same (Expression.number "0" .null).erased = true := by
  obtain ⟨span, isNumber⟩ := Expression.isBareZero_iff.mp isZero
  simp [isNumber, Expression.erased, Expression.same]

/-- The expression is in step with every expression that is the same but for parentheses. -/
def Steps (related : TokenStream → TokenStream → Prop) (first : Expression) : Prop :=
  ∀ second, first.erased.same second.erased = true → InStep related first second

section

variable (stays : StaysRelated related)

include stays

namespace InStep

variable {first first' second second' : Expression} (inStep : InStep related first first')

include inStep

omit stays in
/-- Parentheses around the first tree keep the step. -/
theorem group (span : Span) : InStep related (.group first span) first' := by
  rintro before before' after after' isRelated ⟨behind, spelled, isMark⟩ spelled'
  obtain ⟨middle, middle', relatedMiddle, closes, closes', sameLead, follows⟩ :=
    inStep isRelated spelled spelled'
  refine ⟨middle, middle', relatedMiddle, ?_, closes', sameLead, follows⟩
  rw [Expression.groups, ← repeated_andThen_mark]
  exact ⟨behind, closes, isMark⟩

/-- Properties of one name keep the step of their parents. -/
theorem property (name : String) (span span' : Span) :
    InStep related (.property first name span) (.property first' name span') := by
  apply InStep.of_lockstep rfl rfl rfl rfl
  have accessed := (Lockstep.mark stays .dot).andThen (.word stays name)
  have notClose : ¬ Lexeme.punctuator .closeParenthesis = .punctuator .dot := by decide
  apply (inStep.before stays accessed (not_closeParenthesis_of_one notClose)
    (not_closeParenthesis_of_one notClose)).imp
  rintro ⟨sameLead, follows, _⟩
  exact ⟨sameLead, rfl, follows.opens, fun wellShaped =>
    ⟨follows.precedence ▸ wellShaped.1, follows.grouped wellShaped.2⟩⟩

/-- Computed accesses keep the step of both parts. -/
theorem index (inStepKey : InStep related second second') (span span' : Span) :
    InStep related (.index first second span) (.index first' second' span') := by
  apply InStep.of_lockstep rfl rfl rfl rfl
  have accessed := (inStepKey.lockstep stays).enclosed stays .openBracket .closeBracket
  have notClose : ¬ Lexeme.punctuator .closeParenthesis = .punctuator .openBracket := by decide
  apply (inStep.before stays accessed (not_closeParenthesis_of_one notClose)
    (not_closeParenthesis_of_one notClose)).imp
  rintro ⟨sameLead, follows, followsKey⟩
  exact ⟨sameLead, rfl, follows.opens, fun wellShaped =>
    ⟨follows.precedence ▸ wellShaped.1, follows.grouped wellShaped.2.1,
      followsKey.grouped wellShaped.2.2⟩⟩

/-- Calls keep the step of their callees, with arguments in lockstep. -/
theorem call {arguments arguments' : List Expression}
    (all : AllLockstep related (ofExpressions arguments) (ofExpressions arguments')
      (Expression.AllWellShaped arguments → Expression.AllGrouped arguments')) (span span' : Span) :
    InStep related (.call first arguments span) (.call first' arguments' span') := by
  apply InStep.of_lockstep rfl rfl rfl rfl
  have called := all.enclosed stays .openParenthesis
    (by decide : Punctuator.closeParenthesis ≠ .comma)
  have notClose : ¬ Lexeme.punctuator .closeParenthesis = .punctuator .openParenthesis := by decide
  apply (inStep.before stays called (not_closeParenthesis_of_one notClose)
    (not_closeParenthesis_of_one notClose)).imp
  rintro ⟨sameLead, follows, grouped⟩
  exact ⟨sameLead, rfl, follows.opens, fun wellShaped =>
    ⟨follows.precedence ▸ wellShaped.1, follows.grouped wellShaped.2.1, grouped wellShaped.2.2⟩⟩

/-- Unary expressions keep the step of their operands. -/
theorem unary (operator : UnaryOperator) (span span' : Span) :
    InStep related (.unary operator first span) (.unary operator first' span') := by
  apply InStep.of_lockstep rfl rfl rfl rfl
  apply ((Lockstep.lexeme stays operator.lexeme).andThen (inStep.lockstep stays)).imp
  rintro ⟨_, follows⟩
  exact ⟨rfl, rfl, rfl, fun wellShaped =>
    ⟨follows.precedence ▸ wellShaped.1, follows.grouped wellShaped.2.2⟩⟩

/-- Binary expressions keep the step of both operands. -/
theorem binary (inStepRight : InStep related second second') (operator : BinaryOperator)
    (span span' : Span) :
    InStep related (.binary first operator second span) (.binary first' operator second' span') := by
  apply InStep.of_lockstep rfl rfl rfl rfl
  have notClose : ¬ Lexeme.punctuator .closeParenthesis = operator.lexeme := by
    cases operator <;> decide
  have operated := (Lockstep.lexeme stays operator.lexeme).andThen (inStepRight.lockstep stays)
  apply (inStep.before stays operated (not_closeParenthesis_of_one notClose)
    (not_closeParenthesis_of_one notClose)).imp
  rintro ⟨sameLead, follows, _, followsRight⟩
  exact ⟨sameLead, rfl, follows.opens, fun wellShaped =>
    ⟨follows.precedence ▸ wellShaped.1, followsRight.precedence ▸ wellShaped.2.1,
      follows.grouped wellShaped.2.2.1, followsRight.grouped wellShaped.2.2.2⟩⟩

/-- Assignments keep the step of target and value. -/
theorem assign (inStepValue : InStep related second second') (span span' : Span) :
    InStep related (.assign first second span) (.assign first' second' span') := by
  apply InStep.of_lockstep rfl rfl rfl rfl
  have assigned := (Lockstep.mark stays .assign).andThen (inStepValue.lockstep stays)
  have notClose : ¬ Lexeme.punctuator .closeParenthesis = .punctuator .assign := by decide
  apply (inStep.before stays assigned (not_closeParenthesis_of_one notClose)
    (not_closeParenthesis_of_one notClose)).imp
  rintro ⟨sameLead, follows, _, followsValue⟩
  exact ⟨sameLead, rfl, follows.opens, fun wellShaped =>
    ⟨follows.grouped wellShaped.2.1, followsValue.grouped wellShaped.2.2⟩⟩

/-- The undefined value is written as the operator in front of a zero. -/
theorem undefined_void (span span' : Span) (isZero : first = .number "0" .null) :
    InStep related (.undefined span) (.unary .void first' span') := by
  subst isZero
  apply InStep.of_lockstep rfl rfl rfl rfl
  apply ((Lockstep.keyword stays .voidKw).andThen (inStep.lockstep stays)).imp
  rintro ⟨_, follows⟩
  refine ⟨rfl, rfl, rfl, fun _ => ⟨?_, follows.grouped trivial⟩⟩
  rw [follows.precedence]
  exact Nat.le_of_ble_eq_true rfl

/-- The written operator in front of a zero steps with the undefined value. -/
theorem void_undefined (span span' : Span) (isZero : first' = .number "0" .null) :
    InStep related (.unary .void first span) (.undefined span') := by
  subst isZero
  apply InStep.of_lockstep rfl rfl rfl rfl
  exact ((Lockstep.keyword stays .voidKw).andThen (inStep.lockstep stays)).imp fun _ =>
    ⟨rfl, rfl, rfl, fun _ => trivial⟩

end InStep

namespace Steps

variable {span : Span}

/-- Parentheses around a number are the only way to write it otherwise. -/
theorem number (digits : String) : Steps related (.number digits span) := by
  intro second same
  apply InStep.of_matches (fun _ _ => Expression.noConfusion) same
  rintro core ⟨⟩
  exact .of_lockstep rfl rfl rfl rfl ((Lockstep.lexeme stays _).imp fun _ =>
    ⟨rfl, rfl, rfl, fun _ => trivial⟩)

/-- The quotes around a string make no difference. -/
theorem string (content : String) (quote : Quote) : Steps related (.string content quote span) := by
  intro second same
  apply InStep.of_matches (fun _ _ => Expression.noConfusion) same
  rintro core ⟨⟩
  exact .of_lockstep rfl rfl rfl rfl ((Lockstep.string stays content _ _).imp fun _ =>
    ⟨rfl, rfl, rfl, fun _ => trivial⟩)

/-- Booleans are in step. -/
theorem boolean (value : Bool) : Steps related (.boolean value span) := by
  intro second same
  apply InStep.of_matches (fun _ _ => Expression.noConfusion) same
  rintro core ⟨⟩
  cases value
  all_goals
    exact .of_lockstep rfl rfl rfl rfl ((Lockstep.keyword stays _).imp fun _ =>
      ⟨rfl, rfl, rfl, fun _ => trivial⟩)

/-- The null values are in step. -/
theorem null : Steps related (.null span) := by
  intro second same
  apply InStep.of_matches (fun _ _ => Expression.noConfusion) same
  rintro core ⟨⟩
  exact .of_lockstep rfl rfl rfl rfl ((Lockstep.keyword stays _).imp fun _ =>
    ⟨rfl, rfl, rfl, fun _ => trivial⟩)

/-- References to one name are in step. -/
theorem reference (name : String) : Steps related (.reference name span) := by
  intro second same
  apply InStep.of_matches (fun _ _ => Expression.noConfusion) same
  rintro core ⟨⟩
  exact .of_lockstep rfl rfl rfl rfl ((Lockstep.identifier stays _).imp fun _ =>
    ⟨rfl, rfl, rfl, fun _ => trivial⟩)

/-- The undefined value is also written as an operator in front of a zero. -/
theorem undefined : Steps related (.undefined span) := by
  intro second same
  apply InStep.of_matches (fun _ _ => Expression.noConfusion) same
  rintro core isMatch
  cases isMatch with
  | undefined =>
      exact .of_lockstep rfl rfl rfl rfl (((Lockstep.keyword stays _).andThen
        (Lockstep.lexeme stays _)).imp fun _ => ⟨rfl, rfl, rfl, fun _ => trivial⟩)
  | undefinedAsZero isZero =>
      have zeroSteps : Steps related (.number "0" .null) := .number stays "0"
      have inStep := zeroSteps _ (same_zero_of_isBareZero isZero).1
      exact inStep.undefined_void stays _ _ rfl

/-- Lists are in step if their items are in lockstep. -/
theorem array {items : List Expression}
    (all : ∀ items', Expression.sameList (Expression.erasedAll items)
      (Expression.erasedAll items') = true →
        AllLockstep related (ofExpressions items) (ofExpressions items')
          (Expression.AllWellShaped items → Expression.AllGrouped items')) :
    Steps related (.array items span) := by
  intro second same
  apply InStep.of_matches (fun _ _ => Expression.noConfusion) same
  rintro core isMatch
  cases isMatch with
  | array sameItems =>
      have enclosed := (all _ sameItems).enclosed stays .openBracket
        (by decide : Punctuator.closeBracket ≠ .comma)
      exact .of_lockstep rfl rfl rfl rfl (enclosed.imp fun grouped => ⟨rfl, rfl, rfl, grouped⟩)

/-- Objects are in step if their members are in lockstep. -/
theorem object {members : List Member}
    (all : ∀ members', Member.sameList (Member.erasedAll members)
      (Member.erasedAll members') = true →
        AllLockstep related (ofMembers members) (ofMembers members')
          (Member.AllWellShaped members → Member.AllGrouped members')) :
    Steps related (.object members span) := by
  intro second same
  apply InStep.of_matches (fun _ _ => Expression.noConfusion) same
  rintro core isMatch
  cases isMatch with
  | object sameMembers =>
      have enclosed := (all _ sameMembers).enclosed stays .openBrace
        (by decide : Punctuator.closeBrace ≠ .comma)
      exact .of_lockstep rfl rfl rfl rfl (enclosed.imp fun grouped => ⟨rfl, rfl, rfl, grouped⟩)

omit stays in
/-- Functions are in step if they are in lockstep. -/
theorem function {definition : FunctionDef}
    (lockstep : ∀ definition', definition.erased.same definition'.erased = true →
      Lockstep related (ofFunction definition) (ofFunction definition')
        (definition.WellShaped → definition'.Grouped)) :
    Steps related (.function definition) := by
  intro second same
  apply InStep.of_matches (fun _ _ => Expression.noConfusion) same
  rintro core isMatch
  cases isMatch with
  | function sameDefinition =>
      exact .of_lockstep rfl rfl rfl rfl ((lockstep _ sameDefinition).imp fun grouped =>
        ⟨rfl, rfl, rfl, grouped⟩)

variable {first second : Expression} (steps : Steps related first)

include steps

omit stays in
/-- A group is in step as what it contains. -/
theorem group : Steps related (.group first span) :=
  fun second same => (steps second same).group span

/-- A property is in step if its parent is. -/
theorem property (name : String) : Steps related (.property first name span) := by
  intro other same
  apply InStep.of_matches (fun _ _ => Expression.noConfusion) same
  rintro core isMatch
  cases isMatch with
  | property sameParent => exact (steps _ sameParent).property stays name _ _

/-- A computed access is in step if both parts are. -/
theorem index (stepsKey : Steps related second) : Steps related (.index first second span) := by
  intro other same
  apply InStep.of_matches (fun _ _ => Expression.noConfusion) same
  rintro core isMatch
  cases isMatch with
  | index sameParent sameKey =>
      exact (steps _ sameParent).index stays (stepsKey _ sameKey) _ _

/-- A call is in step if its callee is and its arguments are in lockstep. -/
theorem call {arguments : List Expression}
    (all : ∀ arguments', Expression.sameList (Expression.erasedAll arguments)
      (Expression.erasedAll arguments') = true →
        AllLockstep related (ofExpressions arguments) (ofExpressions arguments')
          (Expression.AllWellShaped arguments → Expression.AllGrouped arguments')) :
    Steps related (.call first arguments span) := by
  intro other same
  apply InStep.of_matches (fun _ _ => Expression.noConfusion) same
  rintro core isMatch
  cases isMatch with
  | call sameCallee sameArguments =>
      exact (steps _ sameCallee).call stays (all _ sameArguments) _ _

/-- A unary expression is in step if its operand is. -/
theorem unary (operator : UnaryOperator) : Steps related (.unary operator first span) := by
  intro other same
  apply InStep.of_matches (fun _ _ => Expression.noConfusion) same
  rintro core isMatch
  cases isMatch with
  | unary sameOperand => exact (steps _ sameOperand).unary stays operator _ _
  | zeroAsUndefined isZero =>
      have inStep := steps (.number "0" .null) (same_zero_of_isBareZero isZero).2
      exact inStep.void_undefined stays _ _ rfl

/-- A binary expression is in step if both operands are. -/
theorem binary (operator : BinaryOperator) (stepsRight : Steps related second) :
    Steps related (.binary first operator second span) := by
  intro other same
  apply InStep.of_matches (fun _ _ => Expression.noConfusion) same
  rintro core isMatch
  cases isMatch with
  | binary sameLeft sameRight =>
      exact (steps _ sameLeft).binary stays (stepsRight _ sameRight) operator _ _

/-- An assignment is in step if target and value are. -/
theorem assign (stepsValue : Steps related second) : Steps related (.assign first second span) := by
  intro other same
  apply InStep.of_matches (fun _ _ => Expression.noConfusion) same
  rintro core isMatch
  cases isMatch with
  | assign sameTarget sameValue =>
      exact (steps _ sameTarget).assign stays (stepsValue _ sameValue) _ _

end Steps

mutual

/-- Expressions that are erased to the same are in step. -/
theorem inStep_of_same (first : Expression) : Steps related first := by
  cases first with
  | number digits span => exact .number stays digits
  | string content quote span => exact .string stays content quote
  | boolean value span => exact .boolean stays value
  | null span => exact .null stays
  | undefined span => exact .undefined stays
  | reference name span => exact .reference stays name
  | array items span => exact .array stays (allLockstep_expressions items)
  | object members span => exact .object stays (allLockstep_members members)
  | function definition => exact .function (lockstep_function definition)
  | group inner span => exact (inStep_of_same inner).group
  | property parent name span => exact (inStep_of_same parent).property stays name
  | index parent key span => exact (inStep_of_same parent).index stays (inStep_of_same key)
  | call callee arguments span =>
      exact (inStep_of_same callee).call stays (allLockstep_expressions arguments)
  | unary operator operand span => exact (inStep_of_same operand).unary stays operator
  | binary left operator right span =>
      exact (inStep_of_same left).binary stays operator (inStep_of_same right)
  | assign target value span => exact (inStep_of_same target).assign stays (inStep_of_same value)
termination_by structural first

/-- Lists that are erased to the same go in lockstep. -/
theorem allLockstep_expressions (items items' : List Expression)
    (same : Expression.sameList (Expression.erasedAll items) (Expression.erasedAll items') = true) :
    AllLockstep related (ofExpressions items) (ofExpressions items')
      (Expression.AllWellShaped items → Expression.AllGrouped items') := by
  cases items with
  | nil =>
      cases items' with
      | nil => exact .nil fun _ => trivial
      | cons first' rest' => simp [Expression.erasedAll, Expression.sameList] at same
  | cons first rest =>
      cases items' with
      | nil => simp [Expression.erasedAll, Expression.sameList] at same
      | cons first' rest' =>
          rw [Expression.erasedAll, Expression.erasedAll, Expression.sameList,
            Bool.and_eq_true] at same
          have inStep := inStep_of_same first first' same.1
          exact .cons (inStep.lockstep stays) (allLockstep_expressions rest rest' same.2)
            fun follows grouped wellShaped => ⟨follows.grouped wellShaped.1, grouped wellShaped.2⟩
termination_by structural items

/-- Objects that are erased to the same go in lockstep. -/
theorem allLockstep_members (members members' : List Member)
    (same : Member.sameList (Member.erasedAll members) (Member.erasedAll members') = true) :
    AllLockstep related (ofMembers members) (ofMembers members')
      (Member.AllWellShaped members → Member.AllGrouped members') := by
  cases members with
  | nil =>
      cases members' with
      | nil => exact .nil fun _ => trivial
      | cons first' rest' =>
          cases first'
          simp [Member.erasedAll, Member.sameList] at same
  | cons first rest =>
      cases first with
      | mk key value span =>
          cases members' with
          | nil => simp [Member.erasedAll, Member.sameList] at same
          | cons first' rest' =>
              obtain ⟨key', value', span'⟩ := first'
              rw [Member.erasedAll, Member.erasedAll, Member.sameList, Member.same,
                Bool.and_eq_true, Bool.and_eq_true] at same
              obtain ⟨⟨sameKey, sameValue⟩, sameRest⟩ := same
              have inStep := inStep_of_same value value' sameValue
              have keys : Lockstep related (one key.IsWrittenAs) (one key'.IsWrittenAs) True := by
                apply Lockstep.one stays
                exact fun _ _ runsOn => PropertyKey.text_eq_of_same sameKey runsOn
              exact .cons (keys.andThen ((Lockstep.mark stays .colon).andThen
                (inStep.lockstep stays))) (allLockstep_members rest rest' sameRest)
                fun follows grouped wellShaped =>
                  ⟨follows.2.2.grouped wellShaped.1, grouped wellShaped.2⟩
termination_by structural members

/-- Functions that are erased to the same go in lockstep. -/
theorem lockstep_function (definition definition' : FunctionDef)
    (same : definition.erased.same definition'.erased = true) :
    Lockstep related (ofFunction definition) (ofFunction definition')
      (definition.WellShaped → definition'.Grouped) := by
  cases definition with
  | mk name parameters body span =>
      obtain ⟨name', parameters', body', span'⟩ := definition'
      rw [FunctionDef.erased, FunctionDef.erased, FunctionDef.same, Bool.and_eq_true,
        Bool.and_eq_true, beq_iff_eq, beq_iff_eq] at same
      obtain ⟨⟨rfl, rfl⟩, sameBody⟩ := same
      have named : Lockstep related ((name.map identifier).getD nothing)
          ((name.map identifier).getD nothing) True := by
        cases name with
        | none => exact .nothing trivial
        | some name => exact .identifier stays name
      have listed := (AllLockstep.refl stays parameters).enclosed stays .openParenthesis
        (by decide : Punctuator.closeParenthesis ≠ .comma)
      exact ((Lockstep.keyword stays .functionKw).andThen (named.andThen
        (listed.andThen (lockstep_block body body' sameBody)))).imp fun holds => holds.2.2.2
termination_by structural definition

/-- Blocks that are erased to the same go in lockstep. -/
theorem lockstep_block (block block' : Block) (same : block.erased.same block'.erased = true) :
    Lockstep related (ofBlock block) (ofBlock block') (block.WellShaped → block'.Grouped) := by
  cases block with
  | mk items span =>
      obtain ⟨items', span'⟩ := block'
      rw [Block.erased, Block.erased, Block.same] at same
      exact (lockstep_statements items items' same).enclosed stays .openBrace .closeBrace
termination_by structural block

/-- Statements that are erased to the same go in lockstep. -/
theorem lockstep_statement (statement statement' : Statement)
    (same : statement.erased.same statement'.erased = true) :
    Lockstep related (ofStatement statement) (ofStatement statement')
      (statement.WellShaped → statement'.Grouped) := by
  cases statement with
  | expression value span =>
      -- The two trees are the same but for parentheses, so the second one has the form of the
      -- first.
      cases Statement.matches_of_same same with
      | expression sameValue =>
          exact ((inStep_of_same value _ sameValue).lockstep stays).imp fun follows wellShaped =>
            ⟨follows.opens ▸ wellShaped.1, follows.grouped wellShaped.2⟩
  | declaration word items span =>
      cases Statement.matches_of_same same with
      | declaration sameItems =>
          have all := allLockstep_declarators items _ sameItems
          exact ((Lockstep.keyword stays word.keyword).andThen (all.separated stays)).imp
            fun holds wellShaped => holds.2 wellShaped.2
  | function definition =>
      cases Statement.matches_of_same same with
      | function sameDefinition =>
          exact (lockstep_function definition _ sameDefinition).imp
            fun grouped wellShaped => grouped wellShaped.2
  | conditional condition consequent alternate span =>
      cases Statement.matches_of_same same with
      | conditional sameCondition sameConsequent sameAlternate =>
          have inStep := inStep_of_same condition _ sameCondition
          have decided := (inStep.lockstep stays).enclosed stays .openParenthesis .closeParenthesis
          exact ((Lockstep.keyword stays .ifKw).andThen (decided.andThen
            ((lockstep_branch consequent _ sameConsequent).andThen
              (lockstep_alternate alternate _ sameAlternate)))).imp
            fun holds wellShaped => ⟨holds.2.1.grouped wellShaped.1, holds.2.2.1 wellShaped.2.1,
              holds.2.2.2 wellShaped.2.2.2⟩
  | returning value span =>
      cases value with
      | none =>
          cases Statement.matches_of_same same with
          | returningNothing => exact (Lockstep.keyword stays .returnKw).imp fun _ _ => trivial
      | some value =>
          cases Statement.matches_of_same same with
          | returning sameValue =>
              have inStep := inStep_of_same value _ sameValue
              exact ((Lockstep.keyword stays .returnKw).andThen
                (inStep.lockstep stays).onSameLine).imp fun holds => holds.2.grouped
  | block inner =>
      cases Statement.matches_of_same same with
      | block sameInner => exact lockstep_block inner _ sameInner
  | empty span =>
      cases Statement.matches_of_same same with
      | empty => exact (Lockstep.mark stays .semicolon).imp fun _ _ => trivial
termination_by structural statement

/-- Lists of statements that are erased to the same go in lockstep. -/
theorem lockstep_statements (items items' : List Statement)
    (same : Statement.sameList (Statement.erasedAll items) (Statement.erasedAll items') = true) :
    Lockstep related (ofStatements items) (ofStatements items')
      (Statement.AllWellShaped items → Statement.AllGrouped items') := by
  cases items with
  | nil =>
      cases items' with
      | nil => exact .nothing fun _ => trivial
      | cons first' rest' => simp [Statement.erasedAll, Statement.sameList] at same
  | cons first rest =>
      cases items' with
      | nil => simp [Statement.erasedAll, Statement.sameList] at same
      | cons first' rest' =>
          rw [Statement.erasedAll, Statement.erasedAll, Statement.sameList,
            Bool.and_eq_true] at same
          exact ((lockstep_statement first first' same.1).andThen
            ((Lockstep.ending stays (Statement.matches_of_same same.1).needsSemicolon).andThen
              (lockstep_statements rest rest' same.2))).imp
            fun holds wellShaped => ⟨holds.1 wellShaped.1, holds.2.2 wellShaped.2⟩
termination_by structural items

/-- Declarations that are erased to the same go in lockstep. -/
theorem allLockstep_declarators (items items' : List Declarator)
    (same : Declarator.sameList (Declarator.erasedAll items) (Declarator.erasedAll items') = true) :
    AllLockstep related (ofDeclarators items) (ofDeclarators items')
      (Declarator.AllWellShaped items → Declarator.AllGrouped items') := by
  cases items with
  | nil =>
      cases items' with
      | nil => exact .nil fun _ => trivial
      | cons first' rest' =>
          cases first'
          simp [Declarator.erasedAll, Declarator.sameList] at same
  | cons first rest =>
      cases first with
      | mk name value span =>
          cases items' with
          | nil => simp [Declarator.erasedAll, Declarator.sameList] at same
          | cons first' rest' =>
              obtain ⟨name', value', span'⟩ := first'
              rw [Declarator.erasedAll, Declarator.erasedAll, Declarator.sameList, Declarator.same,
                Bool.and_eq_true, Bool.and_eq_true, beq_iff_eq] at same
              obtain ⟨⟨rfl, sameValue⟩, sameRest⟩ := same
              have all := allLockstep_declarators rest rest' sameRest
              cases value with
              | none =>
                  cases value' with
                  | none =>
                      exact .cons (.identifier stays name) all
                        fun _ grouped wellShaped => ⟨trivial, grouped wellShaped⟩
                  | some value' => simp [Expression.erasedOption, Expression.sameOption] at sameValue
              | some value =>
                  cases value' with
                  | none => simp [Expression.erasedOption, Expression.sameOption] at sameValue
                  | some value' =>
                      rw [Expression.erasedOption, Expression.erasedOption,
                        Expression.sameOption] at sameValue
                      have inStep := inStep_of_same value value' sameValue
                      exact .cons ((Lockstep.identifier stays name).andThen
                        ((Lockstep.mark stays .assign).andThen (inStep.lockstep stays))) all
                        fun follows grouped wellShaped =>
                          ⟨follows.2.2.grouped wellShaped.1, grouped wellShaped.2⟩
termination_by structural items

/-- Branches that are erased to the same go in lockstep. -/
theorem lockstep_branch (branch branch' : Branch) (same : branch.erased.same branch'.erased = true) :
    Lockstep related (ofBranch branch) (ofBranch branch')
      (branch.WellShaped → branch'.Grouped) := by
  cases branch with
  | braced block =>
      cases branch' with
      | braced block' =>
          rw [Branch.erased, Branch.erased, Branch.same] at same
          exact lockstep_block block block' same
      | single statement' => simp [Branch.erased, Branch.same] at same
  | single statement =>
      cases branch' with
      | braced block' => simp [Branch.erased, Branch.same] at same
      | single statement' =>
          rw [Branch.erased, Branch.erased, Branch.same] at same
          exact ((lockstep_statement statement statement' same).andThen
            (Lockstep.ending stays (Statement.matches_of_same same).needsSemicolon)).imp
            fun holds wellShaped => holds.1 wellShaped.2
termination_by structural branch

/-- Second branches that are erased to the same go in lockstep. -/
theorem lockstep_alternate (branch branch' : Option Branch)
    (same : Branch.sameOption (Branch.erasedOption branch) (Branch.erasedOption branch') = true) :
    Lockstep related (ofAlternate branch) (ofAlternate branch')
      (Branch.AlternateWellShaped branch → Branch.AlternateGrouped branch') := by
  cases branch with
  | none =>
      cases branch' with
      | none => exact .nothing fun _ => trivial
      | some branch' => simp [Branch.erasedOption, Branch.sameOption] at same
  | some branch =>
      cases branch' with
      | none => simp [Branch.erasedOption, Branch.sameOption] at same
      | some branch' =>
          rw [Branch.erasedOption, Branch.erasedOption, Branch.sameOption] at same
          exact ((Lockstep.keyword stays .elseKw).andThen
            (lockstep_branch branch branch' same)).imp fun holds => holds.2
termination_by structural branch

end

end

end Spelling

end ScriptStrip
