import ScriptStrip.Proofs.Exposed
/-
This file shows that a tree lacks something as soon as one of the pairs that printing adds is
missing. Every part that is put in parentheses has a place that asks for them.
-/

namespace ScriptStrip

open Piece Spelling

/-- The tree is grouped, and it is not the expression where this one would need parentheses. -/
def Expression.Sits (expression : Expression) (condition : Bool) (tree : Expression) : Prop :=
  tree.Grouped ∧ (condition = true → tree ≠ expression.regrouped)

/-- A tree that binds tightly enough sits at its place with or without the parentheses. -/
theorem Expression.sits_of_le {expression tree : Expression} {minimum : Precedence}
    (tight : minimum ≤ tree.precedence) (grouped : tree.Grouped) :
    expression.Sits (decide (expression.precedence < minimum)) tree := by
  refine ⟨grouped, fun looser same => ?_⟩
  rw [same, Expression.precedence_regrouped] at tight
  exact absurd (of_decide_eq_true looser) (Nat.not_lt.mpr tight)

/-- A part that binds tightly enough is given no parentheses. -/
theorem Expression.draftPlaced_of_le {expression : Expression} {minimum : Precedence}
    (tight : minimum ≤ expression.precedence) (draft : Draft) :
    expression.draftPlaced minimum draft = draft := by
  rw [draftPlaced, decide_eq_false (Nat.not_lt.mpr tight)]
  rfl

/-- A number and a dot behind it would be read as one number. -/
theorem Piece.Pair.fits_bareInteger {good : Lexeme → Prop} {style : Style} {digits name : String}
    {span outer : Span} (written : good (.number digits))
    (isBare : (Expression.number digits span).isBareInteger = true) :
    Pair.Fits good style
      (Exposed ofExpression
        (·.erased = (Expression.property (.number digits span) name outer).erased)
        Expression.Grouped)
      ⟨[], [token (.number digits)], [ofMark .dot, token (.ofWord name)]⟩ := by
  refine ⟨⟨0, .number digits span, written, rfl⟩, True,
    ofExpression (.property (.number digits span) name outer), ?_, ?_, ?_⟩
  · exact fun _ => ⟨digits, span, rfl, isBare, rfl⟩
  · exact ⟨.property (.number digits span) name outer, rfl, rfl, .inl trivial⟩
  · have number : Spell [token (.number digits)] (ofExpression (.number digits span)) := .one rfl
    exact number.andThen (.cons rfl (.one (Lexeme.isWord_ofWord name)))

/-- The parentheses at a place are erased again. -/
theorem Expression.erased_placed (expression : Expression) (condition : Bool) :
    (expression.regrouped.groupedIf condition).erased = expression.erased := by
  rw [erased_groupedIf, erased_regrouped]

/-- A pair that is put around an expression exposes the expression itself at that place. -/
theorem Piece.Draft.Spells.groupedIf {good : Lexeme → Prop} {style : Style} {depth : UInt8}
    {expression : Expression} {draft : Draft} (written : expression.Written good)
    (isDraft : draft.pieces = expression.pieces style depth)
    (spells : draft.Spells good style (ofExpression expression.regrouped)
      (Exposed ofExpression (·.erased = expression.erased) Expression.Grouped))
    (condition : Bool) :
    (draft.groupedIf condition).Spells good style
      (ofExpression (expression.regrouped.groupedIf condition))
      (Exposed ofExpression (·.erased = expression.erased) (expression.Sits condition)) := by
  cases condition with
  | false => exact spells.part id (fun _ => rfl) (fun _ => id) fun _ sits => sits.1
  | true =>
      have enclosed : (Draft.enclosed .openParenthesis .closeParenthesis draft).Spells good style
          (ofExpression (.group expression.regrouped .null))
          (Exposed ofExpression (·.erased = expression.erased) (expression.Sits true)) :=
        (spells.enclosed .openParenthesis .closeParenthesis).part (fun tree => .group tree .null)
          (fun _ => rfl) (fun _ => id) fun _ sits => sits.1
      refine ⟨enclosed.spell, fun pair isAdded => ?_⟩
      rcases List.mem_cons.mp isAdded with rfl | isInside
      · refine ⟨⟨depth, expression, written, isDraft⟩, False, _, False.elim,
          ⟨expression.regrouped, rfl, expression.erased_regrouped, .inr ?_⟩, ?_⟩
        · exact fun sits => sits.2 rfl rfl
        · have spell := spells.spell
          rwa [← List.append_nil draft.pieces] at spell
      · exact enclosed.fits pair isInside

/-- A statement and the semicolon that is printed behind it. -/
theorem Piece.Draft.Spells.ended {good : Lexeme → Prop} {style : Style} {draft : Draft}
    {statement : Statement}
    (spells : draft.Spells good style (ofStatement statement.regrouped)
      (Exposed ofStatement (·.erased = statement.erased) Statement.Grouped)) :
    (draft ++ Draft.plain statement.terminator).Spells good style
      ((ofStatement statement.regrouped).andThen statement.regrouped.ending)
      (Exposed (fun statement => (ofStatement statement).andThen statement.ending)
        (·.erased = statement.erased) Statement.Grouped) := by
  refine ⟨spells.spell.andThen (Statement.spell_terminator statement.erased_regrouped), ?_⟩
  intro pair isAdded
  rcases Draft.mem_added_append.mp isAdded with ⟨pair, isInside, rfl⟩ | ⟨pair, isPlain, rfl⟩
  · apply (spells.fits pair isInside).within
    rintro glued _ ⟨tree, rfl, same, lacks⟩ spell
    exact ⟨_, ⟨tree, rfl, same, lacks⟩, spell.andThen (Statement.spell_terminator same)⟩
  · cases isPlain

section

variable (good : Lexeme → Prop) (style : Style) (depth : UInt8)

/-- Without one of its added pairs, the text of the expression spells one that lacks something. -/
def Expression.Exposes (expression : Expression) : Prop :=
  (expression.draft style depth).Spells good style (ofExpression expression.regrouped)
    (Exposed ofExpression (·.erased = expression.erased) Expression.Grouped)

/-- Without one of the added pairs, the text of the items spells a list that lacks something. -/
def Expression.AllExpose (items : List Expression) : Prop :=
  Draft.AllSpell good style (Expression.itemDrafts style depth items)
    (ofExpressions (Expression.regroupedAll items))
    (Exposed ofExpressions (Expression.erasedAll · = Expression.erasedAll items)
      Expression.AllGrouped)

/-- Without one of the added pairs, the text of the members spells some that lack something. -/
def Member.AllExpose (members : List Member) : Prop :=
  Draft.AllSpell good style (Member.allDrafts style depth members)
    (ofMembers (Member.regroupedAll members))
    (Exposed ofMembers (Member.erasedAll · = Member.erasedAll members) Member.AllGrouped)

/-- Without one of its added pairs, the text of the statement spells one that lacks something. -/
def Statement.Exposes (statement : Statement) : Prop :=
  (statement.draft style depth).Spells good style (ofStatement statement.regrouped)
    (Exposed ofStatement (·.erased = statement.erased) Statement.Grouped)

/-- Without one of the added pairs, the text of the names spells some that lack something. -/
def Declarator.AllExpose (items : List Declarator) : Prop :=
  Draft.AllSpell good style (Declarator.allDrafts style depth items)
    (ofDeclarators (Declarator.regroupedAll items))
    (Exposed ofDeclarators (Declarator.erasedAll · = Declarator.erasedAll items)
      Declarator.AllGrouped)

/-- Without one of its added pairs, the text of the branch spells one that lacks something. -/
def Branch.Exposes (branch : Branch) : Prop :=
  (branch.draft style depth).Spells good style (ofBranch branch.regrouped)
    (Exposed ofBranch (·.erased = branch.erased) Branch.Grouped)

/-- The same is asked of a second branch, if there is one. -/
def Branch.AlternateExposes (branch : Option Branch) : Prop :=
  (Branch.alternateDraft style depth branch).Spells good style
    (ofAlternate (Branch.regroupedOption branch))
    (Exposed ofAlternate (Branch.erasedOption · = Branch.erasedOption branch)
      Branch.AlternateGrouped)

end

variable {good : Lexeme → Prop} {style : Style} {depth : UInt8}

namespace Expression

variable {span : Span}

/-- An expression in a place that may ask for parentheses. -/
theorem Exposes.groupedIf {expression : Expression} (exposes : expression.Exposes good style depth)
    (written : expression.Written good) (condition : Bool) :
    ((expression.draft style depth).groupedIf condition).Spells good style
      (ofExpression (expression.regrouped.groupedIf condition))
      (Exposed ofExpression (·.erased = expression.erased) (expression.Sits condition)) :=
  Draft.Spells.groupedIf written (expression.pieces_draft style depth) exposes condition

/-- An object exposes its pairs if its members do. -/
theorem exposes_object {members : List Member} (written : Member.AllWritten good members)
    (names : Lexeme.TellsNames good) (all : Member.AllExpose good style depth members) :
    (Expression.object members span).Exposes good style depth := by
  cases members with
  | nil => exact .plain (spell_expression style depth names (.object [] span) written)
  | cons first rest =>
      have spells := (all.listed.before_blank style.lexemes_gap).skip style.lexemes_gap
      rw [Exposes, Expression.draft]
      · exact (spells.enclosed .openBrace .closeBrace).part
          (fun members => .object members span) (fun _ => rfl)
          (fun _ same => by simp [Expression.erased, same]) fun _ => id
      · exact List.cons_ne_nil _ _

/-- Parentheses around a bare integer do not show in the tree. The tree has the same parts without
them, and only its text is read differently. -/
theorem exposes_property_bareInteger {parent : Expression} {name : String}
    (written : (Expression.property parent name span).Written good)
    (names : Lexeme.TellsNames good) (isBare : parent.isBareInteger = true) :
    (Expression.property parent name span).Exposes good style depth := by
  cases parent with
  | number digits span' =>
      have spell := spell_expression style depth names _ written
      rw [← Expression.pieces_draft] at spell
      refine ⟨spell, fun pair isAdded => ?_⟩
      rw [Expression.draft, isBare] at isAdded
      obtain rfl : pair = ⟨[], [token (.number digits)],
          [ofMark .dot, token (.ofWord name)]⟩ := by
        simpa [Draft.mem_added_append, Draft.groupedIf, Draft.enclosed, Expression.draft,
          Pair.within, Expression.pieces, eq_comm] using isAdded
      exact Pair.fits_bareInteger written.1 isBare
  | _ => cases isBare

/-- A property exposes its pairs if its parent does. -/
theorem exposes_property {parent : Expression} {name : String}
    (written : (Expression.property parent name span).Written good)
    (names : Lexeme.TellsNames good) (exposes : parent.Exposes good style depth) :
    (Expression.property parent name span).Exposes good style depth := by
  by_cases isBare : parent.isBareInteger = true
  · exact exposes_property_bareInteger written names isBare
  · have accessed : Spell [ofMark .dot, token (.ofWord name)]
        ((Spelling.mark .dot).andThen (Spelling.one (·.IsWord name))) :=
      .cons rfl (.one (Lexeme.isWord_ofWord name))
    have spells := exposes.groupedIf written.1 (parent.precedence < Precedence.member)
    rw [Exposes, Expression.draft, Expression.regrouped, Bool.of_not_eq_true isBare, Bool.false_or]
    exact (spells.before accessed).part (fun parent => .property parent name span)
      (fun _ => rfl) (fun _ same => by simp [Expression.erased, same])
      fun _ grouped => Expression.sits_of_le grouped.1 grouped.2

/-- A computed access exposes its pairs if both parts do. -/
theorem exposes_index {parent key : Expression}
    (written : (Expression.index parent key span).Written good)
    (exposes : parent.Exposes good style depth) (exposesKey : key.Exposes good style depth) :
    (Expression.index parent key span).Exposes good style depth :=
  (exposes.groupedIf written.1 (parent.precedence < Precedence.member)).pair
    (Draft.Spells.enclosed exposesKey .openBracket .closeBracket)
    ⟨_, rfl, parent.erased_placed _⟩ ⟨_, rfl, key.erased_regrouped⟩
    (fun parent key => .index parent key span) (fun _ _ => rfl)
    (fun _ _ same same' => by simp [Expression.erased, same, same'])
    fun _ _ grouped => ⟨Expression.sits_of_le grouped.1 grouped.2.1, grouped.2.2⟩

/-- A call exposes its pairs if its callee and its arguments do. -/
theorem exposes_call {callee : Expression} {arguments : List Expression}
    (written : (Expression.call callee arguments span).Written good)
    (exposes : callee.Exposes good style depth)
    (all : Expression.AllExpose good style depth arguments) :
    (Expression.call callee arguments span).Exposes good style depth :=
  (exposes.groupedIf written.1 (callee.precedence < Precedence.member)).pair
    (all.listed.enclosed .openParenthesis .closeParenthesis)
    ⟨_, rfl, callee.erased_placed _⟩ ⟨_, rfl, Expression.erasedAll_regroupedAll arguments⟩
    (fun callee arguments => .call callee arguments span) (fun _ _ => rfl)
    (fun _ _ same same' => by simp [Expression.erased, same, same'])
    fun _ _ grouped => ⟨Expression.sits_of_le grouped.1 grouped.2.1, grouped.2.2⟩

/-- A unary expression exposes its pairs if its operand does. -/
theorem exposes_unary {operator : UnaryOperator} {operand : Expression}
    (written : (Expression.unary operator operand span).Written good)
    (names : Lexeme.TellsNames good) (exposes : operand.Exposes good style depth) :
    (Expression.unary operator operand span).Exposes good style depth := by
  by_cases isUndefined : operator = .void ∧ operand.isBareZero = true
  · obtain ⟨rfl, isZero⟩ := isUndefined
    obtain ⟨span', rfl⟩ := Expression.isBareZero_iff.mp isZero
    have spell := spell_expression style depth names _ written
    rw [← Expression.pieces_draft] at spell
    exact ⟨spell, by simp [Expression.draft, Expression.draftPlaced, Draft.groupedIf,
      Draft.mem_added_append, Expression.precedence, Precedence.unary, Precedence.primary]⟩
  · have isWritten : operand.Written good := written
    have spells := exposes.groupedIf isWritten (operand.precedence < Precedence.unary)
    have operated : ∀ text other, Spell text other → Spell ((token operator.lexeme ::
        if operator.isWord || operand.hasSign operator then [space] else []) ++ text)
        ((Spelling.one (· = operator.lexeme)).andThen other) :=
      fun _ _ spell => .cons rfl (.skip (lexemes_spaceIf _) spell)
    rw [Exposes, Expression.draft, Expression.regrouped, if_neg isUndefined]
    exact (spells.headed _ operated).part (fun operand => .unary operator operand span)
      (fun _ => rfl) (fun _ same => by simp [Expression.erased, same])
      fun _ grouped => Expression.sits_of_le grouped.1 grouped.2

/-- A binary expression exposes its pairs if both operands do. -/
theorem exposes_binary {left right : Expression} {operator : BinaryOperator}
    (written : (Expression.binary left operator right span).Written good)
    (exposes : left.Exposes good style depth) (exposesRight : right.Exposes good style depth) :
    (Expression.binary left operator right span).Exposes good style depth := by
  have spells := exposes.groupedIf written.1 (left.precedence < operator.precedence)
  have spellsRight := exposesRight.groupedIf written.2
    (right.precedence < operator.precedence + 1)
  have operated : ∀ text other, Spell text other →
      Spell ((style.gap ++ token operator.lexeme ::
        if style.pretty || right.isSigned then [space] else []) ++ text)
        ((Spelling.one (· = operator.lexeme)).andThen other) := by
    intro _ _ spell
    rw [List.append_assoc]
    exact .skip style.lexemes_gap (.cons rfl (.skip (lexemes_spaceIf _) spell))
  exact spells.pair (spellsRight.headed _ operated) ⟨_, rfl, left.erased_placed _⟩
    ⟨_, rfl, right.erased_placed _⟩ (fun left right => .binary left operator right span)
    (fun _ _ => rfl) (fun _ _ same same' => by simp [Expression.erased, same, same'])
    fun _ _ grouped => ⟨Expression.sits_of_le grouped.1 grouped.2.2.1,
      Expression.sits_of_le grouped.2.1 grouped.2.2.2⟩

/-- Neither side of an assignment is put in parentheses. -/
theorem exposes_assign {target value : Expression} (isTarget : target.IsTarget)
    (exposes : target.Exposes good style depth) (exposesValue : value.Exposes good style depth) :
    (Expression.assign target value span).Exposes good style depth := by
  have assigned : ∀ text other, Spell text other →
      Spell ((style.gap ++ ofMark .assign :: style.gap) ++ text)
        ((Spelling.mark .assign).andThen other) := by
    intro _ _ spell
    rw [List.append_assoc]
    exact .skip style.lexemes_gap (.markThen .assign (.skip style.lexemes_gap spell))
  rw [Exposes, Expression.draft,
    Expression.draftPlaced_of_le (Expression.member_le_of_isTarget isTarget),
    Expression.draftPlaced_of_le value.assignment_le_precedence]
  exact exposes.pair (Draft.Spells.headed exposesValue _ assigned)
    ⟨_, rfl, target.erased_regrouped⟩ ⟨_, rfl, value.erased_regrouped⟩
    (fun target value => .assign target value span) (fun _ _ => rfl)
    (fun _ _ same same' => by simp [Expression.erased, same, same']) fun _ _ => id

/-- A list of expressions is put together item by item. -/
theorem allExpose_cons {first : Expression} {rest : List Expression}
    (exposes : first.Exposes good style depth)
    (all : Expression.AllExpose good style depth rest) :
    Expression.AllExpose good style depth (first :: rest) := by
  rw [AllExpose, Expression.itemDrafts,
    Expression.draftPlaced_of_le first.assignment_le_precedence]
  exact all.pair exposes ⟨_, rfl, first.erased_regrouped⟩
    ⟨_, rfl, Expression.erasedAll_regroupedAll rest⟩ List.cons (fun _ _ => rfl)
    (fun _ _ same same' => by simp [Expression.erasedAll, same, same']) fun _ _ => id

end Expression

/-- The members of an object are put together one by one. -/
theorem Member.allExpose_cons {key : PropertyKey} {value : Expression} {span : Span}
    {rest : List Member} (exposes : value.Exposes good style depth)
    (all : Member.AllExpose good style depth rest) :
    Member.AllExpose good style depth (⟨key, value, span⟩ :: rest) := by
  obtain ⟨lexeme, isPiece, isKey⟩ := key.isWrittenAs_piece
  have keyed : ∀ text other, Spell text other →
      Spell ((token lexeme :: ofMark .colon :: style.gap) ++ text)
        ((Spelling.one key.IsWrittenAs).andThen ((Spelling.mark .colon).andThen other)) :=
    fun _ _ spell => .cons isKey (.markThen .colon (.skip style.lexemes_gap spell))
  rw [AllExpose, Member.allDrafts, Member.draft, isPiece,
    Expression.draftPlaced_of_le value.assignment_le_precedence]
  exact all.pair (Draft.Spells.headed exposes _ keyed) ⟨_, rfl, value.erased_regrouped⟩
    ⟨_, rfl, Member.erasedAll_regroupedAll rest⟩
    (fun value rest => ⟨key, value, span⟩ :: rest) (fun _ _ => rfl)
    (fun _ _ same same' => by simp [Member.erasedAll, same, same']) fun _ _ => id

namespace Declarator

variable {name : String} {span : Span} {rest : List Declarator}

/-- A variable without a value asks for no parentheses. -/
theorem allExpose_bare (names : Lexeme.TellsNames good) (isName : good (.identifier name))
    (all : Declarator.AllExpose good style depth rest) :
    Declarator.AllExpose good style depth (⟨name, none, span⟩ :: rest) := by
  apply Draft.AllSpell.cons (.plain (.identifier (names name isName))) all
  · exact fun _ _ => False.elim
  · intro glued others isExposed
    exact isExposed.map _ (fun rest => ⟨name, none, span⟩ :: rest) (fun _ => rfl)
      (fun _ same => by simp [Declarator.erasedAll, Expression.erasedOption, same])
      fun _ grouped => grouped.2

/-- Declared names with initial values are put together one by one. -/
theorem allExpose_cons {value : Expression} (names : Lexeme.TellsNames good)
    (isName : good (.identifier name)) (exposes : value.Exposes good style depth)
    (all : Declarator.AllExpose good style depth rest) :
    Declarator.AllExpose good style depth (⟨name, some value, span⟩ :: rest) := by
  have declared : ∀ text other, Spell text other →
      Spell ((token (.ofWord name) :: style.gap ++ ofMark .assign :: style.gap) ++ text)
        ((Spelling.identifier name).andThen ((Spelling.mark .assign).andThen other)) := by
    intro _ _ spell
    rw [List.append_assoc]
    exact .cons (names name isName) (.skip style.lexemes_gap
      (.markThen .assign (.skip style.lexemes_gap spell)))
  rw [AllExpose, Declarator.allDrafts, Declarator.draft,
    Expression.draftPlaced_of_le value.assignment_le_precedence]
  exact all.pair (Draft.Spells.headed exposes _ declared) ⟨_, rfl, value.erased_regrouped⟩
    ⟨_, rfl, Declarator.erasedAll_regroupedAll rest⟩
    (fun value rest => ⟨name, some value, span⟩ :: rest) (fun _ _ => rfl)
    (fun _ _ same same' => by
      simp [Declarator.erasedAll, Expression.erasedOption, same, same']) fun _ _ => id

end Declarator

namespace Statement

variable {span : Span}

/-- The parentheses that keep an expression from opening like another statement are added, because
the expression alone would not be a statement. -/
theorem exposes_expression {value : Expression} (written : value.Written good)
    (exposes : value.Exposes good style depth) :
    (Statement.expression value span).Exposes good style depth := by
  apply (exposes.groupedIf written value.isAmbiguousAtStart).part
    (fun value => .expression value span) (fun _ => rfl)
    (fun _ same => by simp [Statement.erased, same])
  rintro tree ⟨opens, grouped⟩
  refine ⟨grouped, ?_⟩
  rintro isAmbiguous rfl
  rw [Expression.opensLikeStatement_regrouped, isAmbiguous] at opens
  cases opens

/-- A declaration exposes its pairs if its names do. -/
theorem exposes_declaration {word : DeclarationWord} {items : List Declarator}
    (all : Declarator.AllExpose good style depth items) :
    (Statement.declaration word items span).Exposes good style depth := by
  have declared : ∀ text other, Spell text other →
      Spell ([ofKeyword word.keyword, space] ++ text)
        ((Spelling.keyword word.keyword).andThen other) :=
    fun _ _ spell => .cons rfl (.skipSpace spell)
  exact (all.parted.headed _ declared).part (fun items => .declaration word items span)
    (fun _ => rfl) (fun _ same => by simp [Statement.erased, same]) fun _ => id

/-- Both branches of a condition stand behind one another. -/
theorem exposes_branches {consequent : Branch} {alternate : Option Branch}
    (exposes : consequent.Exposes good style depth)
    (exposesAlternate : Branch.AlternateExposes good style depth alternate) :
    (consequent.draft style depth ++ Branch.alternateDraft style depth alternate).Spells good style
      ((ofBranch consequent.regrouped).andThen (ofAlternate (Branch.regroupedOption alternate)))
      (Exposed (fun branches : Branch × Option Branch =>
        (ofBranch branches.1).andThen (ofAlternate branches.2))
        (fun branches => branches.1.erased = consequent.erased ∧
          Branch.erasedOption branches.2 = Branch.erasedOption alternate)
        fun branches => branches.1.Grouped ∧ Branch.AlternateGrouped branches.2) :=
  exposes.pair exposesAlternate ⟨_, rfl, consequent.erased_regrouped⟩
    ⟨_, rfl, Branch.erasedOption_regroupedOption alternate⟩
    Prod.mk (fun _ _ => rfl) (fun _ _ => And.intro) fun _ _ => id

/-- A conditional exposes its pairs if its condition and its branches do. -/
theorem exposes_conditional {condition : Expression} {consequent : Branch}
    {alternate : Option Branch} (exposes : condition.Exposes good style depth)
    (exposesConsequent : consequent.Exposes good style depth)
    (exposesAlternate : Branch.AlternateExposes good style depth alternate) :
    (Statement.conditional condition consequent alternate span).Exposes good style depth := by
  have spells : (Draft.enclosed .openParenthesis .closeParenthesis
      (condition.draft style depth) ++ (Draft.plain style.gap ++
        (consequent.draft style depth ++
          Branch.alternateDraft style depth alternate))).Spells good style
      ((Spelling.enclosed .openParenthesis .closeParenthesis
        (ofExpression condition.regrouped)).andThen ((ofBranch consequent.regrouped).andThen
          (ofAlternate (Branch.regroupedOption alternate))))
      (Exposed (fun parts : Expression × Branch × Option Branch =>
        (Spelling.enclosed .openParenthesis .closeParenthesis (ofExpression parts.1)).andThen
          ((ofBranch parts.2.1).andThen (ofAlternate parts.2.2)))
        (fun parts => parts.1.erased = condition.erased ∧ parts.2.1.erased = consequent.erased ∧
          Branch.erasedOption parts.2.2 = Branch.erasedOption alternate)
        fun parts => parts.1.Grouped ∧ parts.2.1.Grouped ∧ Branch.AlternateGrouped parts.2.2) :=
    (Draft.Spells.enclosed exposes .openParenthesis .closeParenthesis).pair
      ((exposes_branches exposesConsequent exposesAlternate).skip style.lexemes_gap)
      ⟨_, rfl, condition.erased_regrouped⟩
      ⟨(consequent.regrouped, Branch.regroupedOption alternate), rfl,
        consequent.erased_regrouped, Branch.erasedOption_regroupedOption alternate⟩
      Prod.mk (fun _ _ => rfl) (fun _ _ => And.intro) fun _ _ => id
  have branching : ∀ text other, Spell text other →
      Spell ((ofKeyword .ifKw :: style.gap) ++ text) ((Spelling.keyword .ifKw).andThen other) :=
    fun _ _ spell => .cons rfl (.skip style.lexemes_gap spell)
  exact (spells.headed _ branching).part
    (fun parts => .conditional parts.1 parts.2.1 parts.2.2 span) (fun _ => rfl)
    (by rintro _ ⟨same, same', same''⟩; simp [Statement.erased, same, same', same''])
    fun _ => id

/-- A value has to start behind `return`, and it still does without a pair of parentheses. -/
theorem exposes_returning {value : Expression} (written : value.Written good)
    (names : Lexeme.TellsNames good) (exposes : value.Exposes good style depth) :
    (Statement.returning (some value) span).Exposes good style depth := by
  have opens := value.openExpression_pieces style depth names written
  have onLine : ∀ text other, OpenExpression good text → Spell text other →
      Spell ([ofKeyword .returnKw, space] ++ text)
        ((Spelling.keyword .returnKw).andThen other.onSameLine) := by
    rintro _ other ⟨front, rest, rfl, _⟩ spell
    exact .cons_onSameLine rfl spell
  rw [← Expression.pieces_draft] at opens
  refine ⟨onLine _ _ opens exposes.spell, fun pair isAdded => ?_⟩
  rcases Draft.mem_added_append.mp isAdded with ⟨pair, isPlain, rfl⟩ | ⟨pair, isInside, rfl⟩
  · cases isPlain
  · have fits := exposes.fits pair isInside
    obtain ⟨depth', inner, isWritten', isInner⟩ := fits.inner
    have opensInner := inner.openExpression_pieces style depth' names isWritten'
    rw [← isInner] at opensInner
    rw [← Draft.whole_added _ pair isInside] at opens
    apply fits.within
    intro glued other isExposed spell
    rw [List.append_nil]
    refine ⟨_, ?_, onLine _ _ (Pair.openExpression_thinned opens opensInner) spell⟩
    exact isExposed.map (fun other => (Spelling.keyword .returnKw).andThen other.onSameLine)
      (fun value => .returning (some value) span) (fun _ => rfl)
      (fun _ same => by simp [Statement.erased, Expression.erasedOption, same]) fun _ => id

end Statement

/-- A second branch exposes its pairs if the branch does. -/
theorem Branch.alternateExposes_some {branch : Branch}
    (exposes : branch.Exposes good style depth) :
    Branch.AlternateExposes good style depth (some branch) := by
  have head : ∀ (blanks : List Piece), lexemes blanks = [] → ∀ text other, Spell text other →
      Spell ((style.gap ++ ofKeyword .elseKw :: blanks) ++ text)
        ((Spelling.keyword .elseKw).andThen other) := by
    intro blanks blank _ _ spell
    rw [List.append_assoc]
    exact .skip style.lexemes_gap (.cons rfl (.skip blank spell))
  cases branch with
  | braced block =>
      exact (Draft.Spells.headed exposes _ (head _ style.lexemes_gap)).part some (fun _ => rfl)
        (fun _ same => by simp [Branch.erasedOption, same]) fun _ => id
  | single statement =>
      exact (Draft.Spells.headed exposes _ (head _ lexemes_space)).part some (fun _ => rfl)
        (fun _ same => by simp [Branch.erasedOption, same]) fun _ => id

namespace Piece

variable (style)

mutual

/-- Every expression exposes what its pairs are for. -/
theorem exposes_expression (depth : UInt8) (names : Lexeme.TellsNames good) (expression : Expression)
    (written : expression.Written good) : expression.Exposes good style depth := by
  cases expression with
  | array items span =>
      have all := exposes_expressions depth names items written
      exact (all.listed.enclosed .openBracket .closeBracket).part (fun items => .array items span)
        (fun _ => rfl) (fun _ same => by simp [Expression.erased, same]) fun _ => id
  | object members span =>
      exact Expression.exposes_object written names (exposes_members depth names members written)
  | function definition =>
      exact (exposes_function depth names definition written).part Expression.function
        (fun _ => rfl) (fun _ same => by simp [Expression.erased, same]) fun _ => id
  | group inner span =>
      have spells : (inner.draft style depth).Spells _ _ _ _ :=
        exposes_expression depth names inner written
      exact (spells.enclosed .openParenthesis .closeParenthesis).part
        (fun inner => .group inner span) (fun _ => rfl) (fun _ => id) fun _ => id
  | property parent name span =>
      exact Expression.exposes_property written names
        (exposes_expression depth names parent written.1)
  | index parent key span =>
      exact Expression.exposes_index written (exposes_expression depth names parent written.1)
        (exposes_expression depth names key written.2)
  | call callee arguments span =>
      exact Expression.exposes_call written (exposes_expression depth names callee written.1)
        (exposes_expressions depth names arguments written.2)
  | unary operator operand span =>
      exact Expression.exposes_unary written names (exposes_expression depth names operand written)
  | binary left operator right span =>
      exact Expression.exposes_binary written (exposes_expression depth names left written.1)
        (exposes_expression depth names right written.2)
  | assign target value span =>
      exact Expression.exposes_assign written.1 (exposes_expression depth names target written.2.1)
        (exposes_expression depth names value written.2.2)
  | _ => exact .plain (spell_expression style depth names _ written)

/-- The items of a list expose what their pairs are for. -/
theorem exposes_expressions (depth : UInt8) (names : Lexeme.TellsNames good)
    (items : List Expression) (written : Expression.AllWritten good items) :
    Expression.AllExpose good style depth items := by
  cases items with
  | nil => exact .nil
  | cons first rest =>
      exact Expression.allExpose_cons (exposes_expression depth names first written.1)
        (exposes_expressions depth names rest written.2)

/-- The members of an object expose what their pairs are for. -/
theorem exposes_members (depth : UInt8) (names : Lexeme.TellsNames good) (members : List Member)
    (written : Member.AllWritten good members) : Member.AllExpose good style depth members := by
  cases members with
  | nil => exact .nil
  | cons first rest =>
      cases first with
      | mk key value span =>
          exact Member.allExpose_cons (exposes_expression depth names value written.2.1)
            (exposes_members depth names rest written.2.2)

/-- A function exposes what the pairs of its body are for. -/
theorem exposes_function (depth : UInt8) (names : Lexeme.TellsNames good) (definition : FunctionDef)
    (written : definition.Written good) :
    (definition.draft style depth).Spells good style (ofFunction definition.regrouped)
      (Exposed ofFunction (·.erased = definition.erased) FunctionDef.Grouped) := by
  cases definition with
  | mk name parameters body span =>
      apply ((exposes_block depth names body written.2.2).headed (fun body =>
        Spelling.inOrder [Spelling.keyword .functionKw,
          (name.map Spelling.identifier).getD Spelling.nothing,
          Spelling.enclosed .openParenthesis .closeParenthesis
            (Spelling.listed (parameters.map Spelling.identifier)), body]) ?_).part
        (fun body => ⟨name, parameters, body, span⟩) (fun _ => rfl)
        (fun _ same => by simp [FunctionDef.erased, same]) fun _ => id
      intro _ _ spell
      have head := spell.functionHead style names written.1 written.2.1
      cases name <;> simpa using head

/-- A block exposes what the pairs of its statements are for. -/
theorem exposes_block (depth : UInt8) (names : Lexeme.TellsNames good) (block : Block)
    (written : block.Written good) :
    (block.draft style depth).Spells good style (ofBlock block.regrouped)
      (Exposed ofBlock (·.erased = block.erased) Block.Grouped) := by
  cases block with
  | mk items span =>
      cases items with
      | nil => exact .plain (.enclosed .nil)
      | cons first rest =>
          have blank : lexemes (style.lineBreak ++ style.indentation depth) = [] := by simp
          have spells := ((exposes_statements (depth + 1) names (first :: rest)
            written).before_blank blank).skip style.lexemes_lineBreak
          rw [Block.draft]
          · exact (spells.enclosed .openBrace .closeBrace).part (fun items => ⟨items, span⟩)
              (fun _ => rfl) (fun _ same => by simp [Block.erased, same]) fun _ => id
          · exact List.cons_ne_nil _ _

/-- Every statement exposes what its pairs are for. -/
theorem exposes_statement (depth : UInt8) (names : Lexeme.TellsNames good) (statement : Statement)
    (written : statement.Written good) : statement.Exposes good style depth := by
  cases statement with
  | expression value span =>
      exact Statement.exposes_expression written (exposes_expression depth names value written)
  | declaration word items span =>
      exact Statement.exposes_declaration (exposes_declarators depth names items written)
  | function definition =>
      exact (exposes_function depth names definition written).part Statement.function
        (fun _ => rfl) (fun _ same => by simp [Statement.erased, same]) fun _ => id
  | conditional condition consequent alternate span =>
      exact Statement.exposes_conditional (exposes_expression depth names condition written.1)
        (exposes_branch depth names consequent written.2.1)
        (exposes_alternate depth names alternate written.2.2)
  | returning value span =>
      cases value with
      | none => exact .plain (.keyword .returnKw)
      | some value =>
          exact Statement.exposes_returning written names
            (exposes_expression depth names value written)
  | block inner =>
      exact (exposes_block depth names inner written).part Statement.block (fun _ => rfl)
        (fun _ same => by simp [Statement.erased, same]) fun _ => id
  | empty span => exact .plain (.mark .semicolon)

/-- Statements in a row expose what their pairs are for. -/
theorem exposes_statements (depth : UInt8) (names : Lexeme.TellsNames good) (items : List Statement)
    (written : Statement.AllWritten good items) :
    (Draft.separated style.lineBreak (Statement.lineDrafts style depth items)).Spells good style
      (ofStatements (Statement.regroupedAll items))
      (Exposed ofStatements (Statement.erasedAll · = Statement.erasedAll items)
        Statement.AllGrouped) := by
  cases items with
  | nil => exact .plain .nil
  | cons first rest =>
      have spellsFirst : (first.draft style depth).Spells _ _ _ _ :=
        exposes_statement depth names first written.1
      have spells := spellsFirst.ended.skip (style.lexemes_indentation depth)
      have spellsRest := exposes_statements depth names rest written.2
      rw [Statement.regroupedAll, ofStatements]
      show Draft.Spells _ _ _ (((ofStatement first.regrouped).andThen
        (first.regrouped.ending.andThen _))) _
      rw [← Spelling.andThen_assoc]
      apply Draft.Spells.lines style.lexemes_lineBreak spells spellsRest
      · intro glued other isExposed
        exact isExposed.map (·.andThen (ofStatements (Statement.regroupedAll rest)))
          (· :: Statement.regroupedAll rest) (fun _ => Spelling.andThen_assoc _ _ _)
          (fun _ same => by simp [Statement.erasedAll, same, Statement.erasedAll_regroupedAll])
          fun _ grouped => grouped.1
      · intro glued other isExposed
        exact isExposed.map _ (first.regrouped :: ·) (fun _ => Spelling.andThen_assoc _ _ _)
          (fun _ same => by simp [Statement.erasedAll, same, Statement.erased_regrouped])
          fun _ grouped => grouped.2

/-- Declared names expose what their pairs are for. -/
theorem exposes_declarators (depth : UInt8) (names : Lexeme.TellsNames good)
    (items : List Declarator) (written : Declarator.AllWritten good items) :
    Declarator.AllExpose good style depth items := by
  cases items with
  | nil => exact .nil
  | cons first rest =>
      cases first with
      | mk name value span =>
          cases value with
          | none =>
              exact Declarator.allExpose_bare names written.1
                (exposes_declarators depth names rest written.2)
          | some value =>
              exact Declarator.allExpose_cons names written.1
                (exposes_expression depth names value written.2.1)
                (exposes_declarators depth names rest written.2.2)

/-- Every branch exposes what its pairs are for. -/
theorem exposes_branch (depth : UInt8) (names : Lexeme.TellsNames good) (branch : Branch)
    (written : branch.Written good) : branch.Exposes good style depth := by
  cases branch with
  | braced block =>
      exact (exposes_block depth names block written).part Branch.braced (fun _ => rfl)
        (fun _ same => by simp [Branch.erased, same]) fun _ => id
  | single statement =>
      have spells : (statement.draft style depth).Spells _ _ _ _ :=
        exposes_statement depth names statement written
      exact spells.ended.part Branch.single (fun _ => rfl)
        (fun _ same => by simp [Branch.erased, same]) fun _ => id

/-- A second branch exposes what its pairs are for. -/
theorem exposes_alternate (depth : UInt8) (names : Lexeme.TellsNames good) (branch : Option Branch)
    (written : Branch.AlternateWritten good branch) :
    Branch.AlternateExposes good style depth branch := by
  cases branch with
  | none => exact .plain .nil
  | some branch =>
      exact Branch.alternateExposes_some (exposes_branch depth names branch written)

end

end Piece

end ScriptStrip
