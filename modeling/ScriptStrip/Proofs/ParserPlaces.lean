import ScriptStrip.Proofs.NodeParts
/-
This file shows that the readers of the grammar give every node its place. The span of a node is
put together from spans of tokens and of nodes that have their places already.
-/

namespace ScriptStrip

namespace Node

variable {before middle after : TokenStream}

/-- The node of an expression is located if the parts that it stands for are. -/
theorem Located.ofExpression {expression : Expression} (between : expression.Between before after)
    (encloses : expression.span.Encloses before after)
    (parts : AllLocated (Node.ofExpression expression) before after) :
    Located (.expression expression) before after :=
  .intro between.wellShaped between.spelled encloses parts

/-- A located expression stands between the streams. -/
theorem Located.between {expression : Expression}
    (located : Located (.expression expression) before after) : expression.Between before after := by
  cases located with
  | intro wellShaped spelled _ _ => exact ⟨wellShaped, spelled⟩

end Node

namespace Grammar
open ScriptStrip.Parser Spelling Node

/-- The readers of a level give the nodes that they return their places. What closes a statement
on its right edge is read behind its place. -/
structure Places (below : Grammar) : Prop where
  expression : ∀ {before value after}, before.Ordered → Reads below.expression before value after →
    Located (.expression value) before after
  unary : ∀ {before value after}, before.Ordered → Reads below.unary before value after →
    Located (.expression value) before after
  statement : ∀ {before value after}, before.Ordered → Reads below.statement before value after →
    ∃ middle, Located (.statement value) before middle ∧ value.edge middle after

/-- The nodes of a list have their places if those of its items do. -/
theorem places_itemsUntil {Item : Type} {close : Punctuator} {item : Parser Item}
    (nodes : Item → List Node)
    (each : ∀ {before value after}, before.Ordered → Reads item before value after →
      AllLocated (nodes value) before after)
    {levels : Nat} {before after : TokenStream} {items : List Item} {stop : Span}
    (ordered : before.Ordered)
    (reads : Reads (itemsUntil close item levels) before (items, stop) after) :
    ∃ middle, AllLocated (items.flatMap nodes) before middle ∧
      middle.front.lexeme = .punctuator close ∧ stop = middle.front.span ∧ after = middle.advance := by
  induction levels generalizing before items with
  | zero => exact absurd reads not_reads_tooDeep
  | succ levels inductionHypothesis =>
      rw [reads_itemsUntil_succ_iff] at reads
      rcases reads with ⟨isClose, rfl, rfl, rfl⟩ | ⟨_, first, middle, readsFirst, continues⟩
      · exact ⟨before, .nil List.suffix_rfl, isClose, rfl, rfl⟩
      · have located := each ordered readsFirst
        rcases continues with ⟨isComma, rest, readsRest, rfl⟩ | ⟨_, isClose, rfl, rfl, rfl⟩
        · have orderedRest := (ordered.of_suffix located.ends).advance
          obtain ⟨behind, locatedRest, isClose, rfl, rfl⟩ :=
            inductionHypothesis orderedRest readsRest
          rw [List.flatMap_cons]
          exact ⟨behind, located.append (List.tail_suffix _) locatedRest, isClose, rfl, rfl⟩
        · rw [List.flatMap_singleton]
          exact ⟨middle, located, isClose, rfl, rfl⟩

variable {below : Grammar} {levels : Nat} {before after : TokenStream}

namespace Places

/-- The expressions of a list are located one behind the other. -/
theorem expressions {close : Punctuator} {items : List Expression} {stop : Span}
    (places : below.Places) (ordered : before.Ordered)
    (reads : Reads (itemsUntil close below.expression levels) before (items, stop) after) :
    ∃ middle, AllLocated (items.map .expression) before middle ∧
      middle.front.lexeme = .punctuator close ∧ stop = middle.front.span ∧ after = middle.advance := by
  have asMap : items.map Node.expression = items.flatMap fun item => [.expression item] :=
    (List.flatMap_pure_eq_map _ _).symm
  rw [asMap]
  exact places_itemsUntil _ (fun ordered reads => (places.expression ordered reads).all) ordered reads

/-- The value of a member is located behind its key. -/
theorem member {member : Member} (places : below.Places) (ordered : before.Ordered)
    (reads : Reads below.member before member after) :
    AllLocated [.expression member.value] before after := by
  obtain ⟨_, _, _, readsValue, _⟩ := reads_member_iff.mp reads
  have located := places.expression ordered.advance.advance readsValue
  exact located.all.within ((List.tail_suffix _).trans (List.tail_suffix _)) List.suffix_rfl

/-- The values of an object are located one behind the other. -/
theorem members {close : Punctuator} {members : List Member} {stop : Span}
    (places : below.Places) (ordered : before.Ordered)
    (reads : Reads (itemsUntil close below.member levels) before (members, stop) after) :
    ∃ middle, AllLocated (members.map fun member => .expression member.value) before middle ∧
      middle.front.lexeme = .punctuator close ∧ stop = middle.front.span ∧ after = middle.advance := by
  have asMap : members.map (fun member => Node.expression member.value) =
      members.flatMap fun member => [.expression member.value] :=
    (List.flatMap_pure_eq_map _ _).symm
  rw [asMap]
  exact places_itemsUntil _ (fun ordered reads => places.member ordered reads) ordered reads

/-- Statements in a row are located one behind the other. -/
theorem statements {statement : Parser Statement} {items : List Statement}
    (each : ∀ {before value after}, before.Ordered → Reads statement before value after →
      ∃ middle, Located (.statement value) before middle ∧ value.edge middle after)
    (ordered : before.Ordered)
    (reads : Reads (Grammar.statements statement levels) before items after) :
    AllLocated (items.map .statement) before after := by
  induction levels generalizing before items with
  | zero => exact absurd reads not_reads_tooDeep
  | succ levels inductionHypothesis =>
      rw [reads_statements_succ_iff] at reads
      rcases reads with ⟨_, rfl, rfl⟩ |
        ⟨_, first, middle, readsFirst, behind, closes, rest, readsRest, rfl⟩
      · exact .nil List.suffix_rfl
      · obtain ⟨stop, located, edge⟩ := each ordered readsFirst
        have afterEdge := (portable_edge first).bounded _ _ edge
        have afterMark : behind.ahead <:+ middle.ahead := by
          rcases closes with ⟨_, reads⟩ | ⟨_, rfl⟩
          · rcases reads_semicolon_iff.mp reads with ⟨_, rfl⟩ | ⟨_, rfl, _⟩
            · exact List.tail_suffix _
            · exact List.suffix_rfl
          · exact List.suffix_rfl
        have follows := afterMark.trans afterEdge
        have locatedRest :=
          inductionHypothesis (ordered.of_suffix (follows.trans located.all.ends)) readsRest
        exact .cons List.suffix_rfl located (locatedRest.within follows List.suffix_rfl)

/-- A block is located around its statements. -/
theorem block {block : Block} (sound : below.Sound) (places : below.Places) (ordered : before.Ordered)
    (reads : Reads below.block before block after) : Located (.block block) before after := by
  obtain ⟨wellShaped, spelled⟩ := sound.block reads
  obtain ⟨isOpen, middle, readsItems, isClose, rfl, isSpan⟩ := reads_block_iff.mp reads
  have located := statements places.statement ordered.advance readsItems
  refine .intro wellShaped spelled ?_ (located.within (List.tail_suffix _) (List.tail_suffix _))
  rw [Node.span, isSpan]
  exact .union ordered (.of_token (by simp [isOpen])) located.ends (.of_token (by simp [isClose]))

/-- A function is located around its body. -/
theorem functionDef {definition : FunctionDef} {named : Bool} (sound : below.Sound)
    (places : below.Places) (ordered : before.Ordered)
    (reads : Reads (below.functionDef named) before definition after) :
    Located (.function definition) before after := by
  obtain ⟨wellShaped, spelled, _⟩ := sound.functionDef reads
  obtain ⟨isWord, _, behind, spelledName, isOpen, stop, middle, readsParameters, readsBody,
    isSpan⟩ := reads_functionDef_iff.mp reads
  have eachParameter : ∀ {before parameter after}, before.Ordered →
      Reads (Prod.fst <$> identifier "function parameter") before parameter after →
        AllLocated [] before after := by
    intro before parameter after _ reads
    obtain ⟨_, rfl⟩ := reads_name_iff.mp reads
    exact .nil (List.tail_suffix _)
  have afterName := bounded_name definition.name _ _ spelledName
  have orderedName := (ordered.advance.of_suffix afterName).advance
  obtain ⟨inner, located, _, _, rfl⟩ :=
    places_itemsUntil (fun _ => []) eachParameter orderedName readsParameters
  have follows : inner.advance.ahead <:+ before.advance.ahead :=
    ((List.tail_suffix _).trans located.ends).trans ((List.tail_suffix _).trans afterName)
  have locatedBody := places.block sound (ordered.advance.of_suffix follows) readsBody
  refine .intro wellShaped spelled ?_
    (locatedBody.all.within (follows.trans (List.tail_suffix _)) List.suffix_rfl)
  rw [Node.span, isSpan]
  exact .union ordered (.of_token (by simp [isWord])) follows locatedBody.encloses

/-- An expression of a single token covers it. -/
theorem token {expression : Expression} (between : expression.Between before before.advance)
    (isSpan : expression.span = before.front.span) (inside : before.front.lexeme ≠ .endOfSource)
    (noParts : Node.ofExpression expression = []) :
    Located (.expression expression) before before.advance := by
  refine .ofExpression between ?_ ?_
  · rw [isSpan]
    exact .of_token inside
  · rw [noParts]
    exact .nil (List.tail_suffix _)

/-- The tightest expressions are located around their parts. -/
theorem primary {expression : Expression} (sound : below.Sound) (places : below.Places)
    (ordered : before.Ordered) (reads : Reads below.primary before expression after) :
    Located (.expression expression) before after := by
  have between := (sound.primary reads).1
  rw [Grammar.primary, reads_peek_bind_iff, reads_ite_iff] at reads
  rcases reads with ⟨_, readsFunction⟩ | ⟨_, readsRest⟩
  · obtain ⟨definition, _, readsDefinition, rfl, rfl⟩ := by
      simpa only [reads_bind_iff, reads_pure_iff] using readsFunction
    have located := places.functionDef sound ordered readsDefinition
    exact .ofExpression between located.encloses located.all
  · rw [reads_next_bind_iff] at readsRest
    split at readsRest
    · rename_i digits isNumber
      obtain ⟨rfl, rfl⟩ := reads_pure_iff.mp readsRest
      exact token between rfl (by simp [isNumber]) rfl
    · rename_i content quote isString
      obtain ⟨rfl, rfl⟩ := reads_pure_iff.mp readsRest
      exact token between rfl (by simp [isString]) rfl
    · rename_i isWord
      obtain ⟨rfl, rfl⟩ := reads_pure_iff.mp readsRest
      exact token between rfl (by simp [isWord]) rfl
    · rename_i isWord
      obtain ⟨rfl, rfl⟩ := reads_pure_iff.mp readsRest
      exact token between rfl (by simp [isWord]) rfl
    · rename_i isWord
      obtain ⟨rfl, rfl⟩ := reads_pure_iff.mp readsRest
      exact token between rfl (by simp [isWord]) rfl
    · rename_i name isName
      obtain ⟨rfl, rfl⟩ := reads_pure_iff.mp readsRest
      exact token between rfl (by simp [isName]) rfl
    · rename_i isOpen
      simp only [reads_bind_iff, reads_expect_iff, reads_pure_iff] at readsRest
      obtain ⟨inner, middle, readsInner, _, _, ⟨isClose, rfl, rfl⟩, rfl, rfl⟩ := readsRest
      have located := (places.expression ordered.advance readsInner).all
      exact .ofExpression between (.union ordered (.of_token (by simp [isOpen])) located.ends
        (.of_token (by simp [isClose]))) (located.within (List.tail_suffix _) (List.tail_suffix _))
    · rename_i isOpen
      simp only [reads_bind_iff, reads_pure_iff] at readsRest
      obtain ⟨⟨items, stop⟩, _, readsItems, rfl, rfl⟩ := readsRest
      obtain ⟨middle, located, isClose, rfl, rfl⟩ := places.expressions ordered.advance readsItems
      exact .ofExpression between (.union ordered (.of_token (by simp [isOpen])) located.ends
        (.of_token (by simp [isClose]))) (located.within (List.tail_suffix _) (List.tail_suffix _))
    · rename_i isOpen
      simp only [reads_bind_iff, reads_pure_iff] at readsRest
      obtain ⟨⟨members, stop⟩, _, readsMembers, rfl, rfl⟩ := readsRest
      obtain ⟨middle, located, isClose, rfl, rfl⟩ := places.members ordered.advance readsMembers
      exact .ofExpression between (.union ordered (.of_token (by simp [isOpen])) located.ends
        (.of_token (by simp [isClose]))) (located.within (List.tail_suffix _) (List.tail_suffix _))
    · exact absurd readsRest not_reads_refuse

/-- What has its place already is the first part of what is read next. -/
theorem accesses {start : TokenStream} {head expression : Expression} (sound : below.Sound)
    (places : below.Places) (ordered : start.Ordered)
    (located : Located (.expression head) start before) (tight : .member ≤ head.precedence)
    (reads : Reads (below.accesses levels head) before expression after) :
    Located (.expression expression) start after := by
  induction levels generalizing head before with
  | zero => exact absurd reads not_reads_tooDeep
  | succ levels inductionHypothesis =>
      have between := located.between
      have orderedBefore := ordered.of_suffix located.encloses.ends
      -- Each step puts one more access around the head, which stays located from the same start.
      by_cases continues : before.front.lexeme.ContinuesAccess
      · rcases continues with isDot | isBracket | isParenthesis
        · obtain ⟨name, isName, readsRest⟩ := (reads_accesses_dot_iff isDot).mp reads
          have inside : before.advance.front.lexeme ≠ .endOfSource := by
            intro atEnd
            simp [atEnd, Lexeme.IsWord] at isName
          have locatedAccess : Located (.expression (.property head name
              (head.span.union before.advance.front.span))) start before.advance.advance :=
            .ofExpression ⟨⟨tight, between.wellShaped⟩, before, between.spelled, _, ⟨isDot, rfl⟩,
              isName, rfl⟩ (.union ordered located.encloses (List.tail_suffix _) (.of_token inside))
              (located.all.within List.suffix_rfl ((List.tail_suffix _).trans (List.tail_suffix _)))
          exact inductionHypothesis locatedAccess (Nat.le_refl _) readsRest
        · obtain ⟨key, middle, readsKey, isClose, readsRest⟩ :=
            (reads_accesses_bracket_iff isBracket).mp reads
          have locatedKey := places.expression orderedBefore.advance readsKey
          have betweenKey := locatedKey.between
          have follows := locatedKey.all.ends.trans (List.tail_suffix before.ahead)
          have locatedAccess : Located (.expression (.index head key
              (head.span.union middle.front.span))) start middle.advance :=
            .ofExpression ⟨⟨tight, between.wellShaped, betweenKey.wellShaped⟩, before,
              between.spelled, enclosed_iff.mpr ⟨isBracket, middle, betweenKey.spelled, isClose, rfl⟩⟩
              (.union ordered located.encloses follows (.of_token (by simp [isClose])))
              (located.all.append (List.tail_suffix _)
                (locatedKey.all.within List.suffix_rfl (List.tail_suffix _)))
          exact inductionHypothesis locatedAccess (Nat.le_refl _) readsRest
        · obtain ⟨arguments, stop, middle, readsArguments, readsRest⟩ :=
            (reads_accesses_parenthesis_iff isParenthesis).mp reads
          obtain ⟨wellShaped, inner, spelled, isClose, isMiddle⟩ := sound.expressions readsArguments
          obtain ⟨last, locatedArguments, isLast, rfl, rfl⟩ :=
            places.expressions orderedBefore.advance readsArguments
          have follows := locatedArguments.ends.trans (List.tail_suffix before.ahead)
          have locatedCall : Located (.expression (.call head arguments
              (head.span.union last.front.span))) start last.advance :=
            .ofExpression ⟨⟨tight, between.wellShaped, wellShaped⟩, before, between.spelled,
              enclosed_iff.mpr ⟨isParenthesis, inner, spelled, isClose, isMiddle⟩⟩
              (.union ordered located.encloses follows (.of_token (by simp [isLast])))
              (located.all.append (List.tail_suffix _)
                (locatedArguments.within List.suffix_rfl (List.tail_suffix _)))
          exact inductionHypothesis locatedCall (Nat.le_refl _) readsRest
      · obtain ⟨rfl, rfl⟩ := (reads_accesses_of_not_continues continues).mp reads
        exact located

/-- An expression with unary operators is located around its operand. -/
theorem unaryExpression {expression : Expression} (sound : below.Sound) (places : below.Places)
    (ordered : before.Ordered) (reads : Reads below.unaryExpression before expression after) :
    Located (.expression expression) before after := by
  have between := (sound.unaryExpression reads).1
  cases known : UnaryOperator.ofLexeme? before.front.lexeme with
  | none =>
      rw [reads_unaryExpression_of_none known] at reads
      obtain ⟨head, middle, readsHead, readsRest⟩ := reads_access_iff.mp reads
      have tight : Precedence.member ≤ head.precedence := by
        rw [(sound.primary readsHead).2]
        decide
      exact places.accesses sound ordered (places.primary sound ordered readsHead) tight readsRest
  | some operator =>
      have isOperator := UnaryOperator.ofLexeme?_eq_some_iff.mp known
      rw [reads_unaryExpression_of_operator isOperator] at reads
      obtain ⟨operand, readsOperand, rfl⟩ := reads
      have located := places.unary ordered.advance readsOperand
      have inside : before.front.lexeme ≠ .endOfSource := by
        rw [isOperator]
        cases operator <;> simp [UnaryOperator.lexeme]
      have encloses := Span.Encloses.union ordered (.of_token inside) List.suffix_rfl located.encloses
      revert between
      unfold unaryOf
      split
      · intro between
        exact .ofExpression between encloses (.nil encloses.ends)
      · intro between
        exact .ofExpression between encloses
          (located.all.within (List.tail_suffix _) List.suffix_rfl)

/-- Binary operations are located around their operands. -/
theorem operations {start : TokenStream} {minimum : Precedence} {left expression : Expression}
    (sound : below.Sound) (places : below.Places) (ordered : start.Ordered)
    (located : Located (.expression left) start before)
    (fits : ∀ operator : BinaryOperator, before.front.lexeme = operator.lexeme →
      operator.precedence ≤ left.precedence)
    (ends : ¬ before.front.lexeme.ContinuesAccess)
    (reads : Reads (below.operations levels minimum left) before expression after) :
    Located (.expression expression) start after := by
  induction levels generalizing start minimum left before expression after with
  | zero => exact absurd reads not_reads_tooDeep
  | succ levels inductionHypothesis =>
      by_cases goesOn : ∃ operator : BinaryOperator, before.front.lexeme = operator.lexeme ∧
        minimum ≤ operator.precedence
      · obtain ⟨operator, isOperator, tightOperator⟩ := goesOn
        rw [reads_operations_of_operator isOperator tightOperator] at reads
        obtain ⟨operand, middle, readsOperand, right, behind, readsRight, readsRest⟩ := reads
        have orderedNext := (ordered.of_suffix located.encloses.ends).advance
        have locatedOperand := places.unaryExpression sound orderedNext readsOperand
        obtain ⟨betweenOperand, tightOperand, endsOperand⟩ := sound.unaryExpression readsOperand
        have loosest : ∀ other : BinaryOperator, other.precedence < operand.precedence :=
          fun other => Nat.lt_of_lt_of_le other.precedence_lt_unary tightOperand
        obtain ⟨_, tightRight, looser, endsRight⟩ := sound.operations betweenOperand
          (loosest operator) (fun other _ => Nat.le_of_lt (loosest other)) endsOperand readsRight
        have locatedRight := inductionHypothesis orderedNext locatedOperand
          (fun other _ => Nat.le_of_lt (loosest other)) endsOperand readsRight
        have between := located.between
        have betweenRight := locatedRight.between
        have locatedBinary : Located (.expression (.binary left operator right
            (left.span.union right.span))) start behind :=
          .ofExpression ⟨⟨fits operator isOperator, tightRight, between.wellShaped,
            betweenRight.wellShaped⟩, before, between.spelled, _, ⟨isOperator, rfl⟩,
            betweenRight.spelled⟩
            (.union ordered located.encloses (List.tail_suffix _) locatedRight.encloses)
            (located.all.append (List.tail_suffix _) locatedRight.all)
        exact inductionHypothesis ordered locatedBinary
          (fun other isOther => Nat.le_of_lt_succ (looser other isOther)) endsRight readsRest
      · have loose : ∀ operator : BinaryOperator, before.front.lexeme = operator.lexeme →
            operator.precedence < minimum := by
          intro operator isOperator
          exact Nat.lt_of_not_le fun tightOperator => goesOn ⟨operator, isOperator, tightOperator⟩
        rw [reads_operations_of_looser loose] at reads
        obtain ⟨rfl, rfl⟩ := reads
        exact located

/-- An expression with binary operators is located around its operands. -/
theorem binaryExpression {minimum : Precedence} {expression : Expression} (sound : below.Sound)
    (places : below.Places) (ordered : before.Ordered)
    (reads : Reads (below.binaryExpression minimum) before expression after) :
    Located (.expression expression) before after := by
  obtain ⟨left, middle, readsLeft, readsRest⟩ := reads_binaryExpression_iff.mp reads
  obtain ⟨_, tight, ends⟩ := sound.unaryExpression readsLeft
  have located := places.unaryExpression sound ordered readsLeft
  refine places.operations sound ordered located (fun operator _ => ?_) ends readsRest
  exact Nat.le_of_lt (Nat.lt_of_lt_of_le operator.precedence_lt_unary tight)

/-- An assignment is located around its target and its value. -/
theorem assignment {expression : Expression} (sound : below.Sound) (places : below.Places)
    (ordered : before.Ordered) (reads : Reads below.assignment before expression after) :
    Located (.expression expression) before after := by
  have between := (sound.assignment reads).1
  obtain ⟨target, middle, readsTarget, continues⟩ := reads_assignment_iff.mp reads
  have located := places.binaryExpression sound ordered readsTarget
  rcases continues with ⟨isMark, isTarget, value, readsValue, rfl⟩ | ⟨notMark, rfl, rfl⟩
  · have orderedNext := (ordered.of_suffix located.encloses.ends).advance
    have locatedValue := places.expression orderedNext readsValue
    exact .ofExpression between
      (.union ordered located.encloses (List.tail_suffix _) locatedValue.encloses)
      (located.all.append (List.tail_suffix _) locatedValue.all)
  · exact located

/-- The initial value of a declared name is located. -/
theorem declarator {item : Declarator} (places : below.Places) (ordered : before.Ordered)
    (reads : below.ReadsDeclarator before item after) :
    AllLocated (item.value.map Node.expression).toList before after ∧
      item.span.Encloses before after := by
  obtain ⟨name, value, span⟩ := item
  obtain ⟨isName, ⟨isMark, value, readsValue, rfl, rfl⟩ | ⟨notMark, rfl, rfl, rfl⟩⟩ := reads
  · have located := places.expression ordered.advance.advance readsValue
    exact ⟨located.all.within ((List.tail_suffix _).trans (List.tail_suffix _)) List.suffix_rfl,
      .union ordered (.of_token (by simp [isName])) (List.tail_suffix _) located.encloses⟩
  · exact ⟨.nil (List.tail_suffix _), .of_token (by simp [isName])⟩

/-- The span of the last variable stops where the declaration does. -/
theorem declarators {items : List Declarator} (places : below.Places) (ordered : before.Ordered)
    (reads : Reads (below.declarators levels) before items after) :
    AllLocated ((items.filterMap Declarator.value).map .expression) before after ∧
      ∃ last start, items.getLast? = some last ∧ start.ahead <:+ before.ahead ∧
        last.span.Encloses start after := by
  induction levels generalizing before items with
  | zero => exact absurd reads not_reads_tooDeep
  | succ levels inductionHypothesis =>
      obtain ⟨first, middle, readsFirst, further⟩ := reads_declarators_succ_iff.mp reads
      obtain ⟨located, encloses⟩ := places.declarator ordered readsFirst
      have asList (rest : List Declarator) : ((first :: rest).filterMap Declarator.value).map
          Node.expression = (first.value.map Node.expression).toList ++
            (rest.filterMap Declarator.value).map Node.expression := by
        cases isValue : first.value <;> simp [isValue]
      rcases further with ⟨isComma, rest, readsRest, rfl⟩ | ⟨notComma, rfl, rfl⟩
      · have orderedRest := (ordered.of_suffix encloses.ends).advance
        obtain ⟨locatedRest, last, start, isLast, starts, enclosesLast⟩ :=
          inductionHypothesis orderedRest readsRest
        have nonempty : rest ≠ [] := by
          rintro rfl
          cases isLast
        have follows := (List.tail_suffix middle.ahead).trans encloses.ends
        rw [asList, List.getLast?_cons_of_ne_nil nonempty]
        exact ⟨located.append (List.tail_suffix _) locatedRest, last, start, isLast,
          starts.trans follows, enclosesLast⟩
      · rw [asList]
        exact ⟨located.append List.suffix_rfl (.nil List.suffix_rfl), first, before, rfl,
          List.suffix_rfl, encloses⟩

/-- A declaration is located around its initial values. -/
theorem declaration {statement : Statement} (sound : below.Sound) (places : below.Places)
    (ordered : before.Ordered) (reads : Reads below.declaration before statement after) :
    Located (.statement statement) before after := by
  obtain ⟨wellShaped, spelled, _⟩ := sound.declaration reads
  obtain ⟨word, isWord, items, readsItems, rfl⟩ := reads_declaration_iff.mp reads
  obtain ⟨located, last, start, isLast, starts, encloses⟩ :=
    places.declarators ordered.advance readsItems
  refine .intro wellShaped spelled ?_ (located.within (List.tail_suffix _) List.suffix_rfl)
  rw [Node.span, Statement.span, isLast]
  exact .union ordered (.of_token (by simp [isWord])) starts encloses

/-- A branch is located in front of its own semicolon. -/
theorem branch {found : Branch} (sound : below.Sound) (places : below.Places)
    (ordered : before.Ordered) (reads : Reads (Grammar.branch below.statement) before found after) :
    ∃ middle, Located found.node before middle ∧ found.edge middle after := by
  rcases reads_branch_iff.mp reads with ⟨inner, readsBlock, rfl⟩ |
    ⟨single, behind, readsSingle, other, closes, rfl⟩
  · obtain ⟨middle, located, edge⟩ := places.statement ordered readsBlock
    refine ⟨middle, ?_, edge⟩
    cases located.parts with
    | cons starts locatedBlock rest =>
        have parts := locatedBlock.parts.within starts rest.ends
        cases located with
        | intro wellShaped spelled encloses _ => exact .intro wellShaped spelled encloses parts
  · obtain ⟨middle, located, edge⟩ := places.statement ordered readsSingle
    have ends := (sound.statement readsSingle).2.2
    exact ⟨middle, located, behind, edge, Statement.ending_of_closes closes ends⟩

/-- A conditional is located around its condition and its branches. -/
theorem conditional {statement : Statement} (sound : below.Sound) (places : below.Places)
    (ordered : before.Ordered) (reads : Reads below.conditional before statement after) :
    ∃ middle, Located (.statement statement) before middle ∧ statement.edge middle after := by
  have wellShaped := (sound.conditional reads).1
  obtain ⟨isWord, isOpen, condition, middle, readsCondition, isClose, consequent, behind,
    readsConsequent, continues⟩ := reads_conditional_iff.mp reads
  have located := places.expression ordered.advance.advance readsCondition
  have parentheses : enclosed .openParenthesis .closeParenthesis (ofExpression condition)
      before.advance middle.advance :=
    enclosed_iff.mpr ⟨isOpen, middle, located.spelled, isClose, rfl⟩
  have afterOpen := (List.tail_suffix before.advance.ahead).trans (List.tail_suffix before.ahead)
  have afterClose : middle.advance.ahead <:+ before.advance.advance.ahead :=
    (List.tail_suffix middle.ahead).trans located.encloses.ends
  have word : before.front.span.Encloses before before.advance := .of_token (by simp [isWord])
  obtain ⟨stop, locatedBranch, edge⟩ :=
    places.branch sound (ordered.of_suffix (afterClose.trans afterOpen)) readsConsequent
  have spelledBranch := locatedBranch.spelled
  have enclosesBranch := locatedBranch.encloses
  rw [spelling_node] at spelledBranch
  rw [span_node] at enclosesBranch
  have locatedParts := (located.all.within afterOpen List.suffix_rfl).append (List.tail_suffix _)
    locatedBranch.all
  rcases continues with ⟨isElse, alternate, readsAlternate, rfl⟩ | ⟨isOther, rfl, rfl⟩
  · have spelledConsequent : ofBranch consequent middle.advance behind := by
      rw [ofBranch_eq_andThen]
      exact ⟨stop, spelledBranch, edge⟩
    have afterEdge := (portable_branchEdge consequent).bounded _ _ edge
    have afterElse : behind.advance.ahead <:+ stop.ahead :=
      (List.tail_suffix behind.ahead).trans afterEdge
    have orderedLast := ordered.of_suffix (afterElse.trans locatedParts.ends)
    obtain ⟨last, locatedLast, edgeLast⟩ := places.branch sound orderedLast readsAlternate
    have spelledLast := locatedLast.spelled
    have enclosesLast := locatedLast.encloses
    rw [spelling_node] at spelledLast
    rw [span_node] at enclosesLast
    refine ⟨last, .intro wellShaped ?_ ?_ (locatedParts.append afterElse locatedLast.all), edgeLast⟩
    · exact ⟨_, ⟨isWord, rfl⟩, _, parentheses, behind, spelledConsequent, _, ⟨isElse, rfl⟩,
        spelledLast⟩
    · have follows := (afterElse.trans enclosesBranch.ends).trans
        (afterClose.trans (List.tail_suffix before.advance.ahead))
      exact .union ordered word follows enclosesLast
  · refine ⟨stop, .intro wellShaped ?_ ?_ locatedParts, edge⟩
    · exact ⟨_, ⟨isWord, rfl⟩, _, parentheses, spelledBranch⟩
    · exact .union ordered word (afterClose.trans (List.tail_suffix before.advance.ahead))
        enclosesBranch

/-- A return statement is located around its value. -/
theorem returning {statement : Statement} (sound : below.Sound) (places : below.Places)
    (ordered : before.Ordered) (isWord : before.front.lexeme = .keyword .returnKw)
    (reads : Reads below.returning before statement after) :
    Located (.statement statement) before after := by
  obtain ⟨wellShaped, spelled, _⟩ := sound.returning isWord reads
  have word : before.front.span.Encloses before before.advance := .of_token (by simp [isWord])
  rcases reads_returning_iff.mp reads with ⟨_, rfl, rfl⟩ | ⟨_, value, readsValue, rfl⟩
  · exact .intro wellShaped spelled word (.nil (List.tail_suffix _))
  · have located := places.expression ordered.advance readsValue
    exact .intro wellShaped spelled (.union ordered word List.suffix_rfl located.encloses)
      (located.all.within (List.tail_suffix _) List.suffix_rfl)

/-- Every statement is located, by its first token. -/
theorem anyStatement {statement : Statement} (sound : below.Sound) (places : below.Places)
    (ordered : before.Ordered) (reads : Reads below.anyStatement before statement after) :
    ∃ middle, Located (.statement statement) before middle ∧ statement.edge middle after := by
  have wellShaped := (sound.anyStatement reads).1
  have spelled := (sound.anyStatement reads).2.1
  rw [Grammar.anyStatement, reads_peek_bind_iff] at reads
  have declared (reads : Reads below.declaration before statement after) :
      ∃ middle, Located (.statement statement) before middle ∧ statement.edge middle after := by
    refine ⟨after, places.declaration sound ordered reads, ?_⟩
    obtain ⟨word, _, items, _, rfl⟩ := reads_declaration_iff.mp reads
    rfl
  split at reads
  · exact declared reads
  · exact declared reads
  · exact declared reads
  · obtain ⟨definition, readsDefinition, rfl⟩ := by simpa [reads_bind_iff] using reads
    have located := places.functionDef sound ordered readsDefinition
    exact ⟨after, .intro wellShaped spelled located.encloses located.all, rfl⟩
  · exact places.conditional sound ordered reads
  · rename_i isWord
    refine ⟨after, places.returning sound ordered isWord reads, ?_⟩
    rcases reads_returning_iff.mp reads with ⟨_, rfl, _⟩ | ⟨_, value, _, rfl⟩ <;> rfl
  · obtain ⟨block, readsBlock, rfl⟩ := by simpa [reads_bind_iff] using reads
    have located := places.block sound ordered readsBlock
    exact ⟨after, .intro wellShaped spelled located.encloses located.all, rfl⟩
  · rename_i isMark
    obtain ⟨rfl, rfl⟩ := by simpa using reads
    exact ⟨before.advance, .intro wellShaped spelled (.of_token (by simp [isMark]))
      (.nil (List.tail_suffix _)), rfl⟩
  · obtain ⟨value, readsValue, rfl⟩ := by simpa [reads_bind_iff] using reads
    have located := places.assignment sound ordered readsValue
    exact ⟨after, .intro wellShaped spelled located.encloses located.all, rfl⟩

end Places

/-- Every reader of the grammar gives its nodes their places. -/
theorem places_within (levels : Nat) : (within levels).Places := by
  induction levels with
  | zero =>
      exact ⟨fun _ reads => absurd reads not_reads_tooDeep,
        fun _ reads => absurd reads not_reads_tooDeep, fun _ reads => absurd reads not_reads_tooDeep⟩
  | succ levels inductionHypothesis =>
      have sound := sound_within levels
      exact ⟨inductionHypothesis.assignment sound, inductionHypothesis.unaryExpression sound,
        inductionHypothesis.anyStatement sound⟩

end Grammar

/-- The statements of a script that is read lie where their spans say. -/
theorem Script.located_of_reads {before after : TokenStream} {script : Script}
    (ordered : before.Ordered) (reads : Parser.Reads Parser.script before script after) :
    Node.AllLocated (Node.script script).parts before after := by
  obtain ⟨readsItems, _, _⟩ := Parser.reads_script_iff.mp reads
  exact Grammar.Places.statements ((Grammar.places_within _).anyStatement (Grammar.sound_within _))
    ordered readsItems

end ScriptStrip
