import ScriptStrip.Proofs.RoundTrip
import ScriptStrip.Proofs.Tidied
/-
This file follows the tokens of a script through its tree into the printed text. The tree keeps
all of them, and printing it adds none but semicolons and the parentheses around bare integers.
-/

namespace ScriptStrip

/-- The last token of the expression can be a bare integer. -/
def Expression.EndsLoose (expression : Expression) : Prop :=
  expression.precedence < .member ∨ expression.isBareInteger = true

namespace Spelling

/-- A word is printed as the one token that spells it. -/
theorem carries_word (name : String) {loose : Prop} :
    (one (·.IsWord name)).Carries loose [.ofWord name] [.token (.ofWord name)] := by
  refine Carries.one ?_ (by simp [Lexeme.IsWord]) (by simp [Lexeme.IsWord]) ?_
  · rintro found (rfl | ⟨word, rfl, rfl⟩) legible
    · exact (Lexeme.ofWord_of_isLegible legible).2.symm
    · exact (Lexeme.ofWord_keyword word).symm
  · unfold Lexeme.ofWord
    split <;> simp [Lexeme.isBareInteger]

/-- A key is printed as the one token that spells it. -/
theorem carries_key (key : PropertyKey) :
    (one key.IsWrittenAs).Carries True [key.outline] [key.piece] := by
  cases key with
  | identifier name span => exact carries_word name
  | string content quote span => exact .lexeme (by simp) (by simp) fun _ => trivial
  | number digits span => exact .lexeme (by simp) (by simp) fun _ => trivial

/-- A unary operator is printed as its token. -/
theorem carries_unaryOperator (operator : UnaryOperator) :
    (one (· = operator.lexeme)).Carries True [.token operator.lexeme] [.token operator.lexeme] :=
  .lexeme (by cases operator <;> simp [UnaryOperator.lexeme])
    (by cases operator <;> simp [UnaryOperator.lexeme]) fun _ => trivial

/-- A binary operator is printed as its token. -/
theorem carries_binaryOperator (operator : BinaryOperator) :
    (one (· = operator.lexeme)).Carries True [.token operator.lexeme] [.token operator.lexeme] :=
  .lexeme (by simp [BinaryOperator.lexeme]) (by cases operator <;> decide) fun _ => trivial

/-- The end of a statement is printed as a semicolon, even if the source has none. -/
theorem carries_ending (statement : Statement) :
    statement.ending.Carries True statement.closing statement.terminator := by
  refine ⟨bounded_ending statement, ?_, ?_⟩
  · intro before after ended notDot
    unfold Statement.ending at ended
    split at ended
    · rcases ended with ⟨isMark, _⟩ | ⟨rfl, _⟩
      · simp [isMark]
      · exact notDot trivial
    · obtain rfl : after = before := ended
      exact notDot trivial
  · intro before after rest printed _ ended _ tidied
    unfold Statement.ending at ended
    unfold Statement.closing Statement.terminator
    split at ended
    · rename_i needs
      rw [if_pos needs, if_pos needs]
      rcases ended with ⟨isMark, rfl⟩ | ⟨rfl, notMark, _⟩
      · rw [TokenStream.lexemes_of_front isMark (by simp)]
        exact .semicolon tidied
      · exact .noSemicolon (TokenStream.head?_lexemes_ne notMark) tidied
    · rename_i needs
      rw [if_neg needs, if_neg needs]
      obtain rfl : after = before := ended
      exact tidied

/-- The name of a property comes right behind the dot. -/
theorem tidies_access {name : String} {before after : TokenStream} {rest : List Place}
    {printed : List Lexeme} (allGood : before.AllGood Lexeme.IsLegible)
    (spelled : inOrder [mark .dot, one (·.IsWord name)] before after)
    (tidied : Tidied rest after.lexemes printed) :
    before.lexemes = .punctuator .dot :: before.advance.lexemes ∧
      Tidied (.ofMark .dot :: .ofWord name :: rest) before.lexemes
        (.punctuator .dot :: .ofWord name :: printed) := by
  obtain ⟨behind, ⟨isDot, rfl⟩, spelledName⟩ := spelled
  have isCons := TokenStream.lexemes_of_front isDot (by simp)
  refine ⟨isCons, ?_⟩
  have carriesName : (one (·.IsWord name)).Carries False [.ofWord name] [.token (.ofWord name)] :=
    carries_word name
  have tidiedName := carriesName.tidies (allGood.of_suffix (List.tail_suffix _)) spelledName
    False.elim tidied
  rw [isCons]
  exact .token (by simp [Lexeme.isBareInteger]) tidiedName

/-- A bare integer in front of the dot is put in parentheses. -/
theorem carries_property {loose : Prop} {parent : Expression} {name : String} {places : List Place}
    {pieces : List Piece} (tight : .member ≤ parent.precedence)
    (carries : (ofExpression parent).Carries parent.EndsLoose places pieces)
    (whole : ∀ digits span, parent = .number digits span →
      places = [.token (.number digits)] ∧ pieces = [.token (.number digits)]) :
    (inOrder [ofExpression parent, mark .dot, one (·.IsWord name)]).Carries loose
      (places ++ [.ofMark .dot, .ofWord name])
      (Piece.groupedIf (parent.isBareInteger || parent.precedence < Precedence.member) pieces ++
        [.ofMark .dot, .token (.ofWord name)]) := by
  have notLooser : ¬ parent.precedence < .member := Nat.not_lt.mpr tight
  have starts {before middle : TokenStream} (spelled : ofExpression parent before middle) :
      before.front.lexeme ≠ .punctuator .dot := by
    intro isDot
    have opens := (front_ofExpression parent spelled).1
    rw [isDot] at opens
    cases opens
  refine ⟨carries.bounded.andThen
    ((advances_mark .dot).bounded.andThen (advances_one (by simp [Lexeme.IsWord])).bounded), ?_, ?_⟩
  · rintro before after ⟨middle, spelled, _⟩ _
    exact starts spelled
  · rintro before after rest printed allGood ⟨middle, spelled, spelledAccess⟩ _ tidied
    have allGoodMiddle := allGood.of_suffix (carries.bounded before middle spelled)
    obtain ⟨isCons, tidiedAccess⟩ := tidies_access allGoodMiddle spelledAccess tidied
    -- A bare integer is the one primary head that is put into parentheses.
    by_cases isBare : parent.isBareInteger = true
    · obtain ⟨digits, span, rfl⟩ : ∃ digits span, parent = .number digits span := by
        cases parent with
        | number digits span => exact ⟨digits, span, rfl⟩
        | _ => cases isBare
      obtain ⟨rfl, rfl⟩ := whole digits span rfl
      obtain ⟨isNumber, rfl⟩ := spelled
      rw [isBare, TokenStream.lexemes_of_front isNumber (by simp), isCons]
      rw [isCons] at tidiedAccess
      exact .integer isBare tidiedAccess
    · have notLoose : ¬ parent.EndsLoose := fun loose => loose.elim notLooser isBare
      have tidiedParent := carries.tidies allGood spelled (absurd · notLoose) tidiedAccess
      rw [Bool.of_not_eq_true isBare, Bool.false_or, decide_eq_false notLooser, List.append_assoc,
        Piece.lexemes_append, List.append_assoc]
      exact tidiedParent

/-- Parameters are printed as their names. -/
theorem carries_parameters (names : List String) :
    CarriesAll (names.map identifier) (names.map fun name => [.ofWord name])
      (names.map fun name => [.token (.ofWord name)]) := by
  induction names with
  | nil => exact .nil
  | cons first rest step => exact .cons (.identifier first) step

variable (style : Style)

mutual

/-- A well-shaped expression needs no parentheses that it does not have, except around bare
integers. -/
theorem carries_ofExpression (depth : UInt8) (expression : Expression)
    (wellShaped : expression.WellShaped) :
    (ofExpression expression).Carries expression.EndsLoose expression.outline
      (expression.pieces style depth) := by
  cases expression with
  | number digits span => exact .lexeme (by simp) (by simp) .inr
  | string content quote span => exact .lexeme (by simp) (by simp) (by simp [Lexeme.isBareInteger])
  | boolean value span =>
      cases value with
      | true => exact .keyword .trueKw
      | false => exact .keyword .falseKw
  | null span => exact .keyword .nullKw
  | undefined span =>
      have zero : (one (· = .number "0")).Carries True [.token (.number "0")] [.token (.number "0")] :=
        .lexeme (by simp) (by simp) fun _ => trivial
      have carries := (Carries.keyword .voidKw).andThen (zero.skip Piece.lexemes_space)
      exact carries.mono fun _ => .inl (by decide : Precedence.unary < .member)
  | array items span =>
      exact (carries_ofExpressions depth items wellShaped).enclosed style (by simp) (by simp) rfl
  | object members span =>
      have carries := carries_ofMembers depth members wellShaped
      cases members with
      | nil => exact carries.enclosed style (by simp) (by simp) rfl
      | cons first rest =>
          rw [Expression.pieces]
          · refine carries.enclosed style (by simp) (by simp) ?_
            simp
          · exact List.cons_ne_nil _ _
  | function definition => exact carries_ofFunction depth definition wellShaped
  | group inner span =>
      exact (carries_ofExpression depth inner wellShaped).weaken.enclosed (by simp)
  | reference name span => exact .identifier name
  | property parent name span =>
      refine carries_property wellShaped.1 (carries_ofExpression depth parent wellShaped.2) ?_
      rintro digits span rfl
      exact ⟨rfl, rfl⟩
  | index parent key span =>
      have carriesParent := (carries_ofExpression depth parent wellShaped.2.1).weaken
      have carriesKey := (carries_ofExpression depth key wellShaped.2.2).weaken
      rw [Expression.pieces, Expression.placed_of_le wellShaped.1]
      exact carriesParent.andThen (carriesKey.enclosed (by simp))
  | call callee arguments span =>
      have carriesCallee := (carries_ofExpression depth callee wellShaped.2.1).weaken
      have carriesArguments := carries_ofExpressions depth arguments wellShaped.2.2
      rw [Expression.pieces, Expression.placed_of_le wellShaped.1]
      exact carriesCallee.andThen (carriesArguments.enclosed style (by simp) (by simp) rfl)
  | unary operator operand span =>
      have carriesOperand := (carries_ofExpression depth operand wellShaped.2.2).weaken
      have blank : Piece.lexemes
          (if operator.isWord || operand.hasSign operator then [.space] else []) = [] := by
        split <;> rfl
      rw [Expression.pieces, Expression.placed_of_le wellShaped.1]
      exact ((carries_unaryOperator operator).andThen (carriesOperand.skip blank)).mono
        fun _ => .inl (by decide : Precedence.unary < .member)
  | binary left operator right span =>
      have carriesLeft := (carries_ofExpression depth left wellShaped.2.2.1).weaken
      have carriesRight := (carries_ofExpression depth right wellShaped.2.2.2).weaken
      have blank : Piece.lexemes (if style.pretty || right.isSigned then [.space] else []) = [] := by
        split <;> rfl
      rw [Expression.pieces, Expression.placed_of_le wellShaped.1,
        Expression.placed_of_le (Nat.succ_le_of_lt wellShaped.2.1), List.append_assoc,
        List.append_assoc, List.append_assoc]
      exact (carriesLeft.andThen (.skip style.lexemes_gap
        ((carries_binaryOperator operator).andThen (carriesRight.skip blank)))).mono
          fun _ => .inl operator.precedence_lt_member
  | assign target value span =>
      have carriesTarget := (carries_ofExpression depth target wellShaped.2.1).weaken
      have carriesValue := (carries_ofExpression depth value wellShaped.2.2).weaken
      rw [Expression.pieces,
        Expression.placed_of_le (Expression.member_le_of_isTarget wellShaped.1),
        Expression.placed_of_le value.assignment_le_precedence, List.append_assoc,
        List.append_assoc, List.append_assoc]
      exact (carriesTarget.andThen (.skip style.lexemes_gap
        ((Carries.mark (by simp)).andThen (carriesValue.skip style.lexemes_gap)))).mono
          fun _ => .inl (by decide : Precedence.assignment < .member)

/-- Items are printed as the tokens that spell them, tidied up. -/
theorem carries_ofExpressions (depth : UInt8) (items : List Expression)
    (wellShaped : Expression.AllWellShaped items) :
    CarriesAll (ofExpressions items) (Expression.outlines items)
      (Expression.itemPieces style depth items) := by
  cases items with
  | nil => exact .nil
  | cons first rest =>
      rw [Expression.itemPieces, Expression.placed_of_le first.assignment_le_precedence]
      exact .cons (carries_ofExpression depth first wellShaped.1).weaken
        (carries_ofExpressions depth rest wellShaped.2)

/-- Members are printed as the tokens that spell them, tidied up. -/
theorem carries_ofMembers (depth : UInt8) (members : List Member)
    (wellShaped : Member.AllWellShaped members) :
    CarriesAll (ofMembers members) (Member.outlines members)
      (Member.allPieces style depth members) := by
  cases members with
  | nil => exact .nil
  | cons first rest =>
      cases first with
      | mk key value span =>
          have carriesValue := (carries_ofExpression depth value wellShaped.1).weaken
          rw [Member.allPieces, Member.pieces,
            Expression.placed_of_le value.assignment_le_precedence]
          exact .cons ((carries_key key).andThen ((Carries.mark (by simp)).andThen
            (carriesValue.skip style.lexemes_gap))) (carries_ofMembers depth rest wellShaped.2)

/-- A function is printed as the tokens that spell it, tidied up. -/
theorem carries_ofFunction (depth : UInt8) (definition : FunctionDef)
    (wellShaped : definition.WellShaped) {loose : Prop} :
    (ofFunction definition).Carries loose definition.outline (definition.pieces style depth) := by
  cases definition with
  | mk name parameters body span =>
      have carriesBody : (ofBlock body).Carries loose body.outline (body.pieces style depth) :=
        carries_ofBlock depth body wellShaped
      have carriesNames : (Spelling.enclosed .openParenthesis .closeParenthesis
          (listed (parameters.map identifier))).Carries True _ _ :=
        (carries_parameters parameters).enclosed style (by simp) (by simp) rfl
      have carriesRest := carriesNames.andThen (carriesBody.skip style.lexemes_gap)
      cases name with
      | none =>
          rw [FunctionDef.pieces, List.append_assoc, List.append_assoc]
          exact (Carries.keyword .functionKw).andThen (Carries.nothing.andThen carriesRest)
      | some name =>
          rw [FunctionDef.pieces, List.append_assoc, List.append_assoc]
          exact (Carries.keyword .functionKw).andThen
            (((Carries.identifier name).skip Piece.lexemes_space).andThen carriesRest)

/-- A block is printed as the tokens that spell it, tidied up. -/
theorem carries_ofBlock (depth : UInt8) (block : Block) (wellShaped : block.WellShaped)
    {loose : Prop} :
    (ofBlock block).Carries loose block.outline (block.pieces style depth) := by
  cases block with
  | mk items span =>
      have carries := carries_ofStatements (depth + 1) items wellShaped
      cases items with
      | nil => exact carries.enclosed (by simp)
      | cons first rest =>
          rw [Block.pieces]
          · refine Carries.enclosed (by simp) (carries.of_lexemes ?_)
            simp
          · exact List.cons_ne_nil _ _

/-- A statement is printed as the tokens that spell it, tidied up. -/
theorem carries_ofStatement (depth : UInt8) (statement : Statement)
    (wellShaped : statement.WellShaped) :
    (ofStatement statement).Carries True statement.outline (statement.pieces style depth) := by
  cases statement with
  | expression value span =>
      have notAmbiguous : value.isAmbiguousAtStart = false := by
        apply Bool.of_not_eq_true
        intro ambiguous
        have opens := Expression.opensLikeStatement_of_isAmbiguousAtStart ambiguous
        rw [wellShaped.1] at opens
        cases opens
      rw [Statement.pieces, notAmbiguous]
      exact (carries_ofExpression depth value wellShaped.2).weaken
  | declaration word items span =>
      have carries := (carries_ofDeclarators depth items wellShaped.2).separated style
      exact (Carries.keyword word.keyword).andThen (carries.skip Piece.lexemes_space)
  | function definition => exact carries_ofFunction depth definition wellShaped.2
  | conditional condition consequent alternate span =>
      have carriesCondition : (Spelling.enclosed .openParenthesis .closeParenthesis
          (ofExpression condition)).Carries True _ _ :=
        (carries_ofExpression depth condition wellShaped.1).weaken.enclosed (by simp)
      have carriesBranch := carries_ofBranch depth consequent wellShaped.2.1
      have carriesLast := carries_ofAlternate depth alternate wellShaped.2.2.2
      rw [Statement.pieces, Statement.outline, List.append_assoc, List.append_assoc,
        List.append_assoc, List.append_assoc, List.cons_append]
      exact (Carries.keyword .ifKw).andThen (.skip style.lexemes_gap (carriesCondition.andThen
        (.skip style.lexemes_gap (carriesBranch.andThen carriesLast))))
  | returning value span =>
      cases value with
      | none => exact .keyword .returnKw
      | some value =>
          have carries := (carries_ofExpression depth value wellShaped).weaken.onSameLine
          exact (Carries.keyword .returnKw).andThen (carries.skip Piece.lexemes_space)
  | block inner => exact carries_ofBlock depth inner wellShaped
  | empty span => exact .mark (by simp)

/-- Statements are printed line by line as the tokens that spell them, tidied up. -/
theorem carries_ofStatements (depth : UInt8) (items : List Statement)
    (wellShaped : Statement.AllWellShaped items) :
    (ofStatements items).Carries True (Statement.outlines items)
      (style.lineBreak.intercalate (Statement.lines style depth items)) := by
  cases items with
  | nil => exact .nothing
  | cons first rest =>
      have carriesFirst := (carries_ofStatement depth first wellShaped.1).andThen (carries_ending first)
      have carriesRest := carries_ofStatements depth rest wellShaped.2
      have carries := (carriesFirst.skip (style.lexemes_indentation depth)).andThen carriesRest
      rw [andThen_assoc] at carries
      refine carries.of_lexemes ?_
      rw [Statement.lines]
      cases Statement.lines style depth rest <;> simp

/-- Declared names are printed as the tokens that spell them, tidied up. -/
theorem carries_ofDeclarators (depth : UInt8) (items : List Declarator)
    (wellShaped : Declarator.AllWellShaped items) :
    CarriesAll (ofDeclarators items) (Declarator.outlines items)
      (Declarator.allPieces style depth items) := by
  cases items with
  | nil => exact .nil
  | cons first rest =>
      cases first with
      | mk name value span =>
          cases value with
          | none => exact .cons (.identifier name) (carries_ofDeclarators depth rest wellShaped)
          | some value =>
              have carriesValue := (carries_ofExpression depth value wellShaped.1).weaken
              rw [Declarator.allPieces, Declarator.pieces,
                Expression.placed_of_le value.assignment_le_precedence, List.append_assoc,
                List.append_assoc]
              exact .cons ((Carries.identifier name).andThen (.skip style.lexemes_gap
                ((Carries.mark (by simp)).andThen (carriesValue.skip style.lexemes_gap))))
                (carries_ofDeclarators depth rest wellShaped.2)

/-- A branch is printed as the tokens that spell it, tidied up. -/
theorem carries_ofBranch (depth : UInt8) (branch : Branch) (wellShaped : branch.WellShaped) :
    (ofBranch branch).Carries True branch.outline (branch.pieces style depth) := by
  cases branch with
  | braced block => exact carries_ofBlock depth block wellShaped
  | single statement =>
      exact (carries_ofStatement depth statement wellShaped.2).andThen (carries_ending statement)

/-- A second branch is printed as the tokens that spell it, tidied up. -/
theorem carries_ofAlternate (depth : UInt8) (branch : Option Branch)
    (wellShaped : Branch.AlternateWellShaped branch) :
    (ofAlternate branch).Carries True (Branch.alternateOutline branch)
      (Branch.alternatePieces style depth branch) := by
  cases branch with
  | none => exact .nothing
  | some branch =>
      have carries := (Carries.keyword .elseKw).andThen (carries_ofBranch depth branch wellShaped)
      refine carries.of_lexemes ?_
      cases branch <;> simp [Branch.alternatePieces, Branch.pieces, Piece.ofKeyword, Piece.space]

end

end Spelling

/-- Printing a script that has been read keeps the tokens of its source, up to what the layout
changes. -/
theorem Script.tidied_of_parse {source : String} {script : Script}
    (accepted : parse source = .ok script) :
    ∃ stream printed, TokenStream.ofSource source = .ok stream ∧
      TokenStream.ofSource (script.print .standard) = .ok printed ∧
      Tidied script.outline stream.lexemes printed.lexemes := by
  obtain ⟨stream, rest, scanned, reads⟩ := parse_eq_ok_iff.mp accepted
  obtain ⟨wellShaped, spelled⟩ := spelledBy_of_reads reads
  have legible := Scan.allGood_of_stream scanned
  have canWrite : stream.AllGood Style.standard.CanWrite :=
    fun token inside => ⟨legible token inside, .inl rfl⟩
  have formed := spelled.formed wellShaped canWrite Style.standard.tellsNames_canWrite
  have spaced := script.spaced_pieces Style.indentsByBlanks_standard 0 formed
  obtain ⟨printed, last, scannedAgain, isPrinted, atEndAgain⟩ :=
    Scan.stream_of_spaced spaced 0 false
  have printedLexemes : printed.lexemes = _ :=
    Spelling.lexemes_ofPieces spaced isPrinted atEndAgain
  obtain ⟨behind, spelledItems, atEnd⟩ := spelled
  have carries := Spelling.carries_ofStatements .standard 0 script.items wellShaped
  have notDot : behind.front.lexeme ≠ .punctuator .dot := by simp [atEnd]
  have nothingLeft : Tidied [] behind.lexemes [] := by
    rw [TokenStream.lexemes, (TokenStream.front_lexeme_eq_end_iff behind).mp atEnd]
    exact .finish
  have tidied := carries.tidies legible spelledItems (fun _ => notDot) nothingLeft
  rw [List.append_nil, List.append_nil] at tidied
  refine ⟨stream, printed, scanned, ?_, ?_⟩
  · rw [TokenStream.ofSource, print, Piece.toList_render]
    exact scannedAgain
  · rw [printedLexemes]
    exact tidied

/-- A comma is dropped, semicolons are inserted, and a number gets parentheses. -/
theorem Script.tidied_of_parse_number :
    ∃ script, parse "f(\"1\",)\na = 1 .b" = .ok script ∧
      script.print .standard = "f(\"1\");\na = (1).b;" ∧
      ∃ stream printed, TokenStream.ofSource "f(\"1\",)\na = 1 .b" = .ok stream ∧
        TokenStream.ofSource (script.print .standard) = .ok printed ∧
        Tidied script.outline stream.lexemes printed.lexemes := by
  have accepted : (parse "f(\"1\",)\na = 1 .b").map (print .standard) =
      .ok "f(\"1\");\na = (1).b;" := by
    cbv
  cases parsed : parse "f(\"1\",)\na = 1 .b" with
  | error error =>
      rw [parsed] at accepted
      cases accepted
  | ok script =>
      rw [parsed] at accepted
      exact ⟨script, rfl, Except.ok.inj accepted, tidied_of_parse parsed⟩

end ScriptStrip
