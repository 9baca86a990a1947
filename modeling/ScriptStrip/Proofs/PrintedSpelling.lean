import Mathlib.Data.List.Forall2
import ScriptStrip.Proofs.Reprinting
import ScriptStrip.Proofs.Rendering
import ScriptStrip.Proofs.Written
/-
This file shows that the printed tokens of a tree spell the tree with the parentheses that are
printed. Blanks between the tokens make no difference, except that `return` and its value stay on
one line.
-/

namespace ScriptStrip

namespace Spelling

/-- What is spelled on one line is spelled. -/
theorem ofPieces_false {sameLine : Bool} {pieces : List Piece} {before after : TokenStream}
    (spelled : ofPieces sameLine pieces before after) : ofPieces false pieces before after := by
  induction pieces generalizing sameLine before with
  | nil => exact spelled
  | cons piece pieces inductionHypothesis =>
      cases piece with
      | token lexeme =>
          refine ⟨spelled.1, ?_, spelled.2.2⟩
          intro impossible
          cases impossible
      | blank text => exact inductionHypothesis spelled

/-- Joined pieces are spelled one behind the other. -/
theorem ofPieces_append {sameLine : Bool} {first second : List Piece}
    {before after : TokenStream} (spelled : ofPieces sameLine (first ++ second) before after) :
    ∃ middle, ofPieces sameLine first before middle ∧ ofPieces false second middle after := by
  induction first generalizing sameLine before with
  | nil => exact ⟨before, rfl, ofPieces_false spelled⟩
  | cons piece first inductionHypothesis =>
      cases piece with
      | token lexeme =>
          obtain ⟨middle, spelledFirst, spelledSecond⟩ := inductionHypothesis spelled.2.2
          exact ⟨middle, ⟨spelled.1, spelled.2.1, spelledFirst⟩, spelledSecond⟩
      | blank text => exact inductionHypothesis spelled

/-- No comma is needed behind the last item of a list. -/
theorem listed_of_separated {items : List Spelling} {before after : TokenStream}
    (spelled : separated items before after) : listed items before after := by
  fun_induction separated items generalizing before with
  | case1 => exact spelled
  | case2 last => exact ⟨after, spelled, .inl rfl⟩
  | case3 first rest other inductionHypothesis =>
      obtain ⟨middle, spelledFirst, later, comma, spelledRest⟩ := spelled
      have spelledList := inductionHypothesis spelledRest
      cases rest with
      | nil => cases other rfl
      | cons second rest => exact ⟨middle, spelledFirst, later, comma, spelledList⟩

end Spelling

namespace Piece
open Spelling

/-- The tokens of the pieces are such as the spelling asks for. -/
def Spell (pieces : List Piece) (spelling : Spelling) : Prop :=
  ∀ before after, ofPieces false pieces before after → spelling before after

namespace Spell

variable {pieces first second : List Piece} {spelling following : Spelling}

/-- No pieces spell nothing. -/
theorem nil : Spell [] nothing := fun _ _ spelled => spelled

/-- The piece of a token spells any set of tokens that it is in. -/
theorem one {lexeme : Lexeme} {wanted : Lexeme → Prop} (isWanted : wanted lexeme) :
    Spell [token lexeme] (one wanted) := by
  rintro before after ⟨rfl, _, rfl⟩
  exact ⟨isWanted, rfl⟩

/-- The piece of a mark spells the mark. -/
theorem mark (mark : Punctuator) : Spell [ofMark mark] (Spelling.mark mark) := one rfl

/-- The piece of a keyword spells the keyword. -/
theorem keyword (word : Keyword) : Spell [ofKeyword word] (Spelling.keyword word) := one rfl

/-- The piece of a name spells the name, unless it is a keyword. -/
theorem identifier {name : String} (isName : Lexeme.ofWord name = .identifier name) :
    Spell [token (.ofWord name)] (Spelling.identifier name) := one isName

/-- A token in front spells a token in front. -/
theorem cons {lexeme : Lexeme} {wanted : Lexeme → Prop} (isWanted : wanted lexeme)
    (spell : Spell pieces following) :
    Spell (token lexeme :: pieces) ((Spelling.one wanted).andThen following) := by
  rintro before after ⟨rfl, _, spelled⟩
  exact ⟨before.advance, ⟨isWanted, rfl⟩, spell _ _ (ofPieces_false spelled)⟩

/-- Joined pieces spell what their parts spell. -/
theorem andThen (spellFirst : Spell first spelling) (spellSecond : Spell second following) :
    Spell (first ++ second) (spelling.andThen following) := by
  intro before after spelled
  obtain ⟨middle, spelledFirst, spelledSecond⟩ := ofPieces_append spelled
  exact ⟨middle, spellFirst _ _ spelledFirst, spellSecond _ _ spelledSecond⟩

/-- Blanks between tokens are left aside. -/
theorem skip {blanks : List Piece} (blank : lexemes blanks = [])
    (spell : Spell pieces spelling) : Spell (blanks ++ pieces) spelling := by
  intro before after spelled
  apply spell
  induction blanks with
  | nil => exact spelled
  | cons piece blanks inductionHypothesis =>
      cases piece with
      | token lexeme => cases blank
      | blank text => exact inductionHypothesis blank spelled

/-- A space in front spells nothing. -/
theorem skipSpace (spell : Spell pieces spelling) : Spell (space :: pieces) spelling := spell

/-- Pieces that spell nothing may be put behind. -/
theorem append_nil (spell : Spell first spelling) (empty : Spell second nothing) :
    Spell (first ++ second) spelling := by
  intro before after spelled
  obtain ⟨middle, spelledFirst, spelledSecond⟩ := ofPieces_append spelled
  obtain rfl := empty _ _ spelledSecond
  exact spell _ _ spelledFirst

/-- Blanks spell nothing. -/
theorem of_blank {blanks : List Piece} (blank : lexemes blanks = []) : Spell blanks nothing := by
  have spell := skip blank nil
  rwa [List.append_nil] at spell

/-- Pieces between two marks spell what is between the marks. -/
theorem enclosed {opening closing : Punctuator} (spell : Spell pieces spelling) :
    Spell (Piece.enclosed opening closing pieces) (Spelling.enclosed opening closing spelling) :=
  cons rfl (andThen spell (mark closing))

/-- Pieces with commas between them spell separated items. -/
theorem separated {style : Style} {items : List (List Piece)} {spellings : List Spelling}
    (spell : List.Forall₂ Spell items spellings) :
    Spell (style.comma.intercalate items) (Spelling.separated spellings) := by
  induction spell with
  | nil => exact nil
  | cons spellFirst spellRest inductionHypothesis =>
      cases spellRest with
      | nil =>
          rw [List.intercalate_singleton]
          exact spellFirst
      | cons spellSecond spellRest =>
          rw [List.intercalate_cons_cons, List.append_assoc]
          exact andThen spellFirst (cons rfl (skip style.lexemes_gap inductionHypothesis))

/-- Pieces with commas between them spell a list without a last comma. -/
theorem items {style : Style} {items : List (List Piece)} {spellings : List Spelling}
    (spell : List.Forall₂ Spell items spellings) :
    Spell (style.comma.intercalate items) (Spelling.listed spellings) := by
  intro before after spelled
  exact listed_of_separated (separated spell before after spelled)

/-- A printed list spells a list. -/
theorem listed {items : List (List Piece)} {spellings : List Spelling} (style : Style)
    (opening closing : Punctuator) (spell : List.Forall₂ Spell items spellings) :
    Spell (style.listed opening closing items)
      (Spelling.enclosed opening closing (Spelling.listed spellings)) :=
  enclosed (Spell.items spell)

/-- A blank separator spells nothing between two items. -/
theorem intercalate {separator : List Piece} {rest : List (List Piece)}
    (spellFirst : Spell first spelling) (blank : lexemes separator = [])
    (spellRest : Spell (separator.intercalate rest) following) :
    Spell (separator.intercalate (first :: rest)) (spelling.andThen following) := by
  cases rest with
  | nil =>
      rw [List.intercalate_singleton, ← List.append_nil first]
      exact andThen spellFirst spellRest
  | cons second rest =>
      rw [List.intercalate_cons_cons, List.append_assoc]
      exact andThen spellFirst (skip blank spellRest)

/-- A blank that breaks no line keeps what follows on the line. -/
theorem cons_onSameLine {lexeme front : Lexeme} {wanted : Lexeme → Prop}
    (isWanted : wanted lexeme) (spell : Spell (token front :: pieces) following) :
    Spell (token lexeme :: space :: token front :: pieces)
      ((Spelling.one wanted).andThen following.onSameLine) := by
  rintro before after ⟨rfl, _, spelled⟩
  have sameLine := spelled.2.1 (by decide)
  exact ⟨before.advance, ⟨isWanted, rfl⟩, sameLine, spell _ _ (ofPieces_false spelled)⟩

/-- Printed parentheses spell a group. -/
theorem groupedIf {condition : Bool} {expression : Expression}
    (spell : Spell pieces (ofExpression expression)) :
    Spell (Piece.groupedIf condition pieces) (ofExpression (expression.groupedIf condition)) := by
  cases condition with
  | true => exact enclosed spell
  | false => exact spell

end Spell

end Piece

/-- An expression can start with the lexeme. -/
def Lexeme.OpensExpression (good : Lexeme → Prop) : Lexeme → Prop
  | .punctuator mark =>
      mark ∈ [.openBrace, .openBracket, .openParenthesis, .not, .minus, .plus]
  | .keyword _ => True
  | lexeme => good lexeme

namespace Piece

/-- The pieces start with a token that an expression can start with. -/
def OpenExpression (good : Lexeme → Prop) (pieces : List Piece) : Prop :=
  ∃ front rest, pieces = token front :: rest ∧ front.OpensExpression good

variable {good : Lexeme → Prop} {first : List Piece}

/-- Pieces open an expression if their first ones do. -/
theorem OpenExpression.append (opens : OpenExpression good first) (second : List Piece) :
    OpenExpression good (first ++ second) := by
  obtain ⟨front, rest, rfl, isOpening⟩ := opens
  exact ⟨front, rest ++ second, rfl, isOpening⟩

/-- A parenthesis opens an expression as well. -/
theorem OpenExpression.groupedIf (opens : OpenExpression good first) (condition : Bool) :
    OpenExpression good (Piece.groupedIf condition first) := by
  cases condition with
  | true => exact ⟨_, _, rfl, by simp [Lexeme.OpensExpression]⟩
  | false => exact opens

end Piece

/-- Every unary operator opens an expression. -/
theorem UnaryOperator.opensExpression (good : Lexeme → Prop) (operator : UnaryOperator) :
    operator.lexeme.OpensExpression good := by
  cases operator <;> simp [lexeme, Lexeme.OpensExpression]

/-- The keyword of a function opens an expression. -/
theorem FunctionDef.openExpression_pieces (good : Lexeme → Prop) (style : Style) (depth : UInt8)
    (definition : FunctionDef) : Piece.OpenExpression good (definition.pieces style depth) := by
  cases definition
  exact ⟨.keyword .functionKw, _, rfl, trivial⟩

/-- Every printed expression opens one. -/
theorem Expression.openExpression_pieces {good : Lexeme → Prop} (style : Style) (depth : UInt8)
    (names : Lexeme.TellsNames good) (expression : Expression) (written : expression.Written good) :
    Piece.OpenExpression good (expression.pieces style depth) := by
  cases expression with
  | number digits span => exact ⟨_, _, rfl, written⟩
  | string content quote span => exact ⟨_, _, rfl, written⟩
  | boolean value span => cases value <;> exact ⟨_, _, rfl, trivial⟩
  | null span => exact ⟨_, _, rfl, trivial⟩
  | undefined span => exact ⟨_, _, rfl, trivial⟩
  | array items span => exact ⟨.punctuator .openBracket, _, rfl, by simp [Lexeme.OpensExpression]⟩
  | object members span =>
      cases members with
      | nil => exact ⟨.punctuator .openBrace, _, rfl, by simp [Lexeme.OpensExpression]⟩
      | cons first rest =>
          rw [Expression.pieces]
          · exact ⟨.punctuator .openBrace, _, rfl, by simp [Lexeme.OpensExpression]⟩
          · exact List.cons_ne_nil _ _
  | function definition => exact definition.openExpression_pieces good style depth
  | group inner span => exact ⟨.punctuator .openParenthesis, _, rfl, by simp [Lexeme.OpensExpression]⟩
  | reference name span =>
      refine ⟨_, _, rfl, ?_⟩
      rw [names name written]
      exact written
  | property parent name span =>
      have opens := openExpression_pieces style depth names parent written.1
      exact (opens.groupedIf _).append _
  | index parent key span =>
      have opens := openExpression_pieces style depth names parent written.1
      exact (opens.groupedIf _).append _
  | call callee arguments span =>
      have opens := openExpression_pieces style depth names callee written.1
      exact (opens.groupedIf _).append _
  | unary operator operand span => exact ⟨_, _, rfl, operator.opensExpression good⟩
  | binary left operator right span =>
      have opens := openExpression_pieces style depth names left written.1
      exact ((((opens.groupedIf _).append _).append _).append _).append _
  | assign target value span =>
      have opens := openExpression_pieces style depth names target written.2.1
      exact ((((opens.groupedIf _).append _).append _).append _).append _

/-- A target binds as tightly as the access to a property. -/
theorem Expression.member_le_of_isTarget {expression : Expression}
    (targets : expression.IsTarget) : .member ≤ expression.precedence := by
  cases expression with
  | reference | property | index => exact Nat.le_of_ble_eq_true rfl
  | _ => cases targets

/-- A name gives a word, keyword or not. -/
theorem Lexeme.isWord_ofWord (name : String) : (ofWord name).IsWord name := by
  unfold ofWord
  split
  · rename_i reserved found
    exact .inr ⟨reserved, rfl, (Keyword.text_of_ofText? found).symm⟩
  · exact .inl rfl

/-- A key is printed as a token that writes it. -/
theorem PropertyKey.isWrittenAs_piece (key : PropertyKey) :
    ∃ lexeme, key.piece = .token lexeme ∧ key.IsWrittenAs lexeme := by
  cases key with
  | identifier name span => exact ⟨_, rfl, Lexeme.isWord_ofWord name⟩
  | string content quote span => exact ⟨_, rfl, rfl⟩
  | number digits span => exact ⟨_, rfl, rfl⟩

/-- What means the same ends in the same way. -/
theorem Statement.spell_terminator {statement other : Statement}
    (same : other.erased = statement.erased) : Piece.Spell statement.terminator other.ending := by
  unfold Statement.terminator Statement.ending
  rw [← statement.needsSemicolon_erased, ← other.needsSemicolon_erased, same]
  split
  · intro before after spelled
    exact .inl (Piece.Spell.mark .semicolon before after spelled)
  · exact Piece.Spell.nil

/-- What is printed before the body of a function spells the start of the function. -/
theorem Piece.Spell.functionHead {good : Lexeme → Prop} (style : Style)
    (names : Lexeme.TellsNames good) {name : Option String} {parameters : List String}
    (isName : ∀ word, name = some word → good (.identifier word))
    (areNames : ∀ word ∈ parameters, good (.identifier word)) {pieces : List Piece}
    {following : Spelling} (spell : Spell pieces following) :
    Spell (ofKeyword .functionKw :: ((name.map fun word => [space, token (.ofWord word)]).getD [] ++
        (style.listed .openParenthesis .closeParenthesis
            (parameters.map fun parameter => [token (.ofWord parameter)]) ++
          (style.gap ++ pieces))))
      (Spelling.inOrder [Spelling.keyword .functionKw,
        (name.map Spelling.identifier).getD Spelling.nothing,
        Spelling.enclosed .openParenthesis .closeParenthesis
          (Spelling.listed (parameters.map Spelling.identifier)), following]) := by
  have spellParameters : List.Forall₂ Spell
      (parameters.map fun parameter => [token (.ofWord parameter)])
      (parameters.map Spelling.identifier) := by
    rw [List.forall₂_map_left_iff, List.forall₂_map_right_iff, List.forall₂_same]
    intro parameter inside
    exact .identifier (names parameter (areNames parameter inside))
  have spellRest := (Spell.listed style .openParenthesis .closeParenthesis
    spellParameters).andThen (.skip style.lexemes_gap spell)
  cases name with
  | none => exact .cons rfl (.andThen .nil spellRest)
  | some name =>
      exact .cons rfl (.skipSpace (.andThen (.identifier (names name (isName name rfl))) spellRest))

namespace Piece

variable {good : Lexeme → Prop} (style : Style)

mutual

/-- The printed expression spells it with the parentheses that it needs. -/
theorem spell_expression (depth : UInt8) (names : Lexeme.TellsNames good) (expression : Expression)
    (written : expression.Written good) :
    Spell (expression.pieces style depth) (Spelling.ofExpression expression.regrouped) := by
  cases expression with
  | number digits span => exact .one rfl
  | string content quote span => exact .one rfl
  | boolean value span =>
      cases value with
      | true => exact .keyword .trueKw
      | false => exact .keyword .falseKw
  | null span => exact .keyword .nullKw
  | undefined span => exact .cons rfl (.skipSpace (.one rfl))
  | array items span => exact .listed _ _ _ (spell_expressions depth names items written)
  | object members span =>
      cases members with
      | nil => exact .enclosed .nil
      | cons first rest =>
          have spell := spell_members depth names (first :: rest) written
          rw [Expression.pieces]
          · exact .enclosed (.append_nil (.skip style.lexemes_gap (.items spell))
              (.of_blank style.lexemes_gap))
          · exact List.cons_ne_nil _ _
  | function definition => exact spell_function depth names definition written
  | group inner span => exact .enclosed (spell_expression depth names inner written)
  | reference name span =>
      exact .identifier (names name written)
  | property parent name span =>
      have spell := spell_expression depth names parent written.1
      exact .andThen spell.groupedIf (.cons rfl (.one (Lexeme.isWord_ofWord name)))
  | index parent key span =>
      have spell := spell_expression depth names parent written.1
      exact .andThen spell.groupedIf (.enclosed (spell_expression depth names key written.2))
  | call callee arguments span =>
      have spell := spell_expression depth names callee written.1
      exact .andThen spell.groupedIf (.listed _ _ _ (spell_expressions depth names arguments written.2))
  | unary operator operand span =>
      have spell := spell_expression depth names operand written
      rw [Expression.regrouped]
      split
      · rename_i isUndefined
        obtain ⟨rfl, isZero⟩ := isUndefined
        obtain ⟨span', rfl⟩ := Expression.isBareZero_iff.mp isZero
        exact .cons rfl (.skipSpace (.one rfl))
      · exact .cons rfl (.skip (lexemes_spaceIf _) spell.groupedIf)
  | binary left operator right span =>
      have spellLeft := spell_expression depth names left written.1
      have spellRight := spell_expression depth names right written.2
      rw [Expression.pieces, List.append_assoc, List.append_assoc, List.append_assoc,
        List.singleton_append]
      exact .andThen spellLeft.groupedIf
        (.skip style.lexemes_gap (.cons rfl (.skip (lexemes_spaceIf _) spellRight.groupedIf)))
  | assign target value span =>
      have spellTarget := spell_expression depth names target written.2.1
      have spellValue := spell_expression depth names value written.2.2
      have isMember : .member ≤ target.precedence :=
        Expression.member_le_of_isTarget written.1
      rw [Expression.pieces, Expression.placed_of_le isMember,
        Expression.placed_of_le value.assignment_le_precedence, List.append_assoc,
        List.append_assoc, List.append_assoc, List.singleton_append]
      exact .andThen spellTarget
        (.skip style.lexemes_gap (.cons rfl (.skip style.lexemes_gap spellValue)))

/-- Printed items spell them with the parentheses that they need. -/
theorem spell_expressions (depth : UInt8) (names : Lexeme.TellsNames good) (items : List Expression)
    (written : Expression.AllWritten good items) :
    List.Forall₂ Spell (Expression.itemPieces style depth items)
      (Spelling.ofExpressions (Expression.regroupedAll items)) := by
  cases items with
  | nil => exact .nil
  | cons first rest =>
      have spell := spell_expression depth names first written.1
      refine .cons ?_ (spell_expressions depth names rest written.2)
      rw [Expression.placed_of_le first.assignment_le_precedence]
      exact spell

/-- Printed members spell them with the parentheses that they need. -/
theorem spell_members (depth : UInt8) (names : Lexeme.TellsNames good) (members : List Member)
    (written : Member.AllWritten good members) :
    List.Forall₂ Spell (Member.allPieces style depth members)
      (Spelling.ofMembers (Member.regroupedAll members)) := by
  cases members with
  | nil => exact .nil
  | cons first rest =>
      cases first with
      | mk key value span =>
          have spell := spell_expression depth names value written.2.1
          obtain ⟨lexeme, isPiece, isKey⟩ := key.isWrittenAs_piece
          refine .cons ?_ (spell_members depth names rest written.2.2)
          rw [Member.pieces, Expression.placed_of_le value.assignment_le_precedence, isPiece]
          exact .cons isKey (.cons rfl (.skip style.lexemes_gap spell))

/-- The printed function spells it with the parentheses that it needs. -/
theorem spell_function (depth : UInt8) (names : Lexeme.TellsNames good) (definition : FunctionDef)
    (written : definition.Written good) :
    Spell (definition.pieces style depth) (Spelling.ofFunction definition.regrouped) := by
  cases definition with
  | mk name parameters body span =>
      have spell := Spell.functionHead style names written.1 written.2.1
        (spell_block depth names body written.2.2)
      cases name <;>
        · rw [FunctionDef.pieces, List.append_assoc, List.append_assoc]
          exact spell

/-- The printed block spells it with the parentheses that it needs. -/
theorem spell_block (depth : UInt8) (names : Lexeme.TellsNames good) (block : Block)
    (written : block.Written good) :
    Spell (block.pieces style depth) (Spelling.ofBlock block.regrouped) := by
  cases block with
  | mk items span =>
      cases items with
      | nil => exact .enclosed .nil
      | cons first rest =>
          have spell := spell_statements (depth + 1) names (first :: rest) written
          rw [Block.pieces]
          · exact .enclosed (.append_nil (.append_nil (.skip style.lexemes_lineBreak spell)
              (.of_blank style.lexemes_lineBreak)) (.of_blank (style.lexemes_indentation depth)))
          · exact List.cons_ne_nil _ _

/-- The printed statement spells it with the parentheses that it needs. -/
theorem spell_statement (depth : UInt8) (names : Lexeme.TellsNames good) (statement : Statement)
    (written : statement.Written good) :
    Spell (statement.pieces style depth) (Spelling.ofStatement statement.regrouped) := by
  cases statement with
  | expression value span => exact (spell_expression depth names value written).groupedIf
  | declaration word items span =>
      have spell := spell_declarators depth names items written
      exact .cons rfl (.skipSpace (.separated spell))
  | function definition => exact spell_function depth names definition written
  | conditional condition consequent alternate span =>
      have spellCondition := spell_expression depth names condition written.1
      have spellBranch := spell_branch depth names consequent written.2.1
      have spellAlternate := spell_alternate depth names alternate written.2.2
      rw [Statement.pieces, List.append_assoc, List.append_assoc, List.append_assoc,
        List.cons_append]
      exact .cons rfl (.skip style.lexemes_gap (.andThen (.enclosed spellCondition)
        (.skip style.lexemes_gap (.andThen spellBranch spellAlternate))))
  | returning value span =>
      cases value with
      | none => exact .keyword .returnKw
      | some value =>
          have spell := spell_expression depth names value written
          obtain ⟨front, rest, isFront, _⟩ :=
            value.openExpression_pieces style depth names written
          rw [isFront] at spell
          rw [Statement.pieces, isFront]
          exact .cons_onSameLine rfl spell
  | block inner => exact spell_block depth names inner written
  | empty span => exact .mark .semicolon

/-- Every line ends behind the semicolon of its statement. -/
theorem spell_statements (depth : UInt8) (names : Lexeme.TellsNames good) (items : List Statement)
    (written : Statement.AllWritten good items) :
    Spell (style.lineBreak.intercalate (Statement.lines style depth items))
      (Spelling.ofStatements (Statement.regroupedAll items)) := by
  cases items with
  | nil => exact .nil
  | cons first rest =>
      have spellFirst := spell_statement depth names first written.1
      have spellRest := spell_statements depth names rest written.2
      have spellLine := Spell.skip (style.lexemes_indentation depth)
        (spellFirst.andThen (Statement.spell_terminator first.erased_regrouped))
      rw [← List.append_assoc] at spellLine
      have spell := spellLine.intercalate style.lexemes_lineBreak spellRest
      rwa [Spelling.andThen_assoc] at spell

/-- Printed declarations spell them with the parentheses that they need. -/
theorem spell_declarators (depth : UInt8) (names : Lexeme.TellsNames good)
    (items : List Declarator) (written : Declarator.AllWritten good items) :
    List.Forall₂ Spell (Declarator.allPieces style depth items)
      (Spelling.ofDeclarators (Declarator.regroupedAll items)) := by
  cases items with
  | nil => exact .nil
  | cons first rest =>
      cases first with
      | mk name value span =>
          cases value with
          | none =>
              exact .cons (.identifier (names name written.1))
                (spell_declarators depth names rest written.2)
          | some value =>
              have spell := spell_expression depth names value written.2.1
              refine .cons ?_ (spell_declarators depth names rest written.2.2)
              rw [Declarator.pieces, Expression.placed_of_le value.assignment_le_precedence,
                List.append_assoc, List.append_assoc, List.cons_append, List.singleton_append]
              exact .cons (names name written.1)
                (.skip style.lexemes_gap (.cons rfl (.skip style.lexemes_gap spell)))

/-- The printed branch spells it with the parentheses that it needs. -/
theorem spell_branch (depth : UInt8) (names : Lexeme.TellsNames good) (branch : Branch)
    (written : branch.Written good) :
    Spell (branch.pieces style depth) (Spelling.ofBranch branch.regrouped) := by
  cases branch with
  | braced block => exact spell_block depth names block written
  | single statement =>
      exact .andThen (spell_statement depth names statement written)
        (Statement.spell_terminator statement.erased_regrouped)

/-- The printed second branch spells it with the parentheses that it needs. -/
theorem spell_alternate (depth : UInt8) (names : Lexeme.TellsNames good) (branch : Option Branch)
    (written : Branch.AlternateWritten good branch) :
    Spell (Branch.alternatePieces style depth branch)
      (Spelling.ofAlternate (Branch.regroupedOption branch)) := by
  cases branch with
  | none => exact .nil
  | some branch =>
      cases branch with
      | braced block =>
          have spell := spell_block depth names block written
          rw [Branch.alternatePieces, List.append_assoc, List.append_assoc, List.singleton_append]
          exact .skip style.lexemes_gap (.cons rfl (.skip style.lexemes_gap spell))
      | single statement =>
          have spell := (spell_statement depth names statement written).andThen
            (Statement.spell_terminator statement.erased_regrouped)
          rw [Branch.alternatePieces, List.append_assoc, List.append_assoc]
          exact .skip style.lexemes_gap (.cons rfl (.skipSpace spell))

end

end Piece

/-- The printed tokens of a script spell it, with the parentheses that are printed. -/
theorem Script.spell_pieces {good : Lexeme → Prop} (style : Style) (depth : UInt8)
    (names : Lexeme.TellsNames good) {script : Script} (formed : script.Formed good) :
    Piece.Spell (script.pieces style depth) (Spelling.ofStatements script.regrouped.items) :=
  Piece.spell_statements style depth names script.items
    (Statement.allWritten_of_formed script.items formed)

end ScriptStrip
