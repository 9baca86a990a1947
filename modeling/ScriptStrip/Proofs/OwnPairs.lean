import ScriptStrip.Proofs.AddedPairs
/-
This file counts the parentheses of printed text. A tree is written with some of them, and all
others are noted as added.
-/

namespace ScriptStrip

mutual

/-- The number of pairs of parentheses that the expression is written with: its own groups, and
those around arguments, parameters and conditions. -/
def Expression.ownPairs : Expression → Nat
  | .array items _ => Expression.allOwnPairs items
  | .object members _ => Member.allOwnPairs members
  | .function definition => definition.ownPairs
  | .group inner _ => inner.ownPairs + 1
  | .property parent _ _ => parent.ownPairs
  | .index parent key _ => parent.ownPairs + key.ownPairs
  | .call callee arguments _ => callee.ownPairs + (Expression.allOwnPairs arguments + 1)
  | .unary _ operand _ => operand.ownPairs
  | .binary left _ right _ => left.ownPairs + right.ownPairs
  | .assign target value _ => target.ownPairs + value.ownPairs
  | _ => 0

/-- The pairs of a list of expressions are counted together. -/
def Expression.allOwnPairs : List Expression → Nat
  | [] => 0
  | first :: rest => first.ownPairs + Expression.allOwnPairs rest

/-- The pairs in the values of an object are counted together. -/
def Member.allOwnPairs : List Member → Nat
  | [] => 0
  | ⟨_, value, _⟩ :: rest => value.ownPairs + Member.allOwnPairs rest

/-- A function has one pair for its parameters. -/
def FunctionDef.ownPairs : FunctionDef → Nat
  | ⟨_, _, body, _⟩ => body.ownPairs + 1

/-- A block has the pairs of its statements. -/
def Block.ownPairs : Block → Nat
  | ⟨items, _⟩ => Statement.allOwnPairs items

/-- A conditional has one pair for its condition. -/
def Statement.ownPairs : Statement → Nat
  | .expression value _ => value.ownPairs
  | .declaration _ items _ => Declarator.allOwnPairs items
  | .function definition => definition.ownPairs
  | .conditional condition consequent alternate _ =>
      condition.ownPairs + 1 + (consequent.ownPairs + Branch.alternateOwnPairs alternate)
  | .returning none _ => 0
  | .returning (some value) _ => value.ownPairs
  | .block inner => inner.ownPairs
  | .empty _ => 0

/-- The pairs of a list of statements are counted together. -/
def Statement.allOwnPairs : List Statement → Nat
  | [] => 0
  | first :: rest => first.ownPairs + Statement.allOwnPairs rest

/-- The pairs in the initial values are counted together. -/
def Declarator.allOwnPairs : List Declarator → Nat
  | [] => 0
  | ⟨_, none, _⟩ :: rest => Declarator.allOwnPairs rest
  | ⟨_, some value, _⟩ :: rest => value.ownPairs + Declarator.allOwnPairs rest

/-- A branch has the pairs of its block or statement. -/
def Branch.ownPairs : Branch → Nat
  | .braced block => block.ownPairs
  | .single statement => statement.ownPairs

/-- A missing branch has no pairs. -/
def Branch.alternateOwnPairs : Option Branch → Nat
  | none => 0
  | some branch => branch.ownPairs

end

namespace Piece

/-- The number of opening parentheses among the tokens. -/
def opened (pieces : List Piece) : Nat := (lexemes pieces).count (.punctuator .openParenthesis)

/-- The opening parentheses of joined pieces are counted together. -/
@[simp] theorem opened_append (first second : List Piece) :
    opened (first ++ second) = opened first + opened second := by
  simp [opened]

/-- Blanks open no parentheses. -/
theorem opened_of_blank {blanks : List Piece} (blank : lexemes blanks = []) : opened blanks = 0 := by
  rw [opened, blank]
  rfl

/-- A token that is no opening parenthesis, and what stands behind it. -/
theorem opened_cons {lexeme : Lexeme} {pieces : List Piece}
    (other : lexeme ≠ .punctuator .openParenthesis) :
    opened (token lexeme :: pieces) = opened pieces := by
  rw [opened, lexemes_token, List.count_cons_of_ne other, opened]

namespace Draft

/-- The text has so many pairs of parentheses of its own, and all others have been added. -/
def Owns (draft : Draft) (own : Nat) : Prop := opened draft.pieces = own + draft.added.length

namespace Owns

variable {first second draft : Draft} {own own' : Nat} {pieces : List Piece}

/-- A text without added pairs has the pairs that it opens. -/
theorem plain (none : opened pieces = own) : (Draft.plain pieces).Owns own := none

/-- Joined texts have the pairs of both. -/
theorem append (owns : first.Owns own) (owns' : second.Owns own') :
    (first ++ second).Owns (own + own') := by
  show opened (first.pieces ++ second.pieces) = _ + (List.map _ _ ++ List.map _ _).length
  rw [opened_append, owns, owns', List.length_append, List.length_map, List.length_map]
  omega

/-- Pieces in front that open nothing leave the count as it is. -/
theorem behind (none : opened pieces = 0) (owns : draft.Owns own) :
    (Draft.plain pieces ++ draft).Owns own :=
  Nat.zero_add own ▸ (plain none).append owns

/-- Pieces behind that open nothing leave the count as it is. -/
theorem before (owns : draft.Owns own) (none : opened pieces = 0) :
    (draft ++ Draft.plain pieces).Owns own := owns.append (plain none)

/-- Braces and brackets around a text leave the count as it is. -/
theorem enclosed {opening closing : Punctuator} (notOpening : opening ≠ .openParenthesis)
    (notOpening' : closing ≠ .openParenthesis) (owns : draft.Owns own) :
    (Draft.enclosed opening closing draft).Owns own :=
  behind (opened_cons (by simpa using notOpening))
    (owns.before (opened_cons (by simpa using notOpening')))

/-- The tree has these parentheses. -/
theorem group (owns : draft.Owns own) :
    (Draft.enclosed .openParenthesis .closeParenthesis draft).Owns (own + 1) := by
  have one : (Draft.plain [ofMark .openParenthesis]).Owns 1 := plain rfl
  rw [Nat.add_comm]
  exact one.append (owns.before rfl)

/-- A pair that is added is not one of the text's own. -/
theorem groupedIf (owns : draft.Owns own) (condition : Bool) :
    (draft.groupedIf condition).Owns own := by
  cases condition with
  | false => exact owns
  | true =>
      have grouped := owns.group
      rw [Owns, pieces_enclosed] at grouped
      show opened (Piece.enclosed _ _ draft.pieces) = own + (_ :: _).length
      rw [grouped, List.length_cons]
      omega

/-- Separators that open nothing leave the count as it is. -/
theorem separated {separator : List Piece} {rest : List Draft} (none : opened separator = 0)
    (owns : first.Owns own) (ownsRest : (Draft.separated separator rest).Owns own') :
    (Draft.separated separator (first :: rest)).Owns (own + own') := by
  cases rest with
  | nil =>
      obtain rfl : 0 = own' := ownsRest
      exact owns
  | cons second rest => exact owns.append (ownsRest.behind none)

end Owns

end Draft

/-- A word opens nothing. -/
theorem opened_ofWord (word : String) (pieces : List Piece) :
    opened (token (.ofWord word) :: pieces) = opened pieces :=
  opened_cons (by unfold Lexeme.ofWord; split <;> simp)

/-- A comma opens nothing. -/
theorem opened_comma (style : Style) : opened style.comma = 0 :=
  (opened_cons (by simp)).trans (opened_of_blank style.lexemes_gap)

/-- Between the parentheses around parameters there are no others. -/
theorem opened_parameters (style : Style) (names : List String) :
    opened (style.listed .openParenthesis .closeParenthesis
      (names.map fun name => [token (.ofWord name)])) = 1 := by
  have inside : opened (style.comma.intercalate (names.map fun name => [token (.ofWord name)])) =
      0 := by
    induction names with
    | nil => rfl
    | cons first rest step =>
        cases rest with
        | nil =>
            rw [List.map_singleton, List.intercalate_singleton]
            exact opened_ofWord first []
        | cons second rest =>
            rw [List.map_cons] at step
            rw [List.map_cons, List.map_cons, List.intercalate_cons_cons, opened_append,
              opened_append, step, opened_comma]
            exact opened_ofWord first []
  exact (Draft.Owns.plain inside).group

end Piece

open Piece

/-- A semicolon opens nothing. -/
theorem Statement.opened_terminator (statement : Statement) : opened statement.terminator = 0 := by
  unfold terminator
  split <;> rfl

section

variable (style : Style)

mutual

/-- An expression is printed with its own pairs and those that printing adds. -/
theorem Expression.owns_draft (depth : UInt8) (expression : Expression) :
    (expression.draft style depth).Owns expression.ownPairs := by
  cases expression with
  | array items span =>
      exact .enclosed (by simp) (by simp)
        (Expression.owns_itemDrafts depth (opened_comma style) items)
  | object members span =>
      cases members with
      | nil => exact .plain rfl
      | cons first rest =>
          have owns := Member.owns_allDrafts depth (opened_comma style) (first :: rest)
          have blank := opened_of_blank style.lexemes_gap
          rw [Expression.draft]
          · exact .enclosed (by simp) (by simp) ((owns.before blank).behind blank)
          · exact List.cons_ne_nil _ _
  | function definition => exact FunctionDef.owns_draft depth definition
  | group inner span => exact (Expression.owns_draft depth inner).group
  | property parent name span =>
      exact ((Expression.owns_draft depth parent).groupedIf _).before
        ((opened_cons (by simp)).trans (opened_ofWord name []))
  | index parent key span =>
      exact ((Expression.owns_draft depth parent).groupedIf _).append
        (.enclosed (by simp) (by simp) (Expression.owns_draft depth key))
  | call callee arguments span =>
      exact ((Expression.owns_draft depth callee).groupedIf _).append
        (Expression.owns_itemDrafts depth (opened_comma style) arguments).group
  | unary operator operand span =>
      have blank := opened_of_blank (lexemes_spaceIf (operator.isWord || operand.hasSign operator))
      have notOpening : operator.lexeme ≠ .punctuator .openParenthesis := by
        cases operator <;> decide
      exact .behind ((opened_cons notOpening).trans blank)
        ((Expression.owns_draft depth operand).groupedIf _)
  | binary left operator right span =>
      have blank := opened_of_blank (lexemes_spaceIf (style.pretty || right.isSigned))
      have notOpening : operator.lexeme ≠ .punctuator .openParenthesis := by
        cases operator <;> decide
      have between : opened (style.gap ++ token operator.lexeme ::
          if style.pretty || right.isSigned then [space] else []) = 0 := by
        rw [opened_append, opened_cons notOpening, blank, opened_of_blank style.lexemes_gap]
      exact ((Expression.owns_draft depth left).groupedIf _).append
        (.behind between ((Expression.owns_draft depth right).groupedIf _))
  | assign target value span =>
      have between : opened (style.gap ++ ofMark .assign :: style.gap) = 0 := by
        simp [opened, ofMark]
      exact ((Expression.owns_draft depth target).groupedIf _).append
        (.behind between ((Expression.owns_draft depth value).groupedIf _))
  | boolean value span => cases value <;> exact .plain rfl
  | reference name span => exact .plain (opened_ofWord name [])
  | _ => exact .plain rfl

/-- Items are printed with their own pairs and those that printing adds. -/
theorem Expression.owns_itemDrafts (depth : UInt8) {separator : List Piece}
    (none : opened separator = 0) (items : List Expression) :
    (Draft.separated separator (Expression.itemDrafts style depth items)).Owns
      (Expression.allOwnPairs items) := by
  cases items with
  | nil => exact .plain rfl
  | cons first rest =>
      exact .separated none ((Expression.owns_draft depth first).groupedIf _)
        (Expression.owns_itemDrafts depth none rest)

/-- Members are printed with their own pairs and those that printing adds. -/
theorem Member.owns_allDrafts (depth : UInt8) {separator : List Piece}
    (none : opened separator = 0) (members : List Member) :
    (Draft.separated separator (Member.allDrafts style depth members)).Owns
      (Member.allOwnPairs members) := by
  cases members with
  | nil => exact .plain rfl
  | cons first rest =>
      cases first with
      | mk key value span =>
          have head : opened (key.piece :: ofMark .colon :: style.gap) = 0 := by
            have behind : opened (ofMark .colon :: style.gap) = 0 := by simp [opened, ofMark]
            cases key with
            | identifier name span => exact (opened_ofWord name _).trans behind
            | string content quote span => exact (opened_cons (by simp)).trans behind
            | number digits span => exact (opened_cons (by simp)).trans behind
          exact .separated none (.behind head ((Expression.owns_draft depth value).groupedIf _))
            (Member.owns_allDrafts depth none rest)

/-- A function is printed with its own pairs and those that printing adds. -/
theorem FunctionDef.owns_draft (depth : UInt8) (definition : FunctionDef) :
    (definition.draft style depth).Owns definition.ownPairs := by
  cases definition with
  | mk name parameters body span =>
      have head : opened (style.listed .openParenthesis .closeParenthesis
          (parameters.map fun parameter => [token (.ofWord parameter)]) ++ style.gap) = 1 := by
        rw [opened_append, opened_parameters, opened_of_blank style.lexemes_gap]
      rw [FunctionDef.ownPairs, Nat.add_comm]
      cases name with
      | none =>
          have unnamed : opened (ofKeyword .functionKw ::
              (style.listed .openParenthesis .closeParenthesis
                (parameters.map fun parameter => [token (.ofWord parameter)]) ++ style.gap)) = 1 :=
            (opened_cons (by simp)).trans head
          exact (Draft.Owns.plain unnamed).append (Block.owns_draft depth body)
      | some name =>
          have named : opened (ofKeyword .functionKw :: space :: token (.ofWord name) ::
              (style.listed .openParenthesis .closeParenthesis
                (parameters.map fun parameter => [token (.ofWord parameter)]) ++ style.gap)) = 1 :=
            (opened_cons (by simp)).trans ((opened_ofWord name _).trans head)
          exact (Draft.Owns.plain named).append (Block.owns_draft depth body)

/-- A block is printed with its own pairs and those that printing adds. -/
theorem Block.owns_draft (depth : UInt8) (block : Block) :
    (block.draft style depth).Owns block.ownPairs := by
  cases block with
  | mk items span =>
      cases items with
      | nil => exact .plain rfl
      | cons first rest =>
          have owns := Statement.owns_lineDrafts (depth + 1) (first :: rest)
          have opening := opened_of_blank style.lexemes_lineBreak
          have closing : opened (style.lineBreak ++ style.indentation depth) = 0 := by
            simp [opened]
          rw [Block.draft]
          · exact .enclosed (by simp) (by simp) ((owns.before closing).behind opening)
          · exact List.cons_ne_nil _ _

/-- A statement is printed with its own pairs and those that printing adds. -/
theorem Statement.owns_draft (depth : UInt8) (statement : Statement) :
    (statement.draft style depth).Owns statement.ownPairs := by
  cases statement with
  | expression value span => exact (Expression.owns_draft depth value).groupedIf _
  | declaration word items span =>
      exact .behind (opened_cons (by simp)) (Declarator.owns_allDrafts depth items)
  | function definition => exact FunctionDef.owns_draft depth definition
  | conditional condition consequent alternate span =>
      have gap := opened_of_blank style.lexemes_gap
      exact .behind ((opened_cons (by simp)).trans gap)
        ((Expression.owns_draft depth condition).group.append
          (.behind gap ((Branch.owns_draft depth consequent).append
            (Branch.owns_alternateDraft depth alternate))))
  | returning value span =>
      cases value with
      | none => exact .plain rfl
      | some value => exact .behind rfl (Expression.owns_draft depth value)
  | block inner => exact Block.owns_draft depth inner
  | empty span => exact .plain rfl

/-- Lines are printed with their own pairs and those that printing adds. -/
theorem Statement.owns_lineDrafts (depth : UInt8) (items : List Statement) :
    (Draft.separated style.lineBreak (Statement.lineDrafts style depth items)).Owns
      (Statement.allOwnPairs items) := by
  cases items with
  | nil => exact .plain rfl
  | cons first rest =>
      have owns := (Statement.owns_draft depth first).before first.opened_terminator
      exact .separated (opened_of_blank style.lexemes_lineBreak)
        (.behind (opened_of_blank (style.lexemes_indentation depth)) owns)
        (Statement.owns_lineDrafts depth rest)

/-- Declared names are printed with their own pairs and those that printing adds. -/
theorem Declarator.owns_allDrafts (depth : UInt8) (items : List Declarator) :
    (Draft.separated style.comma (Declarator.allDrafts style depth items)).Owns
      (Declarator.allOwnPairs items) := by
  cases items with
  | nil => exact .plain rfl
  | cons first rest =>
      cases first with
      | mk name value span =>
          have owns := Declarator.owns_allDrafts depth rest
          cases value with
          | none =>
              have single : (Draft.plain [token (.ofWord name)]).Owns 0 :=
                .plain (opened_ofWord name [])
              have both := single.separated (opened_comma style) owns
              rwa [Nat.zero_add] at both
          | some value =>
              have between : opened (style.gap ++ ofMark .assign :: style.gap) = 0 := by
                simp [opened, ofMark]
              exact .separated (opened_comma style)
                (.behind ((opened_ofWord name _).trans between)
                  ((Expression.owns_draft depth value).groupedIf _)) owns

/-- A branch is printed with its own pairs and those that printing adds. -/
theorem Branch.owns_draft (depth : UInt8) (branch : Branch) :
    (branch.draft style depth).Owns branch.ownPairs := by
  cases branch with
  | braced block => exact Block.owns_draft depth block
  | single statement =>
      exact (Statement.owns_draft depth statement).before statement.opened_terminator

/-- A second branch is printed with its own pairs and those that printing adds. -/
theorem Branch.owns_alternateDraft (depth : UInt8) (branch : Option Branch) :
    (Branch.alternateDraft style depth branch).Owns (Branch.alternateOwnPairs branch) := by
  cases branch with
  | none => exact .plain rfl
  | some branch =>
      have gap := opened_of_blank style.lexemes_gap
      cases branch with
      | braced block => exact .behind (by simp [opened, ofKeyword]) (Block.owns_draft depth block)
      | single statement =>
          exact .behind (by simp [opened, ofKeyword, space])
            ((Statement.owns_draft depth statement).before statement.opened_terminator)

end

end

end ScriptStrip
