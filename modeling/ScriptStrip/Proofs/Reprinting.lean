import ScriptStrip.Proofs.Regrouped
/-
This file shows what the printed text of a tree does not depend on. These are the places that the
nodes were read from and the parentheses that the text has anyway.
-/

namespace ScriptStrip

/-- A key is printed without regard to its place. -/
@[simp] theorem PropertyKey.piece_placeless (key : PropertyKey) :
    key.placeless.piece = key.piece := by
  cases key <;> rfl

namespace Expression

@[simp] theorem isBareInteger_placeless (expression : Expression) :
    expression.placeless.isBareInteger = expression.isBareInteger := by
  cases expression <;> rfl

@[simp] theorem isSigned_placeless (expression : Expression) :
    expression.placeless.isSigned = expression.isSigned := by
  cases expression with
  | unary operator operand span => cases operator <;> rfl
  | _ => rfl

@[simp] theorem hasSign_placeless (operator : UnaryOperator) (expression : Expression) :
    expression.placeless.hasSign operator = expression.hasSign operator := by
  cases expression with
  | unary inner operand span => cases inner <;> rfl
  | _ => rfl

/-- Places do not change whether a statement needs parentheses at its start. -/
@[simp] theorem isAmbiguousAtStart_placeless (expression : Expression) :
    expression.placeless.isAmbiguousAtStart = expression.isAmbiguousAtStart := by
  cases expression with
  | property parent name span =>
      simp [placeless, isAmbiguousAtStart, isAmbiguousAtStart_placeless parent]
  | index parent key span =>
      simp [placeless, isAmbiguousAtStart, isAmbiguousAtStart_placeless parent]
  | call callee arguments span =>
      simp [placeless, isAmbiguousAtStart, isAmbiguousAtStart_placeless callee]
  | binary left operator right span =>
      simp [placeless, isAmbiguousAtStart, isAmbiguousAtStart_placeless left]
  | assign target value span =>
      simp [placeless, isAmbiguousAtStart, isAmbiguousAtStart_placeless target]
  | _ => rfl

/-- Places do not change whether a part needs parentheses. -/
@[simp] theorem placed_placeless (expression : Expression) (minimum : Precedence)
    (pieces : List Piece) :
    expression.placeless.placed minimum pieces = expression.placed minimum pieces := by
  simp [placed]

end Expression

@[simp] theorem Statement.terminator_placeless (statement : Statement) :
    statement.placeless.terminator = statement.terminator := by
  cases statement <;> rfl

mutual

/-- An expression is printed without regard to places. -/
theorem Expression.pieces_placeless (style : Style) (depth : UInt8) (expression : Expression) :
    expression.placeless.pieces style depth = expression.pieces style depth := by
  cases expression with
  | boolean value span => cases value <;> rfl
  | array items span =>
      simp [Expression.placeless, Expression.pieces,
        Expression.itemPieces_placelessAll style depth items]
  | object members span =>
      cases members with
      | nil => rfl
      | cons first rest =>
          have sameMembers := Member.allPieces_placelessAll style depth (first :: rest)
          cases first with
          | mk key value span' =>
              rw [Expression.placeless, Member.placelessAll, Expression.pieces, Expression.pieces]
              · rw [Member.placelessAll] at sameMembers
                rw [sameMembers]
              · exact List.cons_ne_nil _ _
              · exact List.cons_ne_nil _ _
  | function definition =>
      simp [Expression.placeless, Expression.pieces,
        FunctionDef.pieces_placeless style depth definition]
  | group inner span =>
      simp [Expression.placeless, Expression.pieces, Expression.pieces_placeless style depth inner]
  | property parent name span =>
      simp [Expression.placeless, Expression.pieces, Expression.pieces_placeless style depth parent]
  | index parent key span =>
      simp [Expression.placeless, Expression.pieces, Expression.pieces_placeless style depth parent,
        Expression.pieces_placeless style depth key]
  | call callee arguments span =>
      simp [Expression.placeless, Expression.pieces, Expression.pieces_placeless style depth callee,
        Expression.itemPieces_placelessAll style depth arguments]
  | unary operator operand span =>
      simp [Expression.placeless, Expression.pieces,
        Expression.pieces_placeless style depth operand]
  | binary left operator right span =>
      simp [Expression.placeless, Expression.pieces, Expression.pieces_placeless style depth left,
        Expression.pieces_placeless style depth right]
  | assign target value span =>
      simp [Expression.placeless, Expression.pieces, Expression.pieces_placeless style depth target,
        Expression.pieces_placeless style depth value]
  | _ => rfl

/-- Items are printed without regard to places. -/
theorem Expression.itemPieces_placelessAll (style : Style) (depth : UInt8)
    (items : List Expression) :
    Expression.itemPieces style depth (Expression.placelessAll items) =
      Expression.itemPieces style depth items := by
  cases items with
  | nil => rfl
  | cons first rest =>
      simp [Expression.placelessAll, Expression.itemPieces,
        Expression.pieces_placeless style depth first,
        Expression.itemPieces_placelessAll style depth rest]

/-- Members are printed without regard to places. -/
theorem Member.allPieces_placelessAll (style : Style) (depth : UInt8) (members : List Member) :
    Member.allPieces style depth (Member.placelessAll members) =
      Member.allPieces style depth members := by
  cases members with
  | nil => rfl
  | cons first rest =>
      cases first with
      | mk key value span =>
          simp [Member.placelessAll, Member.allPieces, Member.pieces,
            Expression.pieces_placeless style depth value,
            Member.allPieces_placelessAll style depth rest]

/-- A function is printed without regard to places. -/
theorem FunctionDef.pieces_placeless (style : Style) (depth : UInt8) (definition : FunctionDef) :
    definition.placeless.pieces style depth = definition.pieces style depth := by
  cases definition with
  | mk name parameters body span =>
      simp [FunctionDef.placeless, FunctionDef.pieces, Block.pieces_placeless style depth body]

/-- A block is printed without regard to places. -/
theorem Block.pieces_placeless (style : Style) (depth : UInt8) (block : Block) :
    block.placeless.pieces style depth = block.pieces style depth := by
  cases block with
  | mk items span =>
      cases items with
      | nil => rfl
      | cons first rest =>
          have sameLines := Statement.lines_placelessAll style (depth + 1) (first :: rest)
          rw [Statement.placelessAll] at sameLines
          rw [Block.placeless, Statement.placelessAll, Block.pieces, Block.pieces, sameLines]
          · exact List.cons_ne_nil _ _
          · exact List.cons_ne_nil _ _

/-- A statement is printed without regard to places. -/
theorem Statement.pieces_placeless (style : Style) (depth : UInt8) (statement : Statement) :
    statement.placeless.pieces style depth = statement.pieces style depth := by
  cases statement with
  | expression value span =>
      simp [Statement.placeless, Statement.pieces, Expression.pieces_placeless style depth value]
  | declaration word items span =>
      simp [Statement.placeless, Statement.pieces,
        Declarator.allPieces_placelessAll style depth items]
  | function definition =>
      simp [Statement.placeless, Statement.pieces,
        FunctionDef.pieces_placeless style depth definition]
  | conditional condition consequent alternate span =>
      simp [Statement.placeless, Statement.pieces,
        Expression.pieces_placeless style depth condition,
        Branch.pieces_placeless style depth consequent,
        Branch.alternatePieces_placelessOption style depth alternate]
  | returning value span =>
      cases value with
      | none => rfl
      | some value =>
          simp [Statement.placeless, Expression.placelessOption, Statement.pieces,
            Expression.pieces_placeless style depth value]
  | block inner =>
      simp [Statement.placeless, Statement.pieces, Block.pieces_placeless style depth inner]
  | empty span => rfl

/-- Lines are printed without regard to places. -/
theorem Statement.lines_placelessAll (style : Style) (depth : UInt8) (items : List Statement) :
    Statement.lines style depth (Statement.placelessAll items) =
      Statement.lines style depth items := by
  cases items with
  | nil => rfl
  | cons first rest =>
      simp [Statement.placelessAll, Statement.lines, Statement.pieces_placeless style depth first,
        Statement.lines_placelessAll style depth rest]

/-- Declared names are printed without regard to places. -/
theorem Declarator.allPieces_placelessAll (style : Style) (depth : UInt8)
    (items : List Declarator) :
    Declarator.allPieces style depth (Declarator.placelessAll items) =
      Declarator.allPieces style depth items := by
  cases items with
  | nil => rfl
  | cons first rest =>
      cases first with
      | mk name value span =>
          cases value with
          | none =>
              simp [Declarator.placelessAll, Expression.placelessOption, Declarator.allPieces,
                Declarator.pieces, Declarator.allPieces_placelessAll style depth rest]
          | some value =>
              simp [Declarator.placelessAll, Expression.placelessOption, Declarator.allPieces,
                Declarator.pieces, Expression.pieces_placeless style depth value,
                Declarator.allPieces_placelessAll style depth rest]

/-- A branch is printed without regard to places. -/
theorem Branch.pieces_placeless (style : Style) (depth : UInt8) (branch : Branch) :
    branch.placeless.pieces style depth = branch.pieces style depth := by
  cases branch with
  | braced block =>
      simp [Branch.placeless, Branch.pieces, Block.pieces_placeless style depth block]
  | single statement =>
      simp [Branch.placeless, Branch.pieces, Statement.pieces_placeless style depth statement]

/-- A second branch is printed without regard to places. -/
theorem Branch.alternatePieces_placelessOption (style : Style) (depth : UInt8)
    (branch : Option Branch) :
    Branch.alternatePieces style depth (Branch.placelessOption branch) =
      Branch.alternatePieces style depth branch := by
  cases branch with
  | none => rfl
  | some branch =>
      cases branch with
      | braced block =>
          simp [Branch.placelessOption, Branch.placeless, Branch.alternatePieces,
            Block.pieces_placeless style depth block]
      | single statement =>
          simp [Branch.placelessOption, Branch.placeless, Branch.alternatePieces,
            Statement.pieces_placeless style depth statement]

end

namespace Expression

/-- Parentheses in the tree are printed as the printer would add them. -/
theorem pieces_groupedIf (style : Style) (depth : UInt8) (condition : Bool)
    (expression : Expression) : (expression.groupedIf condition).pieces style depth =
      Piece.groupedIf condition (expression.pieces style depth) := by
  cases condition <;> rfl

/-- A part that binds tightly enough is printed as it is. -/
theorem placed_of_le {expression : Expression} {minimum : Precedence} {pieces : List Piece}
    (tight : minimum ≤ expression.precedence) : expression.placed minimum pieces = pieces := by
  rw [placed, decide_eq_false (Nat.not_lt.mpr tight)]
  rfl

/-- The parentheses that have been added are not added once more. -/
theorem placed_groupedIf (style : Style) (depth : UInt8) (expression : Expression)
    {minimum : Precedence} (small : minimum ≤ .primary) :
    (expression.regrouped.groupedIf (expression.precedence < minimum)).placed minimum
        ((expression.regrouped.groupedIf (expression.precedence < minimum)).pieces style depth) =
      expression.placed minimum (expression.regrouped.pieces style depth) := by
  rw [placed_of_le (expression.le_precedence_groupedIf _ small), pieces_groupedIf, placed]

/-- Behind the parentheses that have been added, a dot is no decimal point. -/
theorem isAccessible_groupedIf (parent : Expression) {condition : Bool}
    (isCondition : (parent.isBareInteger || parent.precedence < Precedence.member) = condition) :
    ((parent.regrouped.groupedIf condition).isBareInteger ||
      (parent.regrouped.groupedIf condition).precedence < Precedence.member) = false := by
  cases condition with
  | true => rfl
  | false => rw [groupedIf_false, isBareInteger_regrouped, precedence_regrouped, isCondition]

/-- With the parentheses that it needs, a statement is not ambiguous any more. -/
theorem isAmbiguousAtStart_groupedIf (expression : Expression) :
    (expression.regrouped.groupedIf expression.isAmbiguousAtStart).isAmbiguousAtStart = false := by
  cases ambiguous : expression.isAmbiguousAtStart with
  | true => rfl
  | false =>
      rw [groupedIf_false, Bool.eq_false_iff]
      intro stillAmbiguous
      have opens := opensLikeStatement_of_isAmbiguousAtStart stillAmbiguous
      rw [opensLikeStatement_regrouped, ambiguous] at opens
      cases opens

/-- A signed expression binds as tightly as a unary operator. -/
theorem unary_le_of_isSigned {expression : Expression} (signed : expression.isSigned = true) :
    .unary ≤ expression.precedence := by
  cases expression with
  | unary operator operand span => exact Nat.le_refl _
  | _ => cases signed

/-- An expression with a given sign is signed. -/
theorem isSigned_of_hasSign {operator : UnaryOperator} {expression : Expression}
    (hasSign : expression.hasSign operator = true) : expression.isSigned = true := by
  cases expression with
  | unary inner operand span => cases inner <;> first | rfl | cases hasSign
  | _ => cases hasSign

/-- An expression with a sign holds together as tightly as an operand has to. -/
theorem isSigned_groupedIf (expression : Expression) {minimum : Precedence}
    (small : minimum ≤ .unary) :
    (expression.regrouped.groupedIf (expression.precedence < minimum)).isSigned =
      expression.isSigned := by
  by_cases looser : expression.precedence < minimum
  · rw [decide_eq_true looser, groupedIf_true]
    cases signed : expression.isSigned with
    | false => rfl
    | true =>
        exact absurd (Nat.lt_of_lt_of_le looser small)
          (Nat.not_lt.mpr (unary_le_of_isSigned signed))
  · rw [decide_eq_false looser, groupedIf_false, isSigned_regrouped]

/-- The sign in front is seen before and behind regrouping alike. -/
theorem hasSign_groupedIf (operator : UnaryOperator) (expression : Expression) :
    (expression.regrouped.groupedIf (expression.precedence < Precedence.unary)).hasSign operator =
      expression.hasSign operator := by
  by_cases looser : expression.precedence < Precedence.unary
  · rw [decide_eq_true looser, groupedIf_true]
    cases hasSign : expression.hasSign operator with
    | false => rfl
    | true =>
        exact absurd looser
          (Nat.not_lt.mpr (unary_le_of_isSigned (isSigned_of_hasSign hasSign)))
  · rw [decide_eq_false looser, groupedIf_false, hasSign_regrouped]

end Expression

/-- Regrouping changes no semicolon. -/
theorem Statement.terminator_regrouped (statement : Statement) :
    statement.regrouped.terminator = statement.terminator := by
  cases statement <;> rfl

mutual

/-- The parentheses that printing adds are the ones that regrouping puts into the tree. -/
theorem Expression.pieces_regrouped (style : Style) (depth : UInt8) (expression : Expression) :
    expression.regrouped.pieces style depth = expression.pieces style depth := by
  cases expression with
  | array items span =>
      simp [Expression.regrouped, Expression.pieces,
        Expression.itemPieces_regroupedAll style depth items]
  | object members span =>
      cases members with
      | nil => rfl
      | cons first rest =>
          have sameMembers := Member.allPieces_regroupedAll style depth (first :: rest)
          cases first with
          | mk key value span' =>
              rw [Member.regroupedAll] at sameMembers
              rw [Expression.regrouped, Member.regroupedAll, Expression.pieces, Expression.pieces,
                sameMembers]
              · exact List.cons_ne_nil _ _
              · exact List.cons_ne_nil _ _
  | function definition => exact FunctionDef.pieces_regrouped style depth definition
  | group inner span =>
      rw [Expression.regrouped, Expression.pieces, Expression.pieces_regrouped style depth inner,
        Expression.pieces]
  | property parent name span =>
      rw [Expression.regrouped, Expression.pieces, Expression.isAccessible_groupedIf parent rfl,
        Expression.pieces_groupedIf, Expression.pieces_regrouped style depth parent,
        Expression.pieces]
      rfl
  | index parent key span =>
      rw [Expression.regrouped, Expression.pieces, Expression.placed_groupedIf _ _ _ (by decide),
        Expression.pieces_regrouped style depth parent, Expression.pieces_regrouped style depth key,
        Expression.pieces]
  | call callee arguments span =>
      rw [Expression.regrouped, Expression.pieces, Expression.placed_groupedIf _ _ _ (by decide),
        Expression.pieces_regrouped style depth callee,
        Expression.itemPieces_regroupedAll style depth arguments, Expression.pieces]
  | unary operator operand span =>
      rw [Expression.regrouped]
      split
      · rename_i isUndefined
        obtain ⟨rfl, isZero⟩ := isUndefined
        obtain ⟨span', rfl⟩ := Expression.isBareZero_iff.mp isZero
        rfl
      · rw [Expression.pieces, Expression.hasSign_groupedIf,
          Expression.placed_groupedIf _ _ _ (by decide),
          Expression.pieces_regrouped style depth operand, Expression.pieces]
  | binary left operator right span =>
      have small : operator.precedence + 1 ≤ .unary := operator.precedence_lt_unary
      have within : operator.precedence + 1 ≤ .primary := Nat.le_trans small (by decide)
      rw [Expression.regrouped, Expression.pieces, Expression.isSigned_groupedIf right small,
        Expression.placed_groupedIf _ _ left (Nat.le_of_succ_le within),
        Expression.placed_groupedIf _ _ right within,
        Expression.pieces_regrouped style depth left, Expression.pieces_regrouped style depth right,
        Expression.pieces]
  | assign target value span =>
      rw [Expression.regrouped, Expression.pieces, Expression.pieces_regrouped style depth target,
        Expression.pieces_regrouped style depth value, Expression.placed, Expression.placed,
        Expression.precedence_regrouped, Expression.precedence_regrouped, Expression.pieces,
        Expression.placed, Expression.placed]
  | _ => rfl

/-- Items are printed alike before and after regrouping. -/
theorem Expression.itemPieces_regroupedAll (style : Style) (depth : UInt8)
    (items : List Expression) :
    Expression.itemPieces style depth (Expression.regroupedAll items) =
      Expression.itemPieces style depth items := by
  cases items with
  | nil => rfl
  | cons first rest =>
      simp [Expression.regroupedAll, Expression.itemPieces, Expression.placed,
        Expression.pieces_regrouped style depth first,
        Expression.itemPieces_regroupedAll style depth rest]

/-- Members are printed alike before and after regrouping. -/
theorem Member.allPieces_regroupedAll (style : Style) (depth : UInt8) (members : List Member) :
    Member.allPieces style depth (Member.regroupedAll members) =
      Member.allPieces style depth members := by
  cases members with
  | nil => rfl
  | cons first rest =>
      cases first with
      | mk key value span =>
          simp [Member.regroupedAll, Member.allPieces, Member.pieces, Expression.placed,
            Expression.pieces_regrouped style depth value,
            Member.allPieces_regroupedAll style depth rest]

/-- Functions are printed alike before and after regrouping. -/
theorem FunctionDef.pieces_regrouped (style : Style) (depth : UInt8) (definition : FunctionDef) :
    definition.regrouped.pieces style depth = definition.pieces style depth := by
  cases definition with
  | mk name parameters body span =>
      simp [FunctionDef.regrouped, FunctionDef.pieces, Block.pieces_regrouped style depth body]

/-- Blocks are printed alike before and after regrouping. -/
theorem Block.pieces_regrouped (style : Style) (depth : UInt8) (block : Block) :
    block.regrouped.pieces style depth = block.pieces style depth := by
  cases block with
  | mk items span =>
      cases items with
      | nil => rfl
      | cons first rest =>
          have sameLines := Statement.lines_regroupedAll style (depth + 1) (first :: rest)
          rw [Statement.regroupedAll] at sameLines
          rw [Block.regrouped, Statement.regroupedAll, Block.pieces, Block.pieces, sameLines]
          · exact List.cons_ne_nil _ _
          · exact List.cons_ne_nil _ _

/-- Statements are printed alike before and after regrouping. -/
theorem Statement.pieces_regrouped (style : Style) (depth : UInt8) (statement : Statement) :
    statement.regrouped.pieces style depth = statement.pieces style depth := by
  cases statement with
  | expression value span =>
      rw [Statement.regrouped, Statement.pieces, Expression.isAmbiguousAtStart_groupedIf,
        Expression.pieces_groupedIf, Expression.pieces_regrouped style depth value,
        Statement.pieces]
      rfl
  | declaration word items span =>
      simp [Statement.regrouped, Statement.pieces,
        Declarator.allPieces_regroupedAll style depth items]
  | function definition => exact FunctionDef.pieces_regrouped style depth definition
  | conditional condition consequent alternate span =>
      simp [Statement.regrouped, Statement.pieces,
        Expression.pieces_regrouped style depth condition,
        Branch.pieces_regrouped style depth consequent,
        Branch.alternatePieces_regroupedOption style depth alternate]
  | returning value span =>
      cases value with
      | none => rfl
      | some value =>
          simp [Statement.regrouped, Expression.regroupedOption, Statement.pieces,
            Expression.pieces_regrouped style depth value]
  | block inner => exact Block.pieces_regrouped style depth inner
  | empty span => rfl

/-- Lines are printed alike before and after regrouping. -/
theorem Statement.lines_regroupedAll (style : Style) (depth : UInt8) (items : List Statement) :
    Statement.lines style depth (Statement.regroupedAll items) =
      Statement.lines style depth items := by
  cases items with
  | nil => rfl
  | cons first rest =>
      simp [Statement.regroupedAll, Statement.lines, Statement.pieces_regrouped style depth first,
        Statement.terminator_regrouped, Statement.lines_regroupedAll style depth rest]

/-- Declared names are printed alike before and after regrouping. -/
theorem Declarator.allPieces_regroupedAll (style : Style) (depth : UInt8)
    (items : List Declarator) :
    Declarator.allPieces style depth (Declarator.regroupedAll items) =
      Declarator.allPieces style depth items := by
  cases items with
  | nil => rfl
  | cons first rest =>
      cases first with
      | mk name value span =>
          cases value with
          | none =>
              simp [Declarator.regroupedAll, Expression.regroupedOption, Declarator.allPieces,
                Declarator.pieces, Declarator.allPieces_regroupedAll style depth rest]
          | some value =>
              simp [Declarator.regroupedAll, Expression.regroupedOption, Declarator.allPieces,
                Declarator.pieces, Expression.placed, Expression.pieces_regrouped style depth value,
                Declarator.allPieces_regroupedAll style depth rest]

/-- Branches are printed alike before and after regrouping. -/
theorem Branch.pieces_regrouped (style : Style) (depth : UInt8) (branch : Branch) :
    branch.regrouped.pieces style depth = branch.pieces style depth := by
  cases branch with
  | braced block => exact Block.pieces_regrouped style depth block
  | single statement =>
      simp [Branch.regrouped, Branch.pieces, Statement.pieces_regrouped style depth statement,
        Statement.terminator_regrouped]

/-- Second branches are printed alike before and after regrouping. -/
theorem Branch.alternatePieces_regroupedOption (style : Style) (depth : UInt8)
    (branch : Option Branch) :
    Branch.alternatePieces style depth (Branch.regroupedOption branch) =
      Branch.alternatePieces style depth branch := by
  cases branch with
  | none => rfl
  | some branch =>
      cases branch with
      | braced block =>
          simp [Branch.regroupedOption, Branch.regrouped, Branch.alternatePieces,
            Block.pieces_regrouped style depth block]
      | single statement =>
          simp [Branch.regroupedOption, Branch.regrouped, Branch.alternatePieces,
            Statement.pieces_regrouped style depth statement, Statement.terminator_regrouped]

end

/-- Scripts that differ only in places and in parentheses that are printed anyway are printed
alike. -/
theorem Script.print_of_placeless {script other : Script} (style : Style)
    (equal : script.placeless = other.regrouped.placeless) :
    script.print style = other.print style := by
  have sameItems := congrArg Script.items equal
  simp only [Script.placeless, Script.regrouped] at sameItems
  simp only [Script.print, Script.pieces]
  rw [← Statement.lines_placelessAll, sameItems, Statement.lines_placelessAll,
    Statement.lines_regroupedAll]

end ScriptStrip
