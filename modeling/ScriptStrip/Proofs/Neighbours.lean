import ScriptStrip.Proofs.NodeInduction
import ScriptStrip.Proofs.Reprinting
/-
This file says which tokens of a printed tree touch a sign behind them. Only the operator of two
operands can have such a neighbour: it is the number that its left operand ends with, or it is the
operator itself, which touches the sign that its right operand starts with.
-/

namespace ScriptStrip

section

variable {α : Type} {first second front : α} {before rest : List α}

/-- Two items stand side by side at the front or further on. -/
theorem pair_infix_cons_iff : [first, second] <:+: front :: rest ↔
    (front = first ∧ rest.head? = some second) ∨ [first, second] <:+: rest := by
  rw [List.infix_cons_iff, List.cons_prefix_cons]
  refine or_congr_left (and_congr eq_comm ?_)
  cases rest with
  | nil => simp
  | cons next rest => simp [eq_comm]

/-- Two items stand side by side in one of two lists, or where the lists meet. -/
theorem pair_infix_append_iff : [first, second] <:+: before ++ rest ↔
    [first, second] <:+: before ∨ [first, second] <:+: rest ∨
      (before.getLast? = some first ∧ rest.head? = some second) := by
  induction before with
  | nil => simp
  | cons front before step =>
      rw [List.cons_append, pair_infix_cons_iff, pair_infix_cons_iff, step]
      cases before with
      | nil => simp [or_comm]
      | cons next before => simp [List.getLast?_cons_cons, or_assoc]

end

namespace Expression

/-- The number whose token is the last one of the printed expression. -/
def lastNumber? : Expression → Option String
  | number digits _ => some digits
  | undefined _ => some "0"
  | unary _ operand _ =>
      if Precedence.unary ≤ operand.precedence then operand.lastNumber? else none
  | binary _ operator right _ =>
      if operator.precedence + 1 ≤ right.precedence then right.lastNumber? else none
  | assign _ value _ => value.lastNumber?
  | _ => none

/-- The sign whose token is the first one of the printed expression. -/
def firstSign? : Expression → Option Punctuator
  | unary .negate _ _ => some .minus
  | unary .plus _ _ => some .plus
  | binary left operator _ _ =>
      if operator.precedence ≤ left.precedence then left.firstSign? else none
  | _ => none

end Expression

/-- Two binary operators are written as signs. -/
theorem BinaryOperator.isSign_iff (operator : BinaryOperator) :
    (operator == .add || operator == .subtract) = true ↔
      operator.mark = .plus ∨ operator.mark = .minus := by
  cases operator <;> decide

/-- Printed between the operands without blanks, the operator is the sign or touches it. The first
of the two tokens is the number that the left operand ends with or the operator. -/
def Expression.Meets (first : Lexeme) (sign : Punctuator) : Expression → Prop
  | .binary left operator right _ =>
      operator.mark = sign ∧
        ((operator.precedence ≤ left.precedence ∧ left.lastNumber?.map Lexeme.number = some first) ∨
          (first = .punctuator sign ∧ right.isSigned = false ∧
            operator.precedence + 1 ≤ right.precedence ∧ right.firstSign? = some sign))
  | _ => False

/-- Only in an expression do a token and a sign meet. -/
def Node.Meets (first : Lexeme) (sign : Punctuator) : Node → Prop
  | .expression part => part.Meets first sign
  | _ => False

/-- The token is a number or the sign itself. -/
structure Lexeme.Nears (sign : Punctuator) (first : Lexeme) : Prop where
  isSign : sign = .plus ∨ sign = .minus
  isFirst : first = .punctuator sign ∨ ∃ digits, first = .number digits

namespace Piece

/-- The second token stands right behind the first one. -/
def Touch (first second : Lexeme) (pieces : List Piece) : Prop :=
  [token first, token second] <:+: pieces

/-- The piece is neither a number nor a sign. -/
def isQuiet : Piece → Bool
  | token (.number _) | token (.punctuator .plus) | token (.punctuator .minus) => false
  | _ => true

/-- The last piece is neither a number nor a sign. -/
def EndsQuiet (pieces : List Piece) : Prop :=
  ∃ piece, pieces.getLast? = some piece ∧ piece.isQuiet = true

/-- Joined pieces end as the last of them do. -/
theorem EndsQuiet.append {pieces : List Piece} (ends : EndsQuiet pieces) (before : List Piece) :
    EndsQuiet (before ++ pieces) := by
  obtain ⟨piece, isLast, quiet⟩ := ends
  exact ⟨piece, by rw [List.getLast?_append, isLast, Option.some_or], quiet⟩

/-- What is enclosed ends with its closing mark. -/
theorem endsQuiet_enclosed (opening : Punctuator) {closing : Punctuator} (inner : List Piece)
    (quiet : (ofMark closing).isQuiet = true) : EndsQuiet (enclosed opening closing inner) :=
  ⟨_, List.getLast?_concat, quiet⟩

section

variable {first second : Lexeme} {piece : Piece} {pieces rest : List Piece}

theorem touch_nil : ¬ Touch first second [] := by
  simp [Touch]

/-- Two pieces touch at the front or further on. -/
theorem touch_cons_iff : Touch first second (piece :: rest) ↔
    (piece = token first ∧ rest.head? = some (token second)) ∨ Touch first second rest :=
  pair_infix_cons_iff

theorem not_touch_singleton : ¬ Touch first second [piece] := by
  simp [touch_cons_iff, touch_nil]

/-- Two pieces touch in one of two texts, or where the texts meet. -/
theorem touch_append_iff : Touch first second (pieces ++ rest) ↔
    Touch first second pieces ∨ Touch first second rest ∨
      (pieces.getLast? = some (token first) ∧ rest.head? = some (token second)) :=
  pair_infix_append_iff

/-- Blanks are quiet. -/
theorem isQuiet_of_blank (blank : lexemes pieces = []) :
    ∀ piece ∈ pieces, piece.isQuiet = true := by
  intro piece inside
  have noLexeme := List.filterMap_eq_nil_iff.mp blank piece inside
  cases piece with
  | token lexeme => cases noLexeme
  | blank text => rfl

end

section

variable {sign : Punctuator} {first : Lexeme} (nears : first.Nears sign) {piece : Piece}
  {pieces rest : List Piece}

include nears

/-- A quiet piece is no sign. -/
theorem ne_sign_of_isQuiet (quiet : piece.isQuiet = true) : piece ≠ ofMark sign := by
  rintro rfl
  rcases nears.isSign with rfl | rfl <;> cases quiet

/-- A quiet piece is not the token that could touch a sign. -/
theorem ne_first_of_isQuiet (quiet : piece.isQuiet = true) : piece ≠ token first := by
  rintro rfl
  rcases nears.isFirst with rfl | ⟨digits, rfl⟩
  · exact ne_sign_of_isQuiet nears quiet rfl
  · cases quiet

/-- A quiet piece in front touches nothing. -/
theorem touch_cons_of_isQuiet (quiet : piece.isQuiet = true) :
    Touch first (.punctuator sign) (piece :: rest) ↔ Touch first (.punctuator sign) rest := by
  simp [touch_cons_iff, ne_first_of_isQuiet nears quiet]

/-- A quiet piece keeps two texts apart. -/
theorem touch_append_of_isQuiet (quiet : piece.isQuiet = true) :
    Touch first (.punctuator sign) (pieces ++ piece :: rest) ↔
      Touch first (.punctuator sign) pieces ∨ Touch first (.punctuator sign) rest := by
  have notSign : piece ≠ token (.punctuator sign) := ne_sign_of_isQuiet nears quiet
  simp [touch_append_iff, touch_cons_of_isQuiet nears quiet, notSign]

/-- A text that ends quietly does not end in the token. -/
theorem getLast?_ne_of_endsQuiet (ends : EndsQuiet pieces) :
    pieces.getLast? ≠ some (token first) := by
  obtain ⟨piece, isLast, quiet⟩ := ends
  rw [isLast, Ne, Option.some.injEq]
  exact ne_first_of_isQuiet nears quiet

/-- A text that ends quietly touches nothing behind it. -/
theorem touch_append_of_endsQuiet (ends : EndsQuiet pieces) :
    Touch first (.punctuator sign) (pieces ++ rest) ↔
      Touch first (.punctuator sign) pieces ∨ Touch first (.punctuator sign) rest := by
  simp [touch_append_iff, getLast?_ne_of_endsQuiet nears ends]

/-- Quiet pieces may be taken off the front. -/
theorem touch_quiet_append {quiets : List Piece} (quiet : ∀ piece ∈ quiets, piece.isQuiet = true) :
    Touch first (.punctuator sign) (quiets ++ pieces) ↔ Touch first (.punctuator sign) pieces := by
  induction quiets with
  | nil => rfl
  | cons piece quiets step =>
      rw [List.forall_mem_cons] at quiet
      rw [List.cons_append, touch_cons_of_isQuiet nears quiet.1, step quiet.2]

/-- Quiet pieces may be taken off the end. -/
theorem touch_append_quiet {quiets : List Piece} (quiet : ∀ piece ∈ quiets, piece.isQuiet = true) :
    Touch first (.punctuator sign) (pieces ++ quiets) ↔ Touch first (.punctuator sign) pieces := by
  cases quiets with
  | nil => rw [List.append_nil]
  | cons piece quiets =>
      rw [List.forall_mem_cons] at quiet
      have nowhere : ¬ Touch first (.punctuator sign) quiets := by
        rw [← List.append_nil quiets, touch_quiet_append nears quiet.2]
        exact touch_nil
      rw [touch_append_of_isQuiet nears quiet.1, or_iff_left nowhere]

/-- Quiet marks around a text touch nothing. -/
theorem touch_enclosed {opening closing : Punctuator} (opens : (ofMark opening).isQuiet = true)
    (closes : (ofMark closing).isQuiet = true) :
    Touch first (.punctuator sign) (enclosed opening closing pieces) ↔
      Touch first (.punctuator sign) pieces := by
  rw [enclosed, List.cons_append, touch_cons_of_isQuiet nears opens]
  exact touch_append_quiet nears (List.forall_mem_singleton.mpr closes)

/-- What is enclosed in quiet marks does not touch the text in front. -/
theorem touch_append_enclosed {opening closing : Punctuator}
    (opens : (ofMark opening).isQuiet = true) (closes : (ofMark closing).isQuiet = true) :
    Touch first (.punctuator sign) (rest ++ enclosed opening closing pieces) ↔
      Touch first (.punctuator sign) rest ∨ Touch first (.punctuator sign) pieces := by
  rw [enclosed, List.cons_append, touch_append_of_isQuiet nears opens,
    touch_append_quiet nears (List.forall_mem_singleton.mpr closes)]

/-- Parentheses touch nothing. -/
theorem touch_groupedIf (condition : Bool) :
    Touch first (.punctuator sign) (groupedIf condition pieces) ↔
      Touch first (.punctuator sign) pieces := by
  cases condition with
  | true => exact touch_enclosed nears rfl rfl
  | false => rfl

/-- Items with commas between them touch only inside. -/
theorem touch_separated (style : Style) (items : List (List Piece)) :
    Touch first (.punctuator sign) (style.comma.intercalate items) ↔
      ∃ item ∈ items, Touch first (.punctuator sign) item := by
  induction items with
  | nil => simp [touch_nil]
  | cons item items step =>
      cases items with
      | nil => simp
      | cons next items =>
          have isComma (behind : List Piece) :
              style.comma ++ behind = ofMark .comma :: (style.gap ++ behind) := rfl
          rw [List.intercalate_cons_cons, List.append_assoc, isComma,
            touch_append_of_isQuiet nears rfl,
            touch_quiet_append nears (isQuiet_of_blank style.lexemes_gap), step]
          simp

/-- The items of a list touch only inside. -/
theorem touch_listed (style : Style) {opening closing : Punctuator}
    (opens : (ofMark opening).isQuiet = true) (closes : (ofMark closing).isQuiet = true)
    (items : List (List Piece)) :
    Touch first (.punctuator sign) (style.listed opening closing items) ↔
      ∃ item ∈ items, Touch first (.punctuator sign) item := by
  rw [Style.listed, touch_enclosed nears opens closes, touch_separated nears]

/-- Lines do not touch each other if each of them ends in a quiet piece. -/
theorem touch_lines (style : Style) {lines : List (List Piece)}
    (ends : ∀ line ∈ lines, EndsQuiet line) :
    Touch first (.punctuator sign) (style.lineBreak.intercalate lines) ↔
      ∃ line ∈ lines, Touch first (.punctuator sign) line := by
  induction lines with
  | nil => simp [touch_nil]
  | cons line lines step =>
      rw [List.forall_mem_cons] at ends
      cases lines with
      | nil => simp
      | cons next lines =>
          rw [List.intercalate_cons_cons, List.append_assoc,
            touch_append_of_endsQuiet nears ends.1,
            touch_quiet_append nears (isQuiet_of_blank style.lexemes_lineBreak), step ends.2]
          simp

end

end Piece

/-- A word is quiet. -/
theorem Lexeme.isQuiet_ofWord (word : String) : (Piece.token (.ofWord word)).isQuiet = true := by
  unfold Lexeme.ofWord
  split <;> rfl

/-- A block ends with its brace. -/
theorem Block.endsQuiet_pieces (style : Style) (depth : UInt8) (block : Block) :
    Piece.EndsQuiet (block.pieces style depth) := by
  cases block with
  | mk items span =>
      cases items with
      | nil => exact ⟨_, rfl, rfl⟩
      | cons first rest =>
          rw [Block.pieces]
          · exact Piece.endsQuiet_enclosed _ _ rfl
          · exact List.cons_ne_nil _ _

/-- A function ends with the brace of its body. -/
theorem FunctionDef.endsQuiet_pieces (style : Style) (depth : UInt8) (definition : FunctionDef) :
    Piece.EndsQuiet (definition.pieces style depth) := by
  cases definition with
  | mk name parameters body span => exact (body.endsQuiet_pieces style depth).append _

mutual

/-- A statement ends with a semicolon or a brace. -/
theorem Statement.endsQuiet_line (style : Style) (depth : UInt8) (statement : Statement) :
    Piece.EndsQuiet (statement.pieces style depth ++ statement.terminator) := by
  cases statement with
  | function definition =>
      show Piece.EndsQuiet (definition.pieces style depth ++ [])
      rw [List.append_nil]
      exact definition.endsQuiet_pieces style depth
  | conditional condition consequent alternate span =>
      show Piece.EndsQuiet ((_ ++ consequent.pieces style depth ++
        Branch.alternatePieces style depth alternate) ++ [])
      rw [List.append_nil]
      cases alternate with
      | none =>
          rw [Branch.alternatePieces, List.append_nil]
          exact (consequent.endsQuiet_pieces style depth).append _
      | some branch =>
          have ends := branch.endsQuiet_pieces style depth
          cases branch with
          | braced block => exact (ends.append _).append _
          | single statement =>
              rw [Branch.alternatePieces, List.append_assoc _ _ statement.terminator]
              exact (ends.append _).append _
  | block inner =>
      show Piece.EndsQuiet (inner.pieces style depth ++ [])
      rw [List.append_nil]
      exact inner.endsQuiet_pieces style depth
  | empty span => exact ⟨_, rfl, rfl⟩
  | _ =>
      have ends : Piece.EndsQuiet [.ofMark .semicolon] := ⟨_, rfl, rfl⟩
      exact ends.append _

/-- A branch ends with a semicolon or a brace. -/
theorem Branch.endsQuiet_pieces (style : Style) (depth : UInt8) (branch : Branch) :
    Piece.EndsQuiet (branch.pieces style depth) := by
  cases branch with
  | braced block => exact block.endsQuiet_pieces style depth
  | single statement => exact statement.endsQuiet_line style depth

end

/-- Every line ends with a semicolon or a brace. -/
theorem Statement.endsQuiet_lines (style : Style) (depth : UInt8) (items : List Statement) :
    ∀ line ∈ Statement.lines style depth items, Piece.EndsQuiet line := by
  induction items with
  | nil => simp [Statement.lines]
  | cons item items step =>
      rw [Statement.lines, List.forall_mem_cons, List.append_assoc]
      exact ⟨(item.endsQuiet_line style depth).append _, step⟩

namespace Expression

/-- An expression is printed with at least one piece. -/
theorem pieces_ne_nil (style : Style) (depth : UInt8) (expression : Expression) :
    expression.pieces style depth ≠ [] := by
  cases expression with
  | boolean value span => cases value <;> exact List.cons_ne_nil _ _
  | object members span => cases members <;> simp [Expression.pieces, Piece.enclosed]
  | function definition =>
      cases definition
      simp [Expression.pieces, FunctionDef.pieces]
  | _ => simp [Expression.pieces, Style.listed, Piece.enclosed, Piece.groupedIf]

/-- A part is printed with at least one piece. -/
theorem placed_ne_nil (style : Style) (depth : UInt8) (minimum : Precedence)
    (expression : Expression) :
    expression.placed minimum (expression.pieces style depth) ≠ [] := by
  unfold placed Piece.groupedIf
  split
  · exact List.cons_ne_nil _ _
  · exact expression.pieces_ne_nil style depth

/-- An expression that binds as tightly as a call starts with no sign. -/
theorem firstSign?_of_member_le {expression : Expression}
    (tight : .member ≤ expression.precedence) : expression.firstSign? = none := by
  cases expression with
  | unary operator operand span =>
      exact absurd tight (by decide : ¬ Precedence.member ≤ Precedence.unary)
  | binary left operator right span =>
      exact absurd tight (Nat.not_le.mpr operator.precedence_lt_member)
  | _ => rfl

variable {sign : Punctuator} {first : Lexeme} (nears : first.Nears sign) {style : Style}
  {depth : UInt8}

include nears

/-- Parentheses keep the last token of an operand apart. -/
theorem getLast?_placed {expression : Expression} {minimum : Precedence} {pieces : List Piece} :
    (expression.placed minimum pieces).getLast? = some (.token first) ↔
      minimum ≤ expression.precedence ∧ pieces.getLast? = some (.token first) := by
  unfold placed Piece.groupedIf
  split
  · rename_i loose
    have notTight := Nat.not_le.mpr (of_decide_eq_true loose)
    have ends : Piece.EndsQuiet (Piece.enclosed .openParenthesis .closeParenthesis pieces) :=
      Piece.endsQuiet_enclosed _ _ rfl
    simp [Piece.getLast?_ne_of_endsQuiet nears ends, notTight]
  · rename_i tight
    rw [decide_eq_true_eq, Nat.not_lt] at tight
    exact (and_iff_right tight).symm

/-- A part starts with a sign if it does and needs no parentheses. -/
theorem head?_placed {expression : Expression} {minimum : Precedence} {pieces : List Piece} :
    (expression.placed minimum pieces).head? = some (.ofMark sign) ↔
      minimum ≤ expression.precedence ∧ pieces.head? = some (.ofMark sign) := by
  unfold placed Piece.groupedIf
  split
  · rename_i loose
    have notTight := Nat.not_le.mpr (of_decide_eq_true loose)
    have notSign : Piece.ofMark .openParenthesis ≠ .ofMark sign :=
      Piece.ne_sign_of_isQuiet nears rfl
    simp [Piece.enclosed, notTight, notSign]
  · rename_i tight
    rw [decide_eq_true_eq, Nat.not_lt] at tight
    exact (and_iff_right tight).symm

/-- The last piece of an expression is its last number, if it ends in one. -/
theorem getLast?_pieces (expression : Expression) :
    (expression.pieces style depth).getLast? = some (.token first) ↔
      expression.lastNumber?.map Lexeme.number = some first := by
  have ofQuiet {pieces : List Piece} (ends : Piece.EndsQuiet pieces) :
      pieces.getLast? = some (.token first) ↔ none.map Lexeme.number = some first := by
    simp [Piece.getLast?_ne_of_endsQuiet nears ends]
  have ofOperand {operand : Expression} {minimum : Precedence} {before : List Piece}
      (step : (operand.pieces style depth).getLast? = some (.token first) ↔
        operand.lastNumber?.map Lexeme.number = some first) :
      (before ++ operand.placed minimum (operand.pieces style depth)).getLast? =
          some (.token first) ↔
        (if minimum ≤ operand.precedence then operand.lastNumber? else none).map Lexeme.number =
          some first := by
    rw [List.getLast?_append_of_ne_nil _ (operand.placed_ne_nil style depth minimum),
      getLast?_placed nears, step]
    split
    · rename_i tight
      simp [tight]
    · rename_i loose
      simp [loose]
  cases expression with
  | number digits span => simp [Expression.pieces, lastNumber?]
  | undefined span => simp [Expression.pieces, lastNumber?]
  | unary operator operand span => exact ofOperand (getLast?_pieces operand)
  | binary left operator right span => exact ofOperand (getLast?_pieces right)
  | assign target value span =>
      have isLast : (if Precedence.assignment ≤ value.precedence then value.lastNumber? else none) =
          value.lastNumber? := if_pos value.assignment_le_precedence
      rw [lastNumber?, ← isLast]
      exact ofOperand (getLast?_pieces value)
  | string content quote span => exact ofQuiet ⟨_, rfl, rfl⟩
  | boolean value span => cases value <;> exact ofQuiet ⟨_, rfl, rfl⟩
  | null span => exact ofQuiet ⟨_, rfl, rfl⟩
  | array items span => exact ofQuiet (Piece.endsQuiet_enclosed _ _ rfl)
  | object members span =>
      cases members with
      | nil => exact ofQuiet ⟨_, rfl, rfl⟩
      | cons member members =>
          rw [Expression.pieces]
          · exact ofQuiet (Piece.endsQuiet_enclosed _ _ rfl)
          · exact List.cons_ne_nil _ _
  | function definition => exact ofQuiet (definition.endsQuiet_pieces style depth)
  | group inner span => exact ofQuiet (Piece.endsQuiet_enclosed _ _ rfl)
  | reference name span => exact ofQuiet ⟨_, rfl, Lexeme.isQuiet_ofWord name⟩
  | property parent name span =>
      have ends : Piece.EndsQuiet [.ofMark .dot, .token (.ofWord name)] :=
        ⟨_, rfl, Lexeme.isQuiet_ofWord name⟩
      exact ofQuiet (ends.append _)
  | index parent key span => exact ofQuiet ((Piece.endsQuiet_enclosed _ _ rfl).append _)
  | call callee arguments span => exact ofQuiet ((Piece.endsQuiet_enclosed _ _ rfl).append _)

/-- The first piece of an expression is its first sign, if it starts with one. -/
theorem head?_pieces (expression : Expression) :
    (expression.pieces style depth).head? = some (.ofMark sign) ↔
      expression.firstSign? = some sign := by
  have ofQuiet {pieces : List Piece} (piece : Piece) (quiet : piece.isQuiet = true)
      (isFirst : pieces.head? = some piece) :
      pieces.head? = some (.ofMark sign) ↔ (none : Option Punctuator) = some sign := by
    have notSign := Piece.ne_sign_of_isQuiet nears quiet
    simp [isFirst, notSign]
  have ofOperand {operand : Expression} {minimum : Precedence} {behind : List Piece}
      (step : (operand.pieces style depth).head? = some (.ofMark sign) ↔
        operand.firstSign? = some sign) :
      (operand.placed minimum (operand.pieces style depth) ++ behind).head? =
          some (.ofMark sign) ↔
        (if minimum ≤ operand.precedence then operand.firstSign? else none) = some sign := by
    rw [List.head?_append_of_ne_nil _ (operand.placed_ne_nil style depth minimum),
      head?_placed nears, step]
    split
    · rename_i tight
      simp [tight]
    · rename_i loose
      simp [loose]
  have ofParent {parent : Expression} {behind : List Piece}
      (step : (parent.pieces style depth).head? = some (.ofMark sign) ↔
        parent.firstSign? = some sign) :
      (parent.placed .member (parent.pieces style depth) ++ behind).head? = some (.ofMark sign) ↔
        (none : Option Punctuator) = some sign := by
    rw [ofOperand step]
    split
    · rename_i tight
      rw [firstSign?_of_member_le tight]
    · rfl
  cases expression with
  | unary operator operand span =>
      rcases nears.isSign with rfl | rfl <;> cases operator <;>
        simp [Expression.pieces, firstSign?, UnaryOperator.lexeme, Piece.ofMark]
  | binary left operator right span =>
      rw [Expression.pieces, List.append_assoc, List.append_assoc, List.append_assoc]
      exact ofOperand (head?_pieces left)
  | property parent name span =>
      rw [Expression.pieces]
      cases parent.isBareInteger with
      | true => exact ofQuiet (.ofMark .openParenthesis) rfl rfl
      | false => exact ofParent (head?_pieces parent)
  | index parent key span => exact ofParent (head?_pieces parent)
  | call callee arguments span => exact ofParent (head?_pieces callee)
  | assign target value span =>
      rw [Expression.pieces, List.append_assoc, List.append_assoc, List.append_assoc]
      exact ofParent (head?_pieces target)
  | function definition =>
      cases definition
      exact ofQuiet _ rfl rfl
  | boolean value span => cases value <;> exact ofQuiet _ rfl rfl
  | object members span => cases members <;> exact ofQuiet _ rfl rfl
  | reference name span => exact ofQuiet _ (Lexeme.isQuiet_ofWord name) rfl
  | number digits span => simp [Expression.pieces, firstSign?, Piece.ofMark]
  | _ => exact ofQuiet _ rfl rfl

/-- Parentheses around a part change nothing about what touches inside. -/
theorem touch_placed {expression : Expression} {minimum : Precedence} {pieces : List Piece} :
    Piece.Touch first (.punctuator sign) (expression.placed minimum pieces) ↔
      Piece.Touch first (.punctuator sign) pieces :=
  Piece.touch_groupedIf nears _

omit nears in
/-- A sign is kept apart from an operand that starts with the same sign. -/
theorem hasSign_of_firstSign? {operand : Expression} {operator : UnaryOperator}
    (tight : .unary ≤ operand.precedence) (starts : operand.firstSign? = some sign)
    (isSign : operator.lexeme = .punctuator sign) : operand.hasSign operator = true := by
  cases operand with
  | unary inner operand span =>
      cases inner with
      | negate =>
          cases starts
          cases operator <;> first | rfl | cases isSign
      | plus =>
          cases starts
          cases operator <;> first | rfl | cases isSign
      | _ => cases starts
  | binary left inner right span =>
      exact absurd tight (Nat.not_le.mpr inner.precedence_lt_unary)
  | _ => cases starts

/-- In a unary expression the operator may touch the sign of its operand. -/
theorem touch_unary (operator : UnaryOperator) (operand : Expression) (span : Span) :
    Piece.Touch first (.punctuator sign) ((unary operator operand span).pieces style depth) ↔
      Piece.Touch first (.punctuator sign) (operand.pieces style depth) := by
  rw [Expression.pieces, List.cons_append, Piece.touch_cons_iff,
    Piece.touch_quiet_append nears (Piece.isQuiet_of_blank (Piece.lexemes_spaceIf _)),
    touch_placed nears, or_iff_right]
  rintro ⟨isFirst, isSecond⟩
  rw [Piece.token.injEq] at isFirst
  have isSign : operator.lexeme = .punctuator sign := by
    rcases nears.isFirst with isSign | ⟨digits, isNumber⟩
    · exact isFirst.trans isSign
    · rw [isNumber] at isFirst
      cases operator <;> cases isFirst
  cases spaced : operator.isWord || operand.hasSign operator with
  | true =>
      rw [spaced] at isSecond
      cases isSecond
  | false =>
      rw [spaced] at isSecond
      obtain ⟨tight, starts⟩ := (head?_placed nears).mp isSecond
      rw [Bool.or_eq_false_iff,
        hasSign_of_firstSign? tight ((head?_pieces nears operand).mp starts) isSign] at spaced
      cases spaced.2

/-- In a binary expression the operator may touch the end of the left and the start of the right.
-/
theorem touch_binary (left : Expression) (operator : BinaryOperator) (right : Expression)
    (span : Span) :
    Piece.Touch first (.punctuator sign)
        ((binary left operator right span).pieces style depth) ↔
      (style.pretty = false ∧ (binary left operator right span).Meets first sign) ∨
        Piece.Touch first (.punctuator sign) (left.pieces style depth) ∨
        Piece.Touch first (.punctuator sign) (right.pieces style depth) := by
  rw [Expression.pieces, List.append_assoc, List.append_assoc, List.append_assoc,
    List.singleton_append, Style.gap]
  have ofOperator (behind : List Piece) :
      Piece.Touch first (.punctuator sign) (.token operator.lexeme :: behind) ↔
        (first = operator.lexeme ∧ behind.head? = some (.ofMark sign)) ∨
          Piece.Touch first (.punctuator sign) behind := by
    rw [Piece.touch_cons_iff, Piece.token.injEq, eq_comm]
    rfl
  -- In the pretty style the operator stands between spaces, so no token touches another one
  -- there.
  cases style.pretty with
  | true =>
      simp only [Bool.true_or, if_true, List.singleton_append]
      rw [Piece.touch_append_of_isQuiet nears rfl, ofOperator,
        Piece.touch_cons_of_isQuiet nears rfl, touch_placed nears, touch_placed nears]
      simp [Piece.space, Piece.ofMark]
  | false =>
      have isMark : operator.lexeme = .punctuator sign ↔ operator.mark = sign :=
        Lexeme.punctuator.injEq operator.mark sign ▸ Iff.rfl
      have isFirst : first = operator.lexeme ↔
          operator.mark = sign ∧ first = .punctuator sign := by
        constructor
        · rintro rfl
          rcases nears.isFirst with isSign | ⟨digits, isNumber⟩
          · exact ⟨isMark.mp isSign, isSign⟩
          · cases isNumber
        · rintro ⟨rfl, isSign⟩
          exact isSign
      have ofRight : ((if right.isSigned then [Piece.space] else []) ++
          right.placed (operator.precedence + 1) (right.pieces style depth)).head? =
            some (.ofMark sign) ↔
          right.isSigned = false ∧ operator.precedence + 1 ≤ right.precedence ∧
            right.firstSign? = some sign := by
        cases right.isSigned with
        | true => simp [Piece.space, Piece.ofMark]
        | false => simp [head?_placed nears, head?_pieces nears]
      simp only [Bool.false_or, Bool.false_eq_true, if_false, List.nil_append, true_and]
      rw [Piece.touch_append_iff, getLast?_placed nears, getLast?_pieces nears, ofOperator,
        Piece.touch_quiet_append nears (Piece.isQuiet_of_blank (Piece.lexemes_spaceIf _)),
        touch_placed nears, touch_placed nears, ofRight, isFirst, List.head?_cons, Meets,
        Option.some.injEq, Piece.token.injEq, isMark]
      constructor
      · rintro (inLeft | (⟨⟨isSign, isOperator⟩, starts⟩ | inRight) | ⟨ends, isSign⟩)
        · exact .inr (.inl inLeft)
        · exact .inl ⟨isSign, .inr ⟨isOperator, starts⟩⟩
        · exact .inr (.inr inRight)
        · exact .inl ⟨isSign, .inl ends⟩
      · rintro (⟨isSign, ends | ⟨isOperator, starts⟩⟩ | inLeft | inRight)
        · exact .inr (.inr ⟨ends, isSign⟩)
        · exact .inr (.inl (.inl ⟨⟨isSign, isOperator⟩, starts⟩))
        · exact .inl inLeft
        · exact .inr (.inl (.inr inRight))

end Expression

namespace Piece

variable {sign : Punctuator} {first : Lexeme} (nears : first.Nears sign) {style : Style}
  {depth : UInt8}

include nears

/-- An assignment sign keeps what it stands between apart. -/
theorem touch_assigned {target value : List Piece} :
    Touch first (.punctuator sign)
        (target ++ style.gap ++ [.ofMark .assign] ++ style.gap ++ value) ↔
      Touch first (.punctuator sign) target ∨ Touch first (.punctuator sign) value := by
  rw [List.append_assoc, List.append_assoc, List.singleton_append,
    touch_append_of_isQuiet nears rfl,
    touch_append_quiet nears (isQuiet_of_blank style.lexemes_gap),
    touch_quiet_append nears (isQuiet_of_blank style.lexemes_gap)]

/-- In the items of a list something touches if it does in one of them. -/
theorem touch_items (items : List Expression) :
    (∃ item ∈ Expression.itemPieces style depth items, Touch first (.punctuator sign) item) ↔
      ∃ part ∈ items.map Node.expression,
        Touch first (.punctuator sign) (part.pieces style depth) := by
  induction items with
  | nil => simp [Expression.itemPieces]
  | cons item items step =>
      simp only [Expression.itemPieces, List.exists_mem_cons_iff, List.map_cons, step,
        Expression.touch_placed nears, Node.pieces]

/-- In the members of an object something touches if it does in one of the values. -/
theorem touch_members (members : List Member) :
    (∃ item ∈ Member.allPieces style depth members, Touch first (.punctuator sign) item) ↔
      ∃ part ∈ members.map fun member => Node.expression member.value,
        Touch first (.punctuator sign) (part.pieces style depth) := by
  induction members with
  | nil => simp [Member.allPieces]
  | cons member members step =>
      cases member with
      | mk key value span =>
          have ofMember : Touch first (.punctuator sign)
                (Member.pieces style depth ⟨key, value, span⟩) ↔
              Touch first (.punctuator sign) (value.pieces style depth) := by
            have isMember : Member.pieces style depth ⟨key, value, span⟩ = [key.piece] ++
                .ofMark .colon :: (style.gap ++
                  value.placed .assignment (value.pieces style depth)) := rfl
            rw [isMember, touch_append_of_isQuiet nears rfl, or_iff_right not_touch_singleton,
              touch_quiet_append nears (isQuiet_of_blank style.lexemes_gap),
              Expression.touch_placed nears]
          simp only [Member.allPieces, List.exists_mem_cons_iff, List.map_cons, step, ofMember,
            Node.pieces]

/-- In declared names something touches if it does in one of the initial values. -/
theorem touch_declarators (items : List Declarator) :
    (∃ item ∈ Declarator.allPieces style depth items, Touch first (.punctuator sign) item) ↔
      ∃ part ∈ (items.filterMap Declarator.value).map Node.expression,
        Touch first (.punctuator sign) (part.pieces style depth) := by
  induction items with
  | nil => simp [Declarator.allPieces]
  | cons item items step =>
      cases item with
      | mk name value span =>
          rw [Declarator.allPieces, List.exists_mem_cons_iff, step]
          cases value with
          | none => simp [Declarator.pieces, not_touch_singleton]
          | some value =>
              have ofDeclarator : Touch first (.punctuator sign)
                    (Declarator.pieces style depth ⟨name, some value, span⟩) ↔
                  Touch first (.punctuator sign) (value.pieces style depth) := by
                have isAssigned : Declarator.pieces style depth ⟨name, some value, span⟩ =
                    [.token (.ofWord name)] ++ style.gap ++ [.ofMark .assign] ++ style.gap ++
                      value.placed .assignment (value.pieces style depth) := rfl
                rw [isAssigned, touch_assigned nears, or_iff_right not_touch_singleton,
                  Expression.touch_placed nears]
              rw [ofDeclarator]
              simp [Node.pieces]

/-- In an expression something touches at its own operator or in one of its parts. -/
theorem touch_expression (expression : Expression) :
    Touch first (.punctuator sign) (expression.pieces style depth) ↔
      (style.pretty = false ∧ expression.Meets first sign) ∨
        ∃ part ∈ Node.ofExpression expression,
          Touch first (.punctuator sign) (part.pieces style depth) := by
  have ofLeaf {pieces : List Piece} (apart : ¬ Touch first (.punctuator sign) pieces) :
      Touch first (.punctuator sign) pieces ↔ (style.pretty = false ∧ False) ∨
        ∃ part ∈ ([] : List Node), Touch first (.punctuator sign) (part.pieces style depth) := by
    simp [apart]
  cases expression with
  | boolean value span => cases value <;> exact ofLeaf not_touch_singleton
  | undefined span =>
      apply ofLeaf
      rw [Expression.pieces, touch_cons_of_isQuiet nears rfl, touch_cons_of_isQuiet nears rfl]
      exact not_touch_singleton
  | array items span =>
      rw [Expression.pieces, touch_listed nears style rfl rfl, touch_items nears]
      simp [Expression.Meets, Node.ofExpression]
  | object members span =>
      have ofMembers : (∃ item ∈ Member.allPieces style depth members,
            Touch first (.punctuator sign) item) ↔
          ∃ part ∈ members.map fun member => Node.expression member.value,
            Touch first (.punctuator sign) (part.pieces style depth) := touch_members nears members
      cases members with
      | nil =>
          apply ofLeaf
          rw [Expression.pieces, touch_cons_of_isQuiet nears rfl]
          exact not_touch_singleton
      | cons member members =>
          rw [Expression.pieces]
          · rw [touch_enclosed nears rfl rfl,
              touch_append_quiet nears (isQuiet_of_blank style.lexemes_gap),
              touch_quiet_append nears (isQuiet_of_blank style.lexemes_gap),
              touch_separated nears, ofMembers]
            simp [Expression.Meets, Node.ofExpression]
          · exact List.cons_ne_nil _ _
  | function definition =>
      simp [Expression.pieces, Expression.Meets, Node.ofExpression, Node.pieces]
  | group inner span =>
      rw [Expression.pieces, touch_groupedIf nears]
      simp [Expression.Meets, Node.ofExpression, Node.pieces]
  | property parent name span =>
      rw [Expression.pieces, touch_append_of_isQuiet nears rfl, touch_groupedIf nears,
        or_iff_left not_touch_singleton]
      simp [Expression.Meets, Node.ofExpression, Node.pieces]
  | index parent key span =>
      rw [Expression.pieces, touch_append_enclosed nears rfl rfl, Expression.touch_placed nears]
      simp [Expression.Meets, Node.ofExpression, Node.pieces]
  | call callee arguments span =>
      rw [Expression.pieces, Style.listed, touch_append_enclosed nears rfl rfl,
        Expression.touch_placed nears, touch_separated nears, touch_items nears]
      simp [Expression.Meets, Node.ofExpression, Node.pieces]
  | unary operator operand span =>
      rw [Expression.touch_unary nears]
      simp [Expression.Meets, Node.ofExpression, Node.pieces]
  | binary left operator right span =>
      rw [Expression.touch_binary nears]
      simp [Node.ofExpression, Node.pieces]
  | assign target value span =>
      rw [Expression.pieces, touch_assigned nears, Expression.touch_placed nears,
        Expression.touch_placed nears]
      simp [Expression.Meets, Node.ofExpression, Node.pieces]
  | _ => exact ofLeaf not_touch_singleton

/-- The semicolon of a statement touches nothing. -/
theorem touch_line (statement : Statement) :
    Touch first (.punctuator sign) (statement.pieces style depth ++ statement.terminator) ↔
      Touch first (.punctuator sign) (statement.pieces style depth) := by
  apply touch_append_quiet nears
  unfold Statement.terminator
  split
  · exact List.forall_mem_singleton.mpr rfl
  · simp

/-- In lines something touches if it does in one of the statements. -/
theorem touch_statementLines (items : List Statement) :
    (∃ line ∈ Statement.lines style depth items, Touch first (.punctuator sign) line) ↔
      ∃ part ∈ items.map Node.statement,
        Touch first (.punctuator sign) (part.pieces style depth) := by
  induction items with
  | nil => simp [Statement.lines]
  | cons item items step =>
      have ofLine : Touch first (.punctuator sign)
            (style.indentation depth ++ item.pieces style depth ++ item.terminator) ↔
          Touch first (.punctuator sign) (item.pieces style depth) := by
        rw [List.append_assoc,
          touch_quiet_append nears (isQuiet_of_blank (style.lexemes_indentation depth)),
          touch_line nears]
      simp only [Statement.lines, List.exists_mem_cons_iff, List.map_cons, step, ofLine,
        Node.pieces]

/-- In statements something touches if it does in one of them. -/
theorem touch_statements (items : List Statement) :
    Touch first (.punctuator sign)
        (style.lineBreak.intercalate (Statement.lines style depth items)) ↔
      ∃ part ∈ items.map Node.statement,
        Touch first (.punctuator sign) (part.pieces style depth) := by
  rw [touch_lines nears style (Statement.endsQuiet_lines style depth items),
    touch_statementLines nears]

/-- In a block something touches if it does in one of its statements. -/
theorem touch_block (block : Block) :
    Touch first (.punctuator sign) (block.pieces style depth) ↔
      ∃ part ∈ block.items.map Node.statement,
        Touch first (.punctuator sign) (part.pieces style (depth + 1)) := by
  cases block with
  | mk items span =>
      cases items with
      | nil =>
          rw [Block.pieces, touch_cons_of_isQuiet nears rfl]
          simp [not_touch_singleton]
      | cons item items =>
          rw [Block.pieces]
          · rw [touch_enclosed nears rfl rfl,
              touch_append_quiet nears (isQuiet_of_blank (style.lexemes_indentation depth)),
              touch_append_quiet nears (isQuiet_of_blank style.lexemes_lineBreak),
              touch_quiet_append nears (isQuiet_of_blank style.lexemes_lineBreak),
              touch_statements nears]
          · exact List.cons_ne_nil _ _

/-- In a function something touches if it does in its body. -/
theorem touch_function (definition : FunctionDef) :
    Touch first (.punctuator sign) (definition.pieces style depth) ↔
      Touch first (.punctuator sign) (definition.body.pieces style depth) := by
  cases definition with
  | mk name parameters body span =>
      have noParameter : ¬ Touch first (.punctuator sign)
          (style.listed .openParenthesis .closeParenthesis
            (parameters.map fun parameter => [token (.ofWord parameter)])) := by
        rw [touch_listed nears style rfl rfl]
        simp [not_touch_singleton]
      have ends : EndsQuiet (style.listed .openParenthesis .closeParenthesis
          (parameters.map fun parameter => [token (.ofWord parameter)])) :=
        endsQuiet_enclosed _ _ rfl
      have ofHead {head : List Piece} (quiet : ∀ piece ∈ head, piece.isQuiet = true) :
          Touch first (.punctuator sign) (head ++ (style.listed .openParenthesis .closeParenthesis
              (parameters.map fun parameter => [token (.ofWord parameter)]) ++
                (style.gap ++ body.pieces style depth))) ↔
            Touch first (.punctuator sign) (body.pieces style depth) := by
        rw [touch_quiet_append nears quiet, touch_append_of_endsQuiet nears ends,
          or_iff_right noParameter,
          touch_quiet_append nears (isQuiet_of_blank style.lexemes_gap)]
      cases name with
      | none =>
          rw [FunctionDef.pieces, List.append_assoc, List.append_assoc]
          exact ofHead (List.forall_mem_singleton.mpr rfl)
      | some name =>
          rw [FunctionDef.pieces, List.append_assoc, List.append_assoc]
          apply ofHead
          rw [List.forall_mem_cons, List.forall_mem_cons, List.forall_mem_singleton]
          exact ⟨rfl, rfl, Lexeme.isQuiet_ofWord name⟩

/-- In a branch something touches if it does in its block or statement. -/
theorem touch_branch (branch : Branch) :
    Touch first (.punctuator sign) (branch.pieces style depth) ↔
      Touch first (.punctuator sign) (branch.node.pieces style depth) := by
  cases branch with
  | braced block => rfl
  | single statement => exact touch_line nears statement

/-- In a second branch something touches if it does in the branch. -/
theorem touch_alternate (alternate : Option Branch) :
    Touch first (.punctuator sign) (Branch.alternatePieces style depth alternate) ↔
      ∃ part ∈ (alternate.map Branch.node).toList,
        Touch first (.punctuator sign) (part.pieces style depth) := by
  cases alternate with
  | none => simp [Branch.alternatePieces, touch_nil]
  | some branch =>
      have ofBranch : Touch first (.punctuator sign) (branch.pieces style depth) ↔
          Touch first (.punctuator sign) (branch.node.pieces style depth) :=
        touch_branch nears branch
      cases branch with
      | braced block =>
          rw [Branch.alternatePieces, List.append_assoc, List.append_assoc,
            touch_quiet_append nears (isQuiet_of_blank style.lexemes_gap), List.singleton_append,
            touch_cons_of_isQuiet nears rfl,
            touch_quiet_append nears (isQuiet_of_blank style.lexemes_gap)]
          simp [Branch.node, Node.pieces]
      | single statement =>
          rw [Branch.alternatePieces, List.append_assoc, List.append_assoc,
            touch_quiet_append nears (isQuiet_of_blank style.lexemes_gap), List.cons_append,
            touch_cons_of_isQuiet nears rfl, List.singleton_append,
            touch_cons_of_isQuiet nears rfl, touch_line nears]
          simp [Branch.node, Node.pieces]

/-- In a statement something touches if it does in one of its parts. -/
theorem touch_statement (statement : Statement) :
    Touch first (.punctuator sign) (statement.pieces style depth) ↔
      ∃ part ∈ Node.ofStatement statement,
        Touch first (.punctuator sign) (part.pieces style depth) := by
  cases statement with
  | expression value span =>
      rw [Statement.pieces, touch_groupedIf nears]
      simp [Node.ofStatement, Node.pieces]
  | declaration word items span =>
      rw [Statement.pieces, List.cons_append, touch_cons_of_isQuiet nears rfl,
        List.singleton_append, touch_cons_of_isQuiet nears rfl, touch_separated nears,
        touch_declarators nears]
      rfl
  | function definition => simp [Statement.pieces, Node.ofStatement, Node.pieces]
  | conditional condition consequent alternate span =>
      have quietHead : ∀ piece ∈ ofKeyword .ifKw :: style.gap, piece.isQuiet = true :=
        List.forall_mem_cons.mpr ⟨rfl, isQuiet_of_blank style.lexemes_gap⟩
      have ends : EndsQuiet (groupedIf true (condition.pieces style depth)) :=
        endsQuiet_enclosed _ _ rfl
      rw [Statement.pieces, List.append_assoc, List.append_assoc, List.append_assoc,
        touch_quiet_append nears quietHead,
        touch_append_of_endsQuiet nears ends, touch_groupedIf nears,
        touch_quiet_append nears (isQuiet_of_blank style.lexemes_gap),
        touch_append_of_endsQuiet nears (consequent.endsQuiet_pieces style depth),
        touch_branch nears, touch_alternate nears]
      simp [Node.ofStatement, Node.pieces]
  | returning value span =>
      cases value with
      | none => simp [Statement.pieces, Node.ofStatement, not_touch_singleton]
      | some value =>
          rw [Statement.pieces, List.cons_append, touch_cons_of_isQuiet nears rfl,
            List.singleton_append, touch_cons_of_isQuiet nears rfl]
          simp [Node.ofStatement, Node.pieces]
  | block inner => simp [Statement.pieces, Node.ofStatement, Node.pieces]
  | empty span => simp [Statement.pieces, Node.ofStatement, not_touch_singleton]

end Piece

namespace Node

/-- How deep inside blocks the nodes directly below the node are printed. -/
def innerDepth (depth : UInt8) : Node → UInt8
  | block _ => depth + 1
  | _ => depth

/-- Two tokens touch each other in a node if they do so at its own operator or in a node directly
below it. -/
theorem touch_iff_parts {sign : Punctuator} {first : Lexeme} (nears : first.Nears sign)
    {style : Style} {depth : UInt8} (whole : Node) :
    Piece.Touch first (.punctuator sign) (whole.pieces style depth) ↔
      (style.pretty = false ∧ whole.Meets first sign) ∨
        ∃ part ∈ whole.parts,
          Piece.Touch first (.punctuator sign) (part.pieces style (whole.innerDepth depth)) := by
  have ofParts {below : Prop} : below ↔ (style.pretty = false ∧ False) ∨ below := by simp
  cases whole with
  | expression part => exact Piece.touch_expression nears part
  | statement part => exact (Piece.touch_statement nears part).trans ofParts
  | script whole => exact (Piece.touch_statements nears whole.items).trans ofParts
  | block part => exact (Piece.touch_block nears part).trans ofParts
  | branch part =>
      simp only [parts, List.mem_singleton, exists_eq_left]
      exact (Piece.touch_branch nears part).trans ofParts
  | function definition =>
      simp only [parts, List.mem_singleton, exists_eq_left]
      exact (Piece.touch_function nears definition).trans ofParts

/-- Two tokens touch each other in a printed tree if they do so at one of its operators. -/
theorem touch_iff {sign : Punctuator} {first : Lexeme} (nears : first.Nears sign) (style : Style)
    (depth : UInt8) (node : Node) :
    Piece.Touch first (.punctuator sign) (node.pieces style depth) ↔
      style.pretty = false ∧
        ∃ inner : Node, (inner = node ∨ inner.IsBelow node) ∧ inner.Meets first sign := by
  induction node using Node.induction generalizing depth with
  | step whole step =>
      have ofParts : (∃ part ∈ whole.parts, Piece.Touch first (.punctuator sign)
            (part.pieces style (whole.innerDepth depth))) ↔
          ∃ part ∈ whole.parts, style.pretty = false ∧
            ∃ inner : Node, (inner = part ∨ inner.IsBelow part) ∧ inner.Meets first sign :=
        exists_congr fun part => and_congr_right fun isPart => step part isPart _
      rw [touch_iff_parts nears, ofParts, exists_below_iff]
      simp only [and_or_left, and_left_comm, exists_and_left]

end Node

end ScriptStrip
