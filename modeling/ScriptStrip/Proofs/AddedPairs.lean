import ScriptStrip.Tree.Print
/-
This file keeps account of the parentheses that printing adds. A draft is printed text together
with every pair of parentheses in it that the tree does not have.
-/

namespace ScriptStrip

namespace Piece

/-- A pair of parentheses in printed text, and what stands before, inside and behind it. -/
structure Pair where
  before : List Piece
  inner : List Piece
  after : List Piece

namespace Pair

/-- This is the text with the pair. -/
def whole (pair : Pair) : List Piece :=
  pair.before ++ (enclosed .openParenthesis .closeParenthesis pair.inner ++ pair.after)

/-- The text with that pair alone taken out. -/
def thinned (pair : Pair) : List Piece := pair.before ++ (pair.inner ++ pair.after)

/-- The same pair in a longer text. -/
def within (before after : List Piece) (pair : Pair) : Pair :=
  ⟨before ++ pair.before, pair.inner, pair.after ++ after⟩

@[simp] theorem whole_within (before after : List Piece) (pair : Pair) :
    (pair.within before after).whole = before ++ (pair.whole ++ after) := by
  simp [within, whole]

@[simp] theorem thinned_within (before after : List Piece) (pair : Pair) :
    (pair.within before after).thinned = before ++ (pair.thinned ++ after) := by
  simp [within, thinned]

/-- A pair does not stand behind the end of the text. -/
theorem before_lt_whole (pair : Pair) : pair.before.length < pair.whole.length := by
  simp only [whole, enclosed, List.length_append, List.length_cons]
  omega

end Pair

/-- Printed text and the pairs of parentheses that have been added to it, none of them twice. -/
structure Draft where
  pieces : List Piece
  added : List Pair
  whole_added : ∀ pair ∈ added, pair.whole = pieces
  ordered : added.Pairwise fun first second => first.before.length < second.before.length

namespace Draft

/-- Nothing is added to these pieces. -/
def plain (pieces : List Piece) : Draft := ⟨pieces, [], by simp, .nil⟩

/-- The pairs of joined drafts keep their order, each within the whole text. -/
def append (first second : Draft) : Draft where
  pieces := first.pieces ++ second.pieces
  added := first.added.map (Pair.within [] second.pieces) ++
    second.added.map (Pair.within first.pieces [])
  whole_added := by
    simp only [List.mem_append, List.mem_map]
    rintro _ (⟨pair, isAdded, rfl⟩ | ⟨pair, isAdded, rfl⟩)
    · simp [first.whole_added pair isAdded]
    · simp [second.whole_added pair isAdded]
  ordered := by
    rw [List.pairwise_append, List.pairwise_map, List.pairwise_map]
    refine ⟨by simpa [Pair.within] using first.ordered,
      by simpa [Pair.within] using second.ordered, ?_⟩
    simp only [List.mem_map]
    rintro _ ⟨pair, isAdded, rfl⟩ _ ⟨other, _, rfl⟩
    rw [← first.whole_added pair isAdded]
    exact Nat.lt_of_lt_of_le pair.before_lt_whole (by simp [Pair.within])

instance : Append Draft := ⟨append⟩

/-- Items with a separator between them. -/
def separated (separator : List Piece) : List Draft → Draft
  | [] => plain []
  | [last] => last
  | first :: rest => first ++ (plain separator ++ separated separator rest)

/-- These marks are no pair that is added. -/
def enclosed (opening closing : Punctuator) (inner : Draft) : Draft :=
  plain [ofMark opening] ++ (inner ++ plain [ofMark closing])

/-- Parentheses that are added where the condition asks for them. -/
def groupedIf (condition : Bool) (inner : Draft) : Draft :=
  if condition then {
    pieces := Piece.enclosed .openParenthesis .closeParenthesis inner.pieces
    added := ⟨[], inner.pieces, []⟩ :: (enclosed .openParenthesis .closeParenthesis inner).added
    whole_added := by
      rw [List.forall_mem_cons]
      exact ⟨by simp [Pair.whole], (enclosed _ _ inner).whole_added⟩
    ordered := by
      refine .cons ?_ (enclosed _ _ inner).ordered
      intro pair isAdded
      rcases List.mem_append.mp isAdded with isPlain | isInside
      · cases isPlain
      · obtain ⟨other, _, rfl⟩ := List.mem_map.mp isInside
        exact Nat.succ_pos _ }
  else inner

variable {first second : Draft} {pair : Pair}

@[simp] theorem pieces_plain (pieces : List Piece) : (plain pieces).pieces = pieces := rfl

@[simp] theorem added_plain (pieces : List Piece) : (plain pieces).added = [] := rfl

@[simp] theorem pieces_append : (first ++ second).pieces = first.pieces ++ second.pieces := rfl

/-- A pair of joined drafts is one of the first or of the second. -/
theorem mem_added_append : pair ∈ (first ++ second).added ↔
    (∃ other ∈ first.added, other.within [] second.pieces = pair) ∨
      ∃ other ∈ second.added, other.within first.pieces [] = pair := by
  show pair ∈ (first.append second).added ↔ _
  simp [append]

@[simp] theorem pieces_enclosed (opening closing : Punctuator) (inner : Draft) :
    (enclosed opening closing inner).pieces = Piece.enclosed opening closing inner.pieces := rfl

@[simp] theorem pieces_groupedIf (condition : Bool) (inner : Draft) :
    (inner.groupedIf condition).pieces = Piece.groupedIf condition inner.pieces := by
  cases condition <;> rfl

@[simp] theorem pieces_separated (separator : List Piece) (drafts : List Draft) :
    (separated separator drafts).pieces = separator.intercalate (drafts.map pieces) := by
  fun_induction separated separator drafts with
  | case1 => rfl
  | case2 last => simp
  | case3 first rest other step =>
      cases rest with
      | nil => cases other rfl
      | cons second rest => simp [step]

end Draft

end Piece

open Piece

/-- A part is put in parentheses where it binds less tightly than its place asks. -/
def Expression.draftPlaced (expression : Expression) (minimum : Precedence) (draft : Draft) :
    Draft :=
  draft.groupedIf (expression.precedence < minimum)

mutual

/-- The expression is printed and every pair that is added is noted. -/
def Expression.draft (style : Style) (depth : UInt8) : Expression → Draft
  | .array items _ =>
      .enclosed .openBracket .closeBracket
        (.separated style.comma (Expression.itemDrafts style depth items))
  | .object [] _ => .plain [.ofMark .openBrace, .ofMark .closeBrace]
  | .object members _ =>
      .enclosed .openBrace .closeBrace (.plain style.gap ++
        (.separated style.comma (Member.allDrafts style depth members) ++ .plain style.gap))
  | .function definition => definition.draft style depth
  | .group inner _ => .enclosed .openParenthesis .closeParenthesis (inner.draft style depth)
  | .property parent name _ =>
      (parent.draft style depth).groupedIf
          (parent.isBareInteger || parent.precedence < Precedence.member) ++
        .plain [.ofMark .dot, .token (.ofWord name)]
  | .index parent key _ =>
      parent.draftPlaced .member (parent.draft style depth) ++
        .enclosed .openBracket .closeBracket (key.draft style depth)
  | .call callee arguments _ =>
      callee.draftPlaced .member (callee.draft style depth) ++
        .enclosed .openParenthesis .closeParenthesis
          (.separated style.comma (Expression.itemDrafts style depth arguments))
  | .unary operator operand _ =>
      .plain (.token operator.lexeme ::
          if operator.isWord || operand.hasSign operator then [.space] else []) ++
        operand.draftPlaced .unary (operand.draft style depth)
  | .binary left operator right _ =>
      left.draftPlaced operator.precedence (left.draft style depth) ++
        (.plain (style.gap ++ .token operator.lexeme ::
            if style.pretty || right.isSigned then [.space] else []) ++
          right.draftPlaced (operator.precedence + 1) (right.draft style depth))
  | .assign target value _ =>
      target.draftPlaced .member (target.draft style depth) ++
        (.plain (style.gap ++ .ofMark .assign :: style.gap) ++
          value.draftPlaced .assignment (value.draft style depth))
  | expression => .plain (expression.pieces style depth)

/-- Each item of a list has a draft of its own. -/
def Expression.itemDrafts (style : Style) (depth : UInt8) : List Expression → List Draft
  | [] => []
  | first :: rest =>
      first.draftPlaced .assignment (first.draft style depth) ::
        Expression.itemDrafts style depth rest

/-- A member adds the pairs that its value needs. -/
def Member.draft (style : Style) (depth : UInt8) : Member → Draft
  | ⟨key, value, _⟩ =>
      .plain (key.piece :: .ofMark .colon :: style.gap) ++
        value.draftPlaced .assignment (value.draft style depth)

/-- Each member of an object has a draft of its own. -/
def Member.allDrafts (style : Style) (depth : UInt8) : List Member → List Draft
  | [] => []
  | first :: rest => first.draft style depth :: Member.allDrafts style depth rest

/-- A function adds the pairs of its body. -/
def FunctionDef.draft (style : Style) (depth : UInt8) : FunctionDef → Draft
  | ⟨name, parameters, body, _⟩ =>
      .plain (.ofKeyword .functionKw ::
          (match name with
            | some name => [.space, .token (.ofWord name)]
            | none => []) ++
          style.listed .openParenthesis .closeParenthesis
            (parameters.map fun parameter => [.token (.ofWord parameter)]) ++
          style.gap) ++
        body.draft style depth

/-- A block adds the pairs of its statements. -/
def Block.draft (style : Style) (depth : UInt8) : Block → Draft
  | ⟨[], _⟩ => .plain [.ofMark .openBrace, .ofMark .closeBrace]
  | ⟨items, _⟩ =>
      .enclosed .openBrace .closeBrace (.plain style.lineBreak ++
        (.separated style.lineBreak (Statement.lineDrafts style (depth + 1) items) ++
          .plain (style.lineBreak ++ style.indentation depth)))

/-- A statement adds the pairs of its parts, and one around an expression that opens like another
statement. -/
def Statement.draft (style : Style) (depth : UInt8) : Statement → Draft
  | .expression value _ => (value.draft style depth).groupedIf value.isAmbiguousAtStart
  | .declaration word items _ =>
      .plain [.ofKeyword word.keyword, .space] ++
        .separated style.comma (Declarator.allDrafts style depth items)
  | .function definition => definition.draft style depth
  | .conditional condition consequent alternate _ =>
      .plain (.ofKeyword .ifKw :: style.gap) ++
        (.enclosed .openParenthesis .closeParenthesis (condition.draft style depth) ++
          (.plain style.gap ++ (consequent.draft style depth ++
            Branch.alternateDraft style depth alternate)))
  | .returning (some value) _ =>
      .plain [.ofKeyword .returnKw, .space] ++ value.draft style depth
  | .block inner => inner.draft style depth
  | statement => .plain (statement.pieces style depth)

/-- Each line is a statement with its indentation and its semicolon. -/
def Statement.lineDrafts (style : Style) (depth : UInt8) : List Statement → List Draft
  | [] => []
  | first :: rest =>
      (.plain (style.indentation depth) ++
        (first.draft style depth ++ .plain first.terminator)) ::
        Statement.lineDrafts style depth rest

/-- A declared name adds the pairs that its initial value needs. -/
def Declarator.draft (style : Style) (depth : UInt8) : Declarator → Draft
  | ⟨name, none, _⟩ => .plain [.token (.ofWord name)]
  | ⟨name, some value, _⟩ =>
      .plain (.token (.ofWord name) :: style.gap ++ .ofMark .assign :: style.gap) ++
        value.draftPlaced .assignment (value.draft style depth)

/-- Each declared name has a draft of its own. -/
def Declarator.allDrafts (style : Style) (depth : UInt8) : List Declarator → List Draft
  | [] => []
  | first :: rest => first.draft style depth :: Declarator.allDrafts style depth rest

/-- A branch adds the pairs of its block or statement. -/
def Branch.draft (style : Style) (depth : UInt8) : Branch → Draft
  | .braced block => block.draft style depth
  | .single statement => statement.draft style depth ++ .plain statement.terminator

/-- A second branch adds the pairs of what follows its keyword. -/
def Branch.alternateDraft (style : Style) (depth : UInt8) : Option Branch → Draft
  | none => .plain []
  | some (.braced block) =>
      .plain (style.gap ++ .ofKeyword .elseKw :: style.gap) ++ block.draft style depth
  | some (.single statement) =>
      .plain (style.gap ++ [.ofKeyword .elseKw, .space]) ++
        (statement.draft style depth ++ .plain statement.terminator)

end

@[simp] theorem Expression.pieces_draftPlaced (expression : Expression) (minimum : Precedence)
    (draft : Draft) :
    (expression.draftPlaced minimum draft).pieces = expression.placed minimum draft.pieces :=
  Draft.pieces_groupedIf _ draft

section

variable (style : Style)

mutual

/-- The draft of an expression has the text that is printed. -/
theorem Expression.pieces_draft (depth : UInt8) (expression : Expression) :
    (expression.draft style depth).pieces = expression.pieces style depth := by
  cases expression with
  | array items span =>
      simp [Expression.draft, Expression.pieces, Style.listed,
        Expression.pieces_itemDrafts depth items]
  | object members span =>
      cases members with
      | nil => simp [Expression.draft, Expression.pieces]
      | cons first rest =>
          rw [Expression.draft, Expression.pieces]
          · simp [Member.pieces_allDrafts depth (first :: rest)]
          · exact List.cons_ne_nil _ _
          · exact List.cons_ne_nil _ _
  | function definition =>
      simp [Expression.draft, Expression.pieces, FunctionDef.pieces_draft depth definition]
  | group inner span =>
      simp [Expression.draft, Expression.pieces, Expression.pieces_draft depth inner,
        Piece.groupedIf]
  | property parent name span =>
      simp [Expression.draft, Expression.pieces, Expression.pieces_draft depth parent]
  | index parent key span =>
      simp [Expression.draft, Expression.pieces, Expression.pieces_draft depth parent,
        Expression.pieces_draft depth key]
  | call callee arguments span =>
      simp [Expression.draft, Expression.pieces, Style.listed, Expression.pieces_draft depth callee,
        Expression.pieces_itemDrafts depth arguments]
  | unary operator operand span =>
      simp [Expression.draft, Expression.pieces, Expression.pieces_draft depth operand]
  | binary left operator right span =>
      simp [Expression.draft, Expression.pieces, Expression.pieces_draft depth left,
        Expression.pieces_draft depth right]
  | assign target value span =>
      simp [Expression.draft, Expression.pieces, Expression.pieces_draft depth target,
        Expression.pieces_draft depth value]
  | _ => rfl

/-- The drafts of items have the printed pieces. -/
theorem Expression.pieces_itemDrafts (depth : UInt8) (items : List Expression) :
    (Expression.itemDrafts style depth items).map Draft.pieces =
      Expression.itemPieces style depth items := by
  cases items with
  | nil => rfl
  | cons first rest =>
      simp [Expression.itemDrafts, Expression.itemPieces, Expression.pieces_draft depth first,
        Expression.pieces_itemDrafts depth rest]

/-- The drafts of members have the printed pieces. -/
theorem Member.pieces_allDrafts (depth : UInt8) (members : List Member) :
    (Member.allDrafts style depth members).map Draft.pieces =
      Member.allPieces style depth members := by
  cases members with
  | nil => rfl
  | cons first rest =>
      cases first with
      | mk key value span =>
          simp [Member.allDrafts, Member.allPieces, Member.draft, Member.pieces,
            Expression.pieces_draft depth value, Member.pieces_allDrafts depth rest]

/-- The draft of a function has the printed pieces. -/
theorem FunctionDef.pieces_draft (depth : UInt8) (definition : FunctionDef) :
    (definition.draft style depth).pieces = definition.pieces style depth := by
  cases definition with
  | mk name parameters body span =>
      cases name <;> simp [FunctionDef.draft, FunctionDef.pieces, Block.pieces_draft depth body]

/-- The draft of a block has the printed pieces. -/
theorem Block.pieces_draft (depth : UInt8) (block : Block) :
    (block.draft style depth).pieces = block.pieces style depth := by
  cases block with
  | mk items span =>
      cases items with
      | nil => simp [Block.draft, Block.pieces]
      | cons first rest =>
          rw [Block.draft, Block.pieces]
          · simp [Statement.pieces_lineDrafts (depth + 1) (first :: rest)]
          · exact List.cons_ne_nil _ _
          · exact List.cons_ne_nil _ _

/-- The draft of a statement has the printed pieces. -/
theorem Statement.pieces_draft (depth : UInt8) (statement : Statement) :
    (statement.draft style depth).pieces = statement.pieces style depth := by
  cases statement with
  | expression value span =>
      simp [Statement.draft, Statement.pieces, Expression.pieces_draft depth value]
  | declaration word items span =>
      simp [Statement.draft, Statement.pieces, Declarator.pieces_allDrafts depth items]
  | function definition =>
      simp [Statement.draft, Statement.pieces, FunctionDef.pieces_draft depth definition]
  | conditional condition consequent alternate span =>
      simp [Statement.draft, Statement.pieces, Expression.pieces_draft depth condition,
        Branch.pieces_draft depth consequent, Branch.pieces_alternateDraft depth alternate,
        Piece.groupedIf]
  | returning value span =>
      cases value with
      | none => rfl
      | some value =>
          simp [Statement.draft, Statement.pieces, Expression.pieces_draft depth value]
  | block inner => simp [Statement.draft, Statement.pieces, Block.pieces_draft depth inner]
  | empty span => rfl

/-- The drafts of lines have the printed pieces. -/
theorem Statement.pieces_lineDrafts (depth : UInt8) (items : List Statement) :
    (Statement.lineDrafts style depth items).map Draft.pieces =
      Statement.lines style depth items := by
  cases items with
  | nil => rfl
  | cons first rest =>
      simp [Statement.lineDrafts, Statement.lines, Statement.pieces_draft depth first,
        Statement.pieces_lineDrafts depth rest]

/-- The drafts of declared names have the printed pieces. -/
theorem Declarator.pieces_allDrafts (depth : UInt8) (items : List Declarator) :
    (Declarator.allDrafts style depth items).map Draft.pieces =
      Declarator.allPieces style depth items := by
  cases items with
  | nil => rfl
  | cons first rest =>
      cases first with
      | mk name value span =>
          cases value with
          | none =>
              simp [Declarator.allDrafts, Declarator.allPieces, Declarator.draft,
                Declarator.pieces, Declarator.pieces_allDrafts depth rest]
          | some value =>
              simp [Declarator.allDrafts, Declarator.allPieces, Declarator.draft,
                Declarator.pieces, Expression.pieces_draft depth value,
                Declarator.pieces_allDrafts depth rest]

/-- The draft of a branch has the printed pieces. -/
theorem Branch.pieces_draft (depth : UInt8) (branch : Branch) :
    (branch.draft style depth).pieces = branch.pieces style depth := by
  cases branch with
  | braced block => simp [Branch.draft, Branch.pieces, Block.pieces_draft depth block]
  | single statement =>
      simp [Branch.draft, Branch.pieces, Statement.pieces_draft depth statement]

/-- The draft of a second branch has the printed pieces. -/
theorem Branch.pieces_alternateDraft (depth : UInt8) (branch : Option Branch) :
    (Branch.alternateDraft style depth branch).pieces =
      Branch.alternatePieces style depth branch := by
  cases branch with
  | none => rfl
  | some branch =>
      cases branch with
      | braced block =>
          simp [Branch.alternateDraft, Branch.alternatePieces, Block.pieces_draft depth block]
      | single statement =>
          simp [Branch.alternateDraft, Branch.alternatePieces,
            Statement.pieces_draft depth statement]

end

end

end ScriptStrip
