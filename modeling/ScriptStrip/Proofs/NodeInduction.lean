import Mathlib
import ScriptStrip.Tree.Parts
/-
This file proves statements of all nodes from what they say of the nodes directly below a node.
-/

namespace ScriptStrip.Node

/-- No expression of a list is larger than the list. -/
theorem sizeOf_expressions {part : Node} {items : List Expression}
    (isPart : part ∈ items.map expression) : sizeOf part ≤ sizeOf items := by
  obtain ⟨item, inside, rfl⟩ := List.mem_map.mp isPart
  have smaller := List.sizeOf_lt_of_mem inside
  rw [expression.sizeOf_spec]
  omega

/-- No statement of a list is larger than the list. -/
theorem sizeOf_statements {part : Node} {items : List Statement}
    (isPart : part ∈ items.map statement) : sizeOf part ≤ sizeOf items := by
  obtain ⟨item, inside, rfl⟩ := List.mem_map.mp isPart
  have smaller := List.sizeOf_lt_of_mem inside
  rw [statement.sizeOf_spec]
  omega

/-- The node of a branch is no larger than the branch. -/
theorem sizeOf_node (branch : Branch) : sizeOf branch.node ≤ sizeOf branch := by
  cases branch <;> simp [Branch.node]

/-- A part that an expression stands for is no larger than the expression. -/
theorem sizeOf_ofExpression {part : Node} {whole : Expression}
    (isPart : part ∈ ofExpression whole) : sizeOf part ≤ sizeOf whole := by
  cases whole with
  | array items span =>
      have smaller := sizeOf_expressions isPart
      simp only [Expression.array.sizeOf_spec]
      omega
  | object members span =>
      obtain ⟨⟨key, value, _⟩, inside, rfl⟩ := List.mem_map.mp isPart
      have smaller := List.sizeOf_lt_of_mem inside
      simp only [Member.mk.sizeOf_spec, expression.sizeOf_spec,
        Expression.object.sizeOf_spec] at smaller ⊢
      omega
  | call callee arguments span =>
      rcases List.mem_cons.mp isPart with rfl | inside
      · simp only [expression.sizeOf_spec, Expression.call.sizeOf_spec]
        omega
      · have smaller := sizeOf_expressions inside
        simp only [Expression.call.sizeOf_spec]
        omega
  | function | group =>
      obtain rfl := List.mem_singleton.mp isPart
      simp
  | property | unary =>
      obtain rfl := List.mem_singleton.mp isPart
      simp
      omega
  | index | binary | assign =>
      rcases List.mem_pair.mp isPart with rfl | rfl
      · simp
        omega
      · simp
        omega
  | _ => cases isPart

/-- A part that a statement stands for is no larger than the statement. -/
theorem sizeOf_ofStatement {part : Node} {whole : Statement}
    (isPart : part ∈ ofStatement whole) : sizeOf part ≤ sizeOf whole := by
  cases whole with
  | declaration word items span =>
      obtain ⟨value, inside, rfl⟩ := List.mem_map.mp isPart
      obtain ⟨⟨name, _, _⟩, inside, rfl⟩ := List.mem_filterMap.mp inside
      have smaller := List.sizeOf_lt_of_mem inside
      simp at smaller ⊢
      omega
  | conditional condition consequent alternate span =>
      rcases List.mem_cons.mp isPart with rfl | inside
      · simp
        omega
      rcases List.mem_cons.mp inside with rfl | inside
      · have smaller := sizeOf_node consequent
        simp
        omega
      · cases alternate with
        | none => cases inside
        | some branch =>
            obtain rfl := List.mem_singleton.mp inside
            have smaller := sizeOf_node branch
            simp
            omega
  | returning value span =>
      cases value with
      | none => cases isPart
      | some value =>
          obtain rfl := List.mem_singleton.mp isPart
          simp
          omega
  | empty span => cases isPart
  | _ =>
      obtain rfl := List.mem_singleton.mp isPart
      simp

/-- Every part of a node is smaller than the node, so induction over parts ends. -/
theorem sizeOf_parts {part whole : Node} (isPart : part ∈ whole.parts) :
    sizeOf part < sizeOf whole := by
  cases whole with
  | expression whole =>
      have smaller := sizeOf_ofExpression isPart
      rw [expression.sizeOf_spec]
      omega
  | statement whole =>
      have smaller := sizeOf_ofStatement isPart
      rw [statement.sizeOf_spec]
      omega
  | script whole =>
      have smaller := sizeOf_statements isPart
      cases whole
      simp at smaller ⊢
      omega
  | block whole =>
      have smaller := sizeOf_statements isPart
      cases whole
      simp at smaller ⊢
      omega
  | branch whole =>
      obtain rfl := List.mem_singleton.mp isPart
      have smaller := sizeOf_node whole
      rw [branch.sizeOf_spec]
      omega
  | function whole =>
      obtain rfl := List.mem_singleton.mp isPart
      cases whole
      simp
      omega

/-- What holds of a node if it holds of the parts of the node holds of every node. -/
theorem induction {holds : Node → Prop}
    (step : ∀ whole : Node, (∀ part ∈ whole.parts, holds part) → holds whole) (node : Node) :
    holds node :=
  step node fun part isPart =>
    have _smaller := sizeOf_parts isPart
    induction step part
termination_by sizeOf node

/-- Whatever is found in a tree is found at its root or in the tree of one part. -/
theorem exists_below_iff {holds : Node → Prop} {whole : Node} :
    (∃ inner : Node, (inner = whole ∨ inner.IsBelow whole) ∧ holds inner) ↔
      holds whole ∨ ∃ part ∈ whole.parts, ∃ inner : Node,
        (inner = part ∨ inner.IsBelow part) ∧ holds inner := by
  constructor
  · rintro ⟨inner, rfl | below, isHolding⟩
    · exact .inl isHolding
    · right
      cases below with
      | part isPart => exact ⟨inner, isPart, inner, .inl rfl, isHolding⟩
      | deeper below isPart => exact ⟨_, isPart, inner, .inr below, isHolding⟩
  · rintro (isHolding | ⟨part, isPart, inner, rfl | below, isHolding⟩)
    · exact ⟨whole, .inl rfl, isHolding⟩
    · exact ⟨inner, .inr (.part isPart), isHolding⟩
    · exact ⟨inner, .inr (.deeper below isPart), isHolding⟩

end ScriptStrip.Node
