import Mathlib.Algebra.Group.Basic
import ScriptStrip.Rewrite.Report
/-
This file counts what a pass does beside the values that it computes. No report is needed to say
how often a pass acts, so the counts are added up on their own.
-/

namespace ScriptStrip

namespace Statistics

instance : Add Statistics where
  add first second :=
    ⟨first.removed + second.removed, first.folded + second.folded,
      first.replaced + second.replaced⟩

instance : Zero Statistics := ⟨{}⟩

/-- Statistics are equal if all their counters are. -/
@[ext] theorem ext {first second : Statistics} (removed : first.removed = second.removed)
    (folded : first.folded = second.folded) (replaced : first.replaced = second.replaced) :
    first = second := by
  cases first
  cases second
  simp_all

@[simp] theorem removed_add (first second : Statistics) :
    (first + second).removed = first.removed + second.removed := rfl

@[simp] theorem folded_add (first second : Statistics) :
    (first + second).folded = first.folded + second.folded := rfl

@[simp] theorem replaced_add (first second : Statistics) :
    (first + second).replaced = first.replaced + second.replaced := rfl

@[simp] theorem removed_zero : (0 : Statistics).removed = 0 := rfl

@[simp] theorem folded_zero : (0 : Statistics).folded = 0 := rfl

@[simp] theorem replaced_zero : (0 : Statistics).replaced = 0 := rfl

instance : AddCommMonoid Statistics where
  add_assoc first second third := by ext <;> simp [Nat.add_assoc]
  zero_add statistics := by ext <;> simp
  add_zero statistics := by ext <;> simp
  add_comm first second := by ext <;> simp [Nat.add_comm]
  nsmul := nsmulRec

/-- Two passes did nothing together only if neither did anything. -/
theorem add_eq_zero_iff {first second : Statistics} :
    first + second = 0 ↔ first = 0 ∧ second = 0 := by
  simp only [Statistics.ext_iff, removed_add, folded_add, replaced_add, removed_zero,
    folded_zero, replaced_zero]
  omega

@[simp] theorem total_zero : (0 : Statistics).total = 0 := rfl

/-- The total of a sum is the sum of the totals. -/
@[simp] theorem total_add (first second : Statistics) :
    (first + second).total = first.total + second.total := by
  simp only [total, removed_add, folded_add, replaced_add]
  omega

/-- Nothing is counted in total only if no counter has counted. -/
theorem total_eq_zero_iff {statistics : Statistics} : statistics.total = 0 ↔ statistics = 0 := by
  rw [Statistics.ext_iff, total, removed_zero, folded_zero, replaced_zero]
  omega

end Statistics

/-- A value with the counts of what was done to come by it. -/
structure Counted (Value : Type) where
  value : Value
  counts : Statistics

namespace Counted

variable {Value Result : Type}

instance : Monad Counted where
  pure value := ⟨value, 0⟩
  bind counted next :=
    ⟨(next counted.value).value, counted.counts + (next counted.value).counts⟩

/-- Counted values are equal if the values and the counts are. -/
@[ext] theorem ext {first second : Counted Value} (value : first.value = second.value)
    (counts : first.counts = second.counts) : first = second := by
  cases first
  cases second
  simp_all

@[simp] theorem value_pure (value : Value) : (pure value : Counted Value).value = value := rfl

@[simp] theorem counts_pure (value : Value) : (pure value : Counted Value).counts = 0 := rfl

/-- Counts do not change which value comes out. -/
@[simp] theorem value_bind (counted : Counted Value) (next : Value → Counted Result) :
    (counted >>= next).value = (next counted.value).value := rfl

/-- The counts of two steps are added. -/
@[simp] theorem counts_bind (counted : Counted Value) (next : Value → Counted Result) :
    (counted >>= next).counts = counted.counts + (next counted.value).counts := rfl

/-- A function acts on the value. -/
@[simp] theorem value_map (function : Value → Result) (counted : Counted Value) :
    (function <$> counted).value = function counted.value := rfl

/-- A function on the value counts nothing. -/
@[simp] theorem counts_map (function : Value → Result) (counted : Counted Value) :
    (function <$> counted).counts = counted.counts := add_zero _

instance : LawfulMonad Counted := LawfulMonad.mk' Counted
  (fun _ => Counted.ext rfl (counts_map _ _))
  (fun _ _ => Counted.ext rfl (zero_add _))
  (fun _ _ _ => Counted.ext rfl (add_assoc _ _ _))

/-- Something is done once and leaves no value behind. -/
def doing (counts : Statistics) : Counted Unit := ⟨(), counts⟩

/-- This step counts what it is told to. -/
@[simp] theorem counts_doing (counts : Statistics) : (doing counts).counts = counts := rfl

end Counted

end ScriptStrip
