/-
This file defines the byte ranges that tie tokens and tree nodes to a source text.
-/

namespace ScriptStrip

/-- A half-open range of byte offsets into a source text. -/
structure Span where
  start : Nat
  stop : Nat
deriving DecidableEq, Repr, Inhabited

namespace Span

/-- This span marks a node that no source text stands behind. -/
def null : Span := ⟨0, 0⟩

/-- Offsets are kept in 32 bits, so they wrap around in a text of 4 GiB or more. -/
def ofOffsets (start stop : Nat) : Span := ⟨start % 0x100000000, stop % 0x100000000⟩

/-- The least range that covers both spans. -/
def union (left right : Span) : Span := ⟨min left.start right.start, max left.stop right.stop⟩

/-- The number of bytes in the range, which is zero for a reversed one. -/
def size (span : Span) : Nat := span.stop - span.start

/-- Offsets below the limit of 32 bits are kept as they are. -/
theorem ofOffsets_of_lt {start stop : Nat} (startSmall : start < 0x100000000)
    (stopSmall : stop < 0x100000000) : ofOffsets start stop = ⟨start, stop⟩ := by
  rw [ofOffsets, Nat.mod_eq_of_lt startSmall, Nat.mod_eq_of_lt stopSmall]

end Span

end ScriptStrip
