import ScriptStrip.Span
import ScriptStrip.Text.Bytes
/-
This file takes parts out of texts by byte offsets. An offset inside a character is no place to
cut a text.
-/

namespace ScriptStrip.Text

/-- The characters in the first bytes of a text, and the rest. There are none if the text is too
short or if a character lies across the end of the bytes. -/
def splitBytes? : Nat → List Char → Option (List Char × List Char)
  | 0, source => some ([], source)
  | _ + 1, [] => none
  | size + 1, character :: rest =>
      if character.utf8Size ≤ size + 1 then
        (splitBytes? (size + 1 - character.utf8Size) rest).map fun (inside, after) =>
          (character :: inside, after)
      else none

/-- The size of a front cuts just this front off. -/
theorem splitBytes?_append (inside after : List Char) :
    splitBytes? (byteCount inside) (inside ++ after) = some (inside, after) := by
  induction inside with
  | nil => simp [splitBytes?]
  | cons character rest inductionHypothesis =>
      have positive := character.utf8Size_pos
      obtain ⟨size, same⟩ :=
        Nat.exists_eq_succ_of_ne_zero (Nat.ne_of_gt (Nat.add_pos_left positive (byteCount rest)))
      rw [byteCount_cons, same, List.cons_append, splitBytes?, if_pos (by omega)]
      have shorter : size + 1 - character.utf8Size = byteCount rest := by omega
      rw [shorter, inductionHypothesis]
      rfl

/-- Cutting succeeds exactly at the borders of characters. -/
theorem splitBytes?_eq_some_iff {size : Nat} {source inside after : List Char} :
    splitBytes? size source = some (inside, after) ↔
      source = inside ++ after ∧ size = byteCount inside := by
  constructor
  · intro found
    fun_induction splitBytes? size source generalizing inside with
    | case1 source =>
        obtain ⟨rfl, rfl⟩ := Prod.mk.inj (Option.some.inj found)
        exact ⟨rfl, rfl⟩
    | case2 => cases found
    | case3 size character rest fits inductionHypothesis =>
        obtain ⟨⟨inner, behind⟩, foundRest, same⟩ := Option.map_eq_some_iff.mp found
        obtain ⟨rfl, rfl⟩ := Prod.mk.inj same
        obtain ⟨rfl, isSize⟩ := inductionHypothesis foundRest
        refine ⟨rfl, ?_⟩
        rw [byteCount_cons]
        omega
    | case4 => cases found
  · rintro ⟨rfl, rfl⟩
    exact splitBytes?_append inside after

/-- The part of a text in a range of its bytes. Both ends of the range have to lie between two
characters or at an end of the text. -/
def slice? (source : String) (span : Span) : Option String :=
  if span.start ≤ span.stop then do
    let (_, behind) ← splitBytes? span.start source.toList
    let (inside, _) ← splitBytes? span.size behind
    return String.ofList inside
  else none

/-- A slice is the text between two offsets that are borders of characters. -/
theorem slice?_eq_some_iff {source text : String} {span : Span} :
    slice? source span = some text ↔ ∃ before after,
      source.toList = before ++ (text.toList ++ after) ∧ span.start = byteCount before ∧
        span.stop = byteCount before + byteCount text.toList := by
  constructor
  · intro found
    unfold slice? at found
    split at found
    · rename_i inOrder
      obtain ⟨⟨before, behind⟩, isBehind, foundInside⟩ := Option.bind_eq_some_iff.mp found
      obtain ⟨⟨inside, after⟩, isInside, same⟩ := Option.bind_eq_some_iff.mp foundInside
      obtain rfl := Option.some.inj same
      obtain ⟨wholeSource, isStart⟩ := splitBytes?_eq_some_iff.mp isBehind
      obtain ⟨rfl, isSize⟩ := splitBytes?_eq_some_iff.mp isInside
      rw [Span.size] at isSize
      rw [String.toList_ofList]
      exact ⟨before, after, wholeSource, isStart, by omega⟩
    · cases found
  · rintro ⟨before, after, wholeSource, isStart, isStop⟩
    have inOrder : span.start ≤ span.stop := by omega
    have isSize : span.size = byteCount text.toList := by
      rw [Span.size]
      omega
    rw [slice?, if_pos inOrder, wholeSource, isStart, isSize, splitBytes?_append]
    simp only [Option.bind_eq_bind, Option.bind_some, splitBytes?_append]
    exact congrArg some String.ofList_toList

end ScriptStrip.Text
