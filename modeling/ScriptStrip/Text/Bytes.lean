/-
This file measures texts in the bytes of their UTF-8 form.
-/

namespace ScriptStrip.Text

/-- The number of bytes that the characters take in UTF-8. -/
def byteCount (characters : List Char) : Nat :=
  characters.foldr (fun character size => character.utf8Size + size) 0

@[simp] theorem byteCount_nil : byteCount [] = 0 := rfl

@[simp] theorem byteCount_cons (character : Char) (rest : List Char) :
    byteCount (character :: rest) = character.utf8Size + byteCount rest := rfl

@[simp] theorem byteCount_append (first second : List Char) :
    byteCount (first ++ second) = byteCount first + byteCount second := by
  induction first with
  | nil => simp
  | cons character rest inductionHypothesis => simp [inductionHypothesis, Nat.add_assoc]

end ScriptStrip.Text
