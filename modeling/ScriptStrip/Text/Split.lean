/-
This file splits texts into the parts between separators.
-/

namespace ScriptStrip.Text

/-- The parts of a text between its separators. A text has one part more than it has
separators. -/
def splitAt (separator : Char) : List Char → List (List Char)
  | [] => [[]]
  | character :: rest =>
      if character = separator then [] :: splitAt separator rest
      else
        match splitAt separator rest with
        | first :: others => (character :: first) :: others
        | [] => [[character]]

/-- Splitting gives at least one part, which is empty for an empty text. -/
theorem splitAt_ne_nil (separator : Char) (text : List Char) : splitAt separator text ≠ [] := by
  fun_cases splitAt separator text <;> simp

/-- Joining the parts with the separator gives back the text. -/
theorem intercalate_splitAt (separator : Char) (text : List Char) :
    [separator].intercalate (splitAt separator text) = text := by
  induction text with
  | nil => simp [splitAt, List.intercalate]
  | cons character rest inductionHypothesis =>
      have present := splitAt_ne_nil separator rest
      unfold splitAt
      split
      · rename_i same
        subst same
        cases parts : splitAt character rest with
        | nil => exact absurd parts present
        | cons first others =>
            rw [parts] at inductionHypothesis
            simpa [List.intercalate, List.intersperse] using inductionHypothesis
      · cases parts : splitAt separator rest with
        | nil => exact absurd parts present
        | cons first others =>
            rw [parts] at inductionHypothesis
            cases others <;> simpa [List.intercalate, List.intersperse] using inductionHypothesis

end ScriptStrip.Text
