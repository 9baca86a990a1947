import ScriptStrip.Text.Identifier
import ScriptStrip.Text.Split
/-
This file defines the dotted suffixes that mark the calls to be removed, and sets of them.
-/

namespace ScriptStrip

/-- Why a configuration is refused. -/
inductive ConfigurationError where
  | emptySuffix
  | invalidSegment (suffix segment : String)
  | invalidAccessor (name : String)
deriving DecidableEq, Repr

/-- The text of an error names the suffix and the segment that were refused. -/
def ConfigurationError.message : ConfigurationError → String
  | emptySuffix => "suffix types to strip cannot be empty"
  | invalidSegment suffix segment =>
      "suffix '" ++ suffix ++ "' has invalid segment '" ++ segment ++ "', expected an identifier"
  | invalidAccessor name => "mode accessor '" ++ name ++ "' is not an identifier"

/-- The names at the end of a chain of members. -/
abbrev Suffix := List String

namespace Suffix

/-- The first part that is no identifier makes the whole suffix invalid. -/
def ofText (text : String) : Except ConfigurationError Suffix :=
  if text.isEmpty then .error .emptySuffix
  else
    let segments := (Text.splitAt '.' text.toList).map String.ofList
    match segments.find? fun segment => !Text.isIdentifier segment with
    | some segment => .error (.invalidSegment text segment)
    | none => .ok segments

/-- A suffix is written with dots between its segments. -/
def text (suffix : Suffix) : String := ".".intercalate suffix

/-- A suffix is an end of a chain of names, segment by segment. -/
def isEndOf (suffix : Suffix) (chain : List String) : Bool := suffix.isSuffixOf chain

end Suffix

/-- A list of suffixes in ascending order without repetitions. -/
abbrev SuffixSet := List Suffix

namespace SuffixSet

/-- A suffix is put at its place in the order, unless it is there. -/
def insert (suffix : Suffix) : SuffixSet → SuffixSet
  | [] => [suffix]
  | first :: rest =>
      if suffix < first then suffix :: first :: rest
      else if suffix = first then first :: rest
      else first :: insert suffix rest

/-- A set is made of a list by insertion. -/
def ofList (suffixes : List Suffix) : SuffixSet :=
  suffixes.foldl (fun set suffix => insert suffix set) []

/-- Insertion adds one suffix and keeps the others. -/
theorem mem_insert {suffix other : Suffix} {set : SuffixSet} :
    other ∈ insert suffix set ↔ other = suffix ∨ other ∈ set := by
  induction set with
  | nil => simp [insert]
  | cons first rest inductionHypothesis =>
      unfold insert
      split
      · simp
      · split
        · rename_i same
          subst same
          simp
        · simp only [List.mem_cons, inductionHypothesis]
          constructor
          · rintro (atFirst | atSuffix | inRest)
            · exact Or.inr (Or.inl atFirst)
            · exact Or.inl atSuffix
            · exact Or.inr (Or.inr inRest)
          · rintro (atSuffix | atFirst | inRest)
            · exact Or.inr (Or.inl atSuffix)
            · exact Or.inl atFirst
            · exact Or.inr (Or.inr inRest)

/-- The suffixes are in strictly ascending order. -/
def Ascending (set : SuffixSet) : Prop := set.Pairwise (· < ·)

/-- Insertion keeps the order. -/
theorem ascending_insert {suffix : Suffix} {set : SuffixSet} (ascending : Ascending set) :
    Ascending (insert suffix set) := by
  induction set with
  | nil => exact List.pairwise_singleton _ _
  | cons first rest inductionHypothesis =>
      have ⟨below, tail⟩ := List.pairwise_cons.mp ascending
      unfold insert
      split
      · rename_i less
        refine List.pairwise_cons.mpr ⟨?_, ascending⟩
        intro other member
        rcases List.mem_cons.mp member with rfl | inside
        · exact less
        · exact List.lt_trans less (below other inside)
      · split
        · exact ascending
        · rename_i notLess different
          refine List.pairwise_cons.mpr ⟨?_, inductionHypothesis tail⟩
          intro other member
          rcases mem_insert.mp member with rfl | inside
          · apply Decidable.byContradiction
            intro notGreater
            exact different (List.le_antisymm (List.not_lt.mp notGreater) (List.not_lt.mp notLess))
          · exact below other inside

/-- Repeated insertion adds just the suffixes of the list. -/
theorem mem_foldl_insert {suffixes : List Suffix} {set : SuffixSet} {other : Suffix} :
    other ∈ suffixes.foldl (fun set suffix => insert suffix set) set ↔
      other ∈ suffixes ∨ other ∈ set := by
  induction suffixes generalizing set with
  | nil => simp
  | cons first rest inductionHypothesis =>
      rw [List.foldl_cons, inductionHypothesis, mem_insert, List.mem_cons]
      constructor
      · rintro (inRest | atFirst | inSet)
        · exact Or.inl (Or.inr inRest)
        · exact Or.inl (Or.inl atFirst)
        · exact Or.inr inSet
      · rintro ((atFirst | inRest) | inSet)
        · exact Or.inr (Or.inl atFirst)
        · exact Or.inl inRest
        · exact Or.inr (Or.inr inSet)

/-- A set has the suffixes of the list that it is made of. -/
theorem mem_ofList {suffixes : List Suffix} {other : Suffix} :
    other ∈ ofList suffixes ↔ other ∈ suffixes := by
  rw [ofList, mem_foldl_insert]
  simp

/-- Repeated insertion keeps the order. -/
theorem ascending_foldl_insert {suffixes : List Suffix} {set : SuffixSet}
    (ascending : Ascending set) :
    Ascending (suffixes.foldl (fun set suffix => insert suffix set) set) := by
  induction suffixes generalizing set with
  | nil => exact ascending
  | cons first rest inductionHypothesis => exact inductionHypothesis (ascending_insert ascending)

/-- A set made of a list is in order and has no suffix twice. -/
theorem ascending_ofList (suffixes : List Suffix) : Ascending (ofList suffixes) :=
  ascending_foldl_insert List.Pairwise.nil

end SuffixSet

end ScriptStrip
