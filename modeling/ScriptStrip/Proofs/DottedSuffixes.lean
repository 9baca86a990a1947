import Mathlib
import ScriptStrip.Configuration.Basic
/-
This file relates suffixes to the texts that they are written as. A configuration is known from the
set of these texts, and what it strips can be told from the text of a chain.
-/

namespace ScriptStrip

/-- Splitting at a character is the splitting of the library. -/
theorem Text.splitAt_eq_splitOn (separator : Char) (text : List Char) :
    splitAt separator text = text.splitOn separator := by
  induction text with
  | nil => rfl
  | cons character rest inductionHypothesis =>
      rw [splitAt, List.splitOn_cons_eq_if_modifyHead, inductionHypothesis]
      by_cases same : character = separator
      · simp [same]
      · cases parts : rest.splitOn separator with
        | nil => exact absurd parts (List.splitOn_ne_nil _ _)
        | cons first others => simp [same]

/-- No part holds the separator. -/
theorem Text.not_mem_of_mem_splitAt {separator : Char} {text part : List Char}
    (inside : part ∈ splitAt separator text) : separator ∉ part := by
  induction text generalizing part with
  | nil =>
      obtain rfl := List.mem_singleton.mp inside
      exact List.not_mem_nil
  | cons character rest inductionHypothesis =>
      rw [splitAt] at inside
      split at inside
      · rcases List.mem_cons.mp inside with rfl | inRest
        · exact List.not_mem_nil
        · exact inductionHypothesis inRest
      · rename_i different
        cases parts : splitAt separator rest with
        | nil => exact absurd parts (splitAt_ne_nil separator rest)
        | cons first others =>
            rw [parts] at inside inductionHypothesis
            rcases List.mem_cons.mp inside with rfl | inOthers
            · rw [List.mem_cons, not_or]
              exact ⟨Ne.symm different, inductionHypothesis List.mem_cons_self⟩
            · exact inductionHypothesis (List.mem_cons_of_mem _ inOthers)

/-- No separator of a suffix can stand inside of an identifier. -/
theorem Text.not_dotted_of_isIdentifier {name : String} (isName : isIdentifier name = true) :
    '.' ∉ name.toList := by
  intro dotted
  unfold isIdentifier at isName
  split at isName
  · cases isName
  · rename_i first rest characters
    rw [characters] at dotted
    obtain ⟨starts, continues⟩ := Bool.and_eq_true_iff.mp isName
    rcases List.mem_cons.mp dotted with isFirst | inRest
    · rw [← isFirst] at starts
      exact absurd starts (by decide)
    · exact absurd (List.all_eq_true.mp continues '.' inRest) (by decide)

namespace Suffix

/-- The segments are what stands between the dots of the text. -/
structure SegmentsOf (text : String) (segments : List String) : Prop where
  nonempty : segments ≠ []
  undotted : ∀ segment ∈ segments, '.' ∉ segment.toList
  joined : Suffix.text segments = text

/-- The text is an identifier, or identifiers with dots between them. -/
def IsDotted (text : String) : Prop :=
  ∃ segments, SegmentsOf text segments ∧ ∀ segment ∈ segments, Text.isIdentifier segment = true

/-- The text is no suffix, and the error names the first of its segments that is no identifier. -/
inductive Refuses : String → ConfigurationError → Prop where
  | empty : Refuses "" .emptySuffix
  | segment {text bad : String} {front back : List String} (nonempty : text ≠ "")
      (segments : SegmentsOf text (front ++ bad :: back))
      (valid : ∀ segment ∈ front, Text.isIdentifier segment = true)
      (invalid : Text.isIdentifier bad = false) : Refuses text (.invalidSegment text bad)

variable {text : String} {segments others suffix chain : List String}

/-- The characters of a suffix are those of its segments with dots between them. -/
theorem toList_text (segments : List String) :
    (Suffix.text segments).toList = ['.'].intercalate (segments.map String.toList) :=
  String.toList_intercalate

/-- Every text has exactly one list of segments. -/
theorem segmentsOf_iff :
    SegmentsOf text segments ↔ (Text.splitAt '.' text.toList).map String.ofList = segments := by
  constructor
  · rintro ⟨nonempty, undotted, rfl⟩
    have undottedLists : ∀ segment ∈ segments.map String.toList, '.' ∉ segment := by
      simpa using undotted
    rw [Text.splitAt_eq_splitOn, toList_text,
      List.splitOn_intercalate '.' undottedLists (by simpa using nonempty)]
    simp
  · rintro rfl
    refine ⟨by simpa using Text.splitAt_ne_nil '.' text.toList, ?_, ?_⟩
    · intro segment inside
      obtain ⟨part, inParts, rfl⟩ := List.mem_map.mp inside
      rw [String.toList_ofList]
      exact Text.not_mem_of_mem_splitAt inParts
    · apply String.toList_inj.mp
      rw [toList_text, List.map_map]
      simpa using Text.intercalate_splitAt '.' text.toList

/-- A text has its segments in one way only. -/
theorem SegmentsOf.unique (first : SegmentsOf text segments) (second : SegmentsOf text others) :
    segments = others :=
  (segmentsOf_iff.mp first).symm.trans (segmentsOf_iff.mp second)

/-- Every text has segments. -/
theorem exists_segmentsOf (text : String) : ∃ segments, SegmentsOf text segments :=
  ⟨_, segmentsOf_iff.mpr rfl⟩

/-- Segments that are identifiers are the segments of their text. -/
theorem segmentsOf_text (nonempty : segments ≠ [])
    (valid : ∀ segment ∈ segments, Text.isIdentifier segment = true) :
    SegmentsOf (Suffix.text segments) segments :=
  ⟨nonempty, fun segment inside => Text.not_dotted_of_isIdentifier (valid segment inside), rfl⟩

/-- Joined suffixes are written with a dot between them. -/
theorem text_append (first : segments ≠ []) (second : others ≠ []) :
    Suffix.text (segments ++ others) = Suffix.text segments ++ "." ++ Suffix.text others :=
  String.intercalate_append_of_ne_nil first second

/-- A text is read as its segments exactly if all of them are identifiers. -/
theorem ofText_eq_ok_iff : ofText text = .ok segments ↔
    SegmentsOf text segments ∧ ∀ segment ∈ segments, Text.isIdentifier segment = true := by
  rw [segmentsOf_iff, ofText]
  by_cases isEmpty : text = ""
  · subst isEmpty
    have notName : Text.isIdentifier "" = false := rfl
    constructor
    · rintro ⟨⟩
    · rintro ⟨rfl, valid⟩
      have isName := valid "" (by simp [Text.splitAt])
      rw [notName] at isName
      cases isName
  · rw [if_neg (by simpa using isEmpty)]
    dsimp only
    split
    · rename_i bad found
      have isBad := List.find?_some found
      have inside := List.mem_of_find?_eq_some found
      constructor
      · intro absurd
        cases absurd
      · rintro ⟨rfl, valid⟩
        rw [valid bad inside] at isBad
        cases isBad
    · rename_i notFound
      have valid : ∀ segment ∈ (Text.splitAt '.' text.toList).map String.ofList,
          Text.isIdentifier segment = true := by
        simpa only [List.find?_eq_none, Bool.not_eq_true', Bool.not_eq_false] using notFound
      rw [Except.ok.injEq]
      constructor
      · rintro rfl
        exact ⟨rfl, valid⟩
      · exact And.left

/-- A text is refused with an error that says why. -/
theorem ofText_eq_error_iff {error : ConfigurationError} :
    ofText text = .error error ↔ Refuses text error := by
  rw [ofText]
  by_cases isEmpty : text = ""
  · subst isEmpty
    constructor
    · rintro ⟨⟩
      exact .empty
    · intro refuses
      cases refuses with
      | empty => rfl
      | segment nonempty => exact absurd rfl nonempty
  · rw [if_neg (by simpa using isEmpty)]
    dsimp only
    constructor
    · intro refused
      split at refused
      · rename_i bad found
        cases refused
        obtain ⟨isBad, front, back, parts, valid⟩ := List.find?_eq_some_iff_append.mp found
        refine .segment isEmpty (segmentsOf_iff.mpr parts) ?_ (by simpa using isBad)
        simpa using valid
      · cases refused
    · intro refuses
      cases refuses with
      | empty => exact absurd rfl isEmpty
      | @segment _ bad front back nonempty segments valid invalid =>
          have found : (front ++ bad :: back).find? (fun segment => !Text.isIdentifier segment) =
              some bad :=
            List.find?_eq_some_iff_append.mpr
              ⟨by simp [invalid], front, back, rfl, by simpa using valid⟩
          rw [segmentsOf_iff.mp segments, found]

/-- The texts that are read are the dotted identifiers. -/
theorem isDotted_iff : IsDotted text ↔ ∃ segments, ofText text = .ok segments := by
  simp only [IsDotted, ofText_eq_ok_iff]

/-- The suffix ends the chain exactly if its text ends the text of the chain behind a dot, or is
all of it. -/
theorem isSuffix_iff_text (nonempty : suffix ≠ [])
    (valid : ∀ segment ∈ suffix, Text.isIdentifier segment = true)
    (validChain : ∀ name ∈ chain, Text.isIdentifier name = true) :
    suffix <:+ chain ↔ Suffix.text chain = Suffix.text suffix ∨
      ∃ front, Suffix.text chain = front ++ "." ++ Suffix.text suffix := by
  have ofSuffix := segmentsOf_text nonempty valid
  constructor
  · rintro ⟨front, rfl⟩
    by_cases isWhole : front = []
    · exact .inl (by rw [isWhole, List.nil_append])
    · exact .inr ⟨Suffix.text front, text_append isWhole nonempty⟩
  · intro ends
    -- The empty chain has the empty text, and no suffix has it.
    have chainNonempty : chain ≠ [] := by
      rintro rfl
      have noDot : ¬ ∃ front, Suffix.text [] = front ++ "." ++ Suffix.text suffix := by
        rintro ⟨front, same⟩
        have dotInside := congrArg String.toList same
        simp [Suffix.text] at dotInside
      have alone : SegmentsOf "" suffix := by
        have isEmpty : "" = Suffix.text suffix := ends.resolve_right noDot
        rw [isEmpty]
        exact ofSuffix
      have segment := valid "" (by rw [← segmentsOf_iff.mp alone]; simp [Text.splitAt])
      exact absurd segment (by decide)
    have ofChain := segmentsOf_text chainNonempty validChain
    rcases ends with same | ⟨front, same⟩
    · rw [same] at ofChain
      exact (ofChain.unique ofSuffix) ▸ List.suffix_rfl
    · obtain ⟨names, ofFront⟩ := exists_segmentsOf front
      have joined : Suffix.text chain = Suffix.text (names ++ suffix) := by
        rw [text_append ofFront.nonempty nonempty, ofFront.joined, same]
      have ofBoth : SegmentsOf (Suffix.text chain) (names ++ suffix) := by
        refine ⟨by simp [nonempty], ?_, joined.symm⟩
        intro segment inside
        rcases List.mem_append.mp inside with inFront | inSuffix
        · exact ofFront.undotted segment inFront
        · exact ofSuffix.undotted segment inSuffix
      exact ⟨names, ofBoth.unique ofChain⟩

/-- Texts are made into suffixes one by one. -/
theorem mapM_ofText_eq_ok_iff {entries : List String} {suffixes : List Suffix} :
    entries.mapM ofText = .ok suffixes ↔
      List.Forall₂ (fun entry suffix => ofText entry = .ok suffix) entries suffixes := by
  induction entries generalizing suffixes with
  | nil =>
      rw [List.mapM_nil, List.forall₂_nil_left_iff]
      constructor
      · rintro ⟨⟩
        rfl
      · rintro rfl
        rfl
  | cons entry rest inductionHypothesis =>
      rw [List.mapM_cons, List.forall₂_cons_left_iff]
      simp only [← inductionHypothesis]
      cases ofText entry with
      | error error => simp [bind, Except.bind]
      | ok suffix =>
          cases rest.mapM ofText with
          | error error => simp [bind, Except.bind]
          | ok others => simp [bind, Except.bind, pure, Except.pure, eq_comm]

/-- The first text that is no suffix stops the others from being looked at. -/
theorem mapM_ofText_eq_error_iff {entries : List String} {error : ConfigurationError} :
    entries.mapM ofText = .error error ↔ ∃ front bad back, entries = front ++ bad :: back ∧
      (∀ entry ∈ front, IsDotted entry) ∧ Refuses bad error := by
  induction entries with
  | nil =>
      rw [List.mapM_nil]
      simp [pure, Except.pure]
  | cons entry rest inductionHypothesis =>
      rw [List.mapM_cons]
      cases first : ofText entry with
      | error found =>
          have notDotted : ¬ IsDotted entry := by
            rw [isDotted_iff, first]
            rintro ⟨_, ⟨⟩⟩
          constructor
          · rintro ⟨⟩
            exact ⟨[], entry, rest, rfl, by simp, ofText_eq_error_iff.mp first⟩
          · rintro ⟨front, bad, back, shape, dotted, refuses⟩
            cases front with
            | nil =>
                obtain ⟨rfl, rfl⟩ := List.cons.inj shape
                rw [ofText_eq_error_iff.mpr refuses] at first
                cases first
                rfl
            | cons head front =>
                obtain ⟨rfl, rfl⟩ := List.cons.inj shape
                exact absurd (dotted entry List.mem_cons_self) notDotted
      | ok suffix =>
          have isDotted : IsDotted entry := isDotted_iff.mpr ⟨suffix, first⟩
          have ofRest : (Except.ok suffix >>= fun suffix => rest.mapM ofText >>= fun others =>
              pure (suffix :: others)) = .error error ↔ rest.mapM ofText = .error error := by
            cases rest.mapM ofText <;> simp [bind, Except.bind, pure, Except.pure]
          rw [ofRest, inductionHypothesis]
          constructor
          · rintro ⟨front, bad, back, rfl, dotted, refuses⟩
            exact ⟨entry :: front, bad, back, rfl, List.forall_mem_cons.mpr ⟨isDotted, dotted⟩,
              refuses⟩
          · rintro ⟨front, bad, back, shape, dotted, refuses⟩
            cases front with
            | nil =>
                obtain ⟨rfl, rfl⟩ := List.cons.inj shape
                rw [ofText_eq_error_iff.mpr refuses] at first
                cases first
            | cons head front =>
                obtain ⟨rfl, rfl⟩ := List.cons.inj shape
                exact ⟨front, bad, back, rfl, (List.forall_mem_cons.mp dotted).2, refuses⟩

end Suffix

namespace Configuration

open Suffix

variable {configuration : Configuration} {isProduction : Bool} {entries : List String}

/-- The suffixes of a configuration are those of its entries, and no others. -/
structure StripsEntries (configuration : Configuration) (entries : List String) : Prop where
  dotted : ∀ entry ∈ entries, IsDotted entry
  mem_suffixes_iff : ∀ suffix,
    suffix ∈ configuration.suffixes ↔ ∃ entry ∈ entries, ofText entry = .ok suffix
  ascending : SuffixSet.Ascending configuration.suffixes

/-- A configuration is made exactly if it strips what the entries say and nothing else. -/
theorem ofSuffixes_eq_ok_iff : ofSuffixes isProduction entries = .ok configuration ↔
    configuration.StripsEntries entries ∧ configuration.isProduction = isProduction ∧
      configuration.modeAccessor = defaultAccessor := by
  have members {suffixes : List Suffix} (made : entries.mapM ofText = .ok suffixes) :
      (∀ entry ∈ entries, IsDotted entry) ∧
        ∀ suffix, suffix ∈ suffixes ↔ ∃ entry ∈ entries, ofText entry = .ok suffix := by
    have pairs := mapM_ofText_eq_ok_iff.mp made
    clear made
    induction pairs with
    | nil => simp
    | @cons entry suffix entries suffixes isMade pairs inductionHypothesis =>
        refine ⟨List.forall_mem_cons.mpr ⟨isDotted_iff.mpr ⟨_, isMade⟩, inductionHypothesis.1⟩, ?_⟩
        intro other
        rw [List.mem_cons, inductionHypothesis.2, List.exists_mem_cons_iff, isMade,
          Except.ok.injEq, eq_comm]
  rw [ofSuffixes]
  cases made : entries.mapM ofText with
  | error error =>
      obtain ⟨front, bad, back, rfl, _, refuses⟩ := mapM_ofText_eq_error_iff.mp made
      constructor
      · intro absurd
        cases absurd
      · rintro ⟨⟨dotted, _, _⟩, _⟩
        obtain ⟨segments, isOk⟩ := isDotted_iff.mp (dotted bad (by simp))
        rw [ofText_eq_error_iff.mpr refuses] at isOk
        cases isOk
  | ok suffixes =>
      obtain ⟨dotted, sameMembers⟩ := members made
      constructor
      · rintro ⟨⟩
        refine ⟨⟨dotted, ?_, SuffixSet.ascending_ofList suffixes⟩, rfl, rfl⟩
        intro suffix
        rw [SuffixSet.mem_ofList, sameMembers]
      · rintro ⟨⟨_, sameEntries, ascending⟩, rfl, sameAccessor⟩
        -- An ascending list is told by its members.
        have sameSuffixes : SuffixSet.ofList suffixes = configuration.suffixes := by
          apply List.Pairwise.eq_of_mem_iff (SuffixSet.ascending_ofList suffixes) ascending
          intro suffix
          rw [SuffixSet.mem_ofList, sameMembers, sameEntries]
        show Except.ok _ = Except.ok configuration
        rw [sameSuffixes, ← sameAccessor]

/-- A configuration is made exactly if all entries are dotted identifiers. -/
theorem exists_ofSuffixes_iff :
    (∃ configuration, ofSuffixes isProduction entries = .ok configuration) ↔
      ∀ entry ∈ entries, IsDotted entry := by
  constructor
  · rintro ⟨configuration, made⟩
    exact (ofSuffixes_eq_ok_iff.mp made).1.dotted
  · intro dotted
    cases made : entries.mapM ofText with
    | ok suffixes => exact ⟨_, by rw [ofSuffixes, made]; rfl⟩
    | error error =>
        obtain ⟨front, bad, back, rfl, _, refuses⟩ := mapM_ofText_eq_error_iff.mp made
        obtain ⟨segments, isOk⟩ := isDotted_iff.mp (dotted bad (by simp))
        rw [ofText_eq_error_iff.mpr refuses] at isOk
        cases isOk

/-- The error is that of the first entry which is no dotted identifier. -/
theorem ofSuffixes_eq_error_iff {error : ConfigurationError} :
    ofSuffixes isProduction entries = .error error ↔
      ∃ front bad back, entries = front ++ bad :: back ∧ (∀ entry ∈ front, IsDotted entry) ∧
        Refuses bad error := by
  rw [← mapM_ofText_eq_error_iff, ofSuffixes]
  cases entries.mapM ofText <;> simp [bind, Except.bind, pure, Except.pure]

namespace StripsEntries

/-- Neither the order of the entries nor a repetition matters. -/
theorem of_same {entries' : List String} (strips : configuration.StripsEntries entries)
    (same : ∀ entry, entry ∈ entries' ↔ entry ∈ entries) :
    configuration.StripsEntries entries' :=
  ⟨fun entry inside => strips.dotted entry ((same entry).mp inside),
    fun suffix => by simp only [strips.mem_suffixes_iff, same], strips.ascending⟩

/-- A chain is stripped exactly if it is one of the entries or ends in a dot and one. -/
theorem strips_iff_text (strips : configuration.StripsEntries entries) {chain : List String}
    (validChain : ∀ name ∈ chain, Text.isIdentifier name = true) :
    configuration.strips chain = true ↔ ∃ entry ∈ entries, Suffix.text chain = entry ∨
      ∃ front, Suffix.text chain = front ++ "." ++ entry := by
  have ofEntry {entry : String} {suffix : Suffix} (made : ofText entry = .ok suffix) :
      suffix <:+ chain ↔ Suffix.text chain = entry ∨
        ∃ front, Suffix.text chain = front ++ "." ++ entry := by
    obtain ⟨segments, valid⟩ := ofText_eq_ok_iff.mp made
    rw [isSuffix_iff_text segments.nonempty valid validChain, segments.joined]
  simp only [Configuration.strips, List.any_eq_true, isEndOf, List.isSuffixOf_iff_suffix]
  constructor
  · rintro ⟨suffix, inside, ends⟩
    obtain ⟨entry, isEntry, made⟩ := (strips.mem_suffixes_iff suffix).mp inside
    exact ⟨entry, isEntry, (ofEntry made).mp ends⟩
  · rintro ⟨entry, isEntry, ends⟩
    obtain ⟨suffix, made⟩ := isDotted_iff.mp (strips.dotted entry isEntry)
    exact ⟨suffix, (strips.mem_suffixes_iff suffix).mpr ⟨entry, isEntry, made⟩,
      (ofEntry made).mpr ends⟩

end StripsEntries

/-- The configurations that a program can come by. -/
inductive IsMade : Configuration → Prop where
  | standard : IsMade standard
  | production : IsMade production
  | ofSuffixes {isProduction : Bool} {entries : List String} {configuration : Configuration}
      (made : ofSuffixes isProduction entries = .ok configuration) : IsMade configuration
  | withModeAccessor {configuration changed : Configuration} {name : String}
      (isMade : IsMade configuration) (made : configuration.withModeAccessor name = .ok changed) :
      IsMade changed

/-- All names are identifiers, and the suffixes are in order. -/
structure Valid (configuration : Configuration) : Prop where
  ascending : SuffixSet.Ascending configuration.suffixes
  nonempty : ∀ suffix ∈ configuration.suffixes, suffix ≠ []
  segments : ∀ suffix ∈ configuration.suffixes,
    ∀ segment ∈ suffix, Text.isIdentifier segment = true
  accessor : Text.isIdentifier configuration.modeAccessor = true

/-- A mode accessor is taken exactly if it is an identifier, and nothing else changes. -/
theorem withModeAccessor_eq_ok_iff {changed : Configuration} {name : String} :
    configuration.withModeAccessor name = .ok changed ↔
      Text.isIdentifier name = true ∧ changed = { configuration with modeAccessor := name } := by
  rw [withModeAccessor]
  by_cases isName : Text.isIdentifier name = true
  · rw [if_pos isName, Except.ok.injEq, eq_comm, iff_and_self]
    exact fun _ => isName
  · rw [if_neg isName]
    constructor
    · rintro ⟨⟩
    · rintro ⟨absurd, _⟩
      exact False.elim (isName absurd)

/-- Whatever is made of entries is valid. -/
theorem IsMade.valid (isMade : configuration.IsMade) : configuration.Valid := by
  induction isMade with
  | standard => exact ⟨List.Pairwise.nil, by decide, by decide, by decide⟩
  | production => exact ⟨List.pairwise_singleton _ _, by decide, by decide, by decide⟩
  | ofSuffixes made =>
      obtain ⟨strips, _, sameAccessor⟩ := ofSuffixes_eq_ok_iff.mp made
      have ofSuffix {suffix : Suffix} (inside : suffix ∈ _) :=
        (strips.mem_suffixes_iff suffix).mp inside
      refine ⟨strips.ascending, ?_, ?_, by rw [sameAccessor]; decide⟩
      · intro suffix inside
        obtain ⟨entry, _, made⟩ := ofSuffix inside
        exact (ofText_eq_ok_iff.mp made).1.nonempty
      · intro suffix inside
        obtain ⟨entry, _, made⟩ := ofSuffix inside
        exact (ofText_eq_ok_iff.mp made).2
  | withModeAccessor _ made inductionHypothesis =>
      obtain ⟨isName, rfl⟩ := withModeAccessor_eq_ok_iff.mp made
      exact { inductionHypothesis with accessor := isName }

/-- The suffixes as they are written down, in their order. -/
def suffixTexts (configuration : Configuration) : List String :=
  configuration.suffixes.map Suffix.text

namespace Valid

/-- Each suffix of a valid configuration has its segments in its text. -/
theorem segmentsOf (valid : configuration.Valid) {suffix : Suffix}
    (inside : suffix ∈ configuration.suffixes) : SegmentsOf (Suffix.text suffix) suffix :=
  segmentsOf_text (valid.nonempty suffix inside) (valid.segments suffix inside)

/-- The texts are in the order of their segments. -/
theorem pairwise_suffixTexts (valid : configuration.Valid) :
    configuration.suffixTexts.Pairwise fun text text' => ∀ segments segments',
      SegmentsOf text segments → SegmentsOf text' segments' → segments < segments' := by
  rw [suffixTexts, List.pairwise_map]
  refine valid.ascending.imp_of_mem ?_
  intro suffix suffix' inside inside' less segments segments' ofText ofText'
  rw [ofText.unique (valid.segmentsOf inside), ofText'.unique (valid.segmentsOf inside')]
  exact less

/-- No two suffixes of a valid configuration have one text. -/
theorem nodup_suffixTexts (valid : configuration.Valid) : configuration.suffixTexts.Nodup := by
  refine valid.pairwise_suffixTexts.imp ?_
  rintro text _ less rfl
  obtain ⟨segments, ofText⟩ := exists_segmentsOf text
  exact List.lt_irrefl segments (less segments segments ofText ofText)

/-- The suffixes are read back from their texts. -/
theorem stripsEntries (valid : configuration.Valid) :
    configuration.StripsEntries configuration.suffixTexts := by
  have readsBack {suffix : Suffix} (inside : suffix ∈ configuration.suffixes) :
      ofText (Suffix.text suffix) = .ok suffix :=
    ofText_eq_ok_iff.mpr ⟨valid.segmentsOf inside, valid.segments suffix inside⟩
  refine ⟨?_, ?_, valid.ascending⟩
  · intro text inside
    obtain ⟨suffix, isSuffix, rfl⟩ := List.mem_map.mp inside
    exact isDotted_iff.mpr ⟨suffix, readsBack isSuffix⟩
  · intro suffix
    constructor
    · intro inside
      exact ⟨Suffix.text suffix, List.mem_map_of_mem inside, readsBack inside⟩
    · rintro ⟨text, inside, made⟩
      obtain ⟨other, isSuffix, rfl⟩ := List.mem_map.mp inside
      rw [readsBack isSuffix] at made
      cases made
      exact isSuffix

/-- A valid configuration is made again of its own texts. -/
theorem remade (valid : configuration.Valid) :
    (ofSuffixes configuration.isProduction configuration.suffixTexts).bind
      (fun made => made.withModeAccessor configuration.modeAccessor) = .ok configuration := by
  have made : ofSuffixes configuration.isProduction configuration.suffixTexts =
      .ok { configuration with modeAccessor := defaultAccessor } :=
    ofSuffixes_eq_ok_iff.mpr
      ⟨⟨valid.stripsEntries.dotted, valid.stripsEntries.mem_suffixes_iff, valid.ascending⟩,
        rfl, rfl⟩
  rw [made]
  exact withModeAccessor_eq_ok_iff.mpr ⟨valid.accessor, rfl⟩

end Valid

/-- A configuration is made of entries exactly if all of them are dotted names, and the first one
that is not is reported. What it strips ends in the text of an entry. The entries count as a set,
and the sorted texts of the suffixes make the configuration again. -/
theorem suffixes_as_set (isProduction : Bool) (entries : List String) :
    ((∃ configuration, ofSuffixes isProduction entries = .ok configuration) ↔
        ∀ entry ∈ entries, IsDotted entry) ∧
      (∀ error, ofSuffixes isProduction entries = .error error ↔
        ∃ front bad back, entries = front ++ bad :: back ∧ (∀ entry ∈ front, IsDotted entry) ∧
          Refuses bad error) ∧
      (∀ configuration, ofSuffixes isProduction entries = .ok configuration →
        ∀ chain, (∀ name ∈ chain, Text.isIdentifier name = true) →
          (configuration.strips chain = true ↔ ∃ entry ∈ entries, Suffix.text chain = entry ∨
            ∃ front, Suffix.text chain = front ++ "." ++ entry)) ∧
      (∀ entries', (∀ entry, entry ∈ entries' ↔ entry ∈ entries) →
        (ofSuffixes isProduction entries').toOption =
          (ofSuffixes isProduction entries).toOption) ∧
      ∀ configuration : Configuration, configuration.IsMade →
        configuration.suffixTexts.Nodup ∧
          (configuration.suffixTexts.Pairwise fun text text' => ∀ segments segments',
            SegmentsOf text segments → SegmentsOf text' segments' → segments < segments') ∧
          (ofSuffixes configuration.isProduction configuration.suffixTexts).bind
            (fun made => made.withModeAccessor configuration.modeAccessor) =
              .ok configuration := by
  refine ⟨exists_ofSuffixes_iff, fun error => ofSuffixes_eq_error_iff, ?_, ?_, ?_⟩
  · intro configuration made chain validChain
    exact (ofSuffixes_eq_ok_iff.mp made).1.strips_iff_text validChain
  · intro entries' same
    have toOption_iff {made : Except ConfigurationError Configuration} {configuration} :
        made.toOption = some configuration ↔ made = .ok configuration := by
      cases made <;> simp [Except.toOption]
    apply Option.ext
    intro configuration
    rw [toOption_iff, toOption_iff, ofSuffixes_eq_ok_iff, ofSuffixes_eq_ok_iff]
    constructor
    · rintro ⟨strips, rest⟩
      exact ⟨strips.of_same fun entry => (same entry).symm, rest⟩
    · rintro ⟨strips, rest⟩
      exact ⟨strips.of_same same, rest⟩
  · intro configuration isMade
    have valid := isMade.valid
    exact ⟨valid.nodup_suffixTexts, valid.pairwise_suffixTexts, valid.remade⟩

/-- A chain is stripped for its last two names, which stand in the entries twice. -/
theorem suffixes_as_set_repeated : ∃ configuration,
    ofSuffixes true ["dev.log", "fine", "dev.log"] = .ok configuration ∧
      configuration.strips ["window", "dev", "log"] = true ∧
      (ofSuffixes true ["fine", "dev.log"]).toOption = some configuration ∧
      (ofSuffixes true configuration.suffixTexts).bind
        (fun made => made.withModeAccessor configuration.modeAccessor) = .ok configuration := by
  obtain ⟨_, _, strips, same, made⟩ := suffixes_as_set true ["dev.log", "fine", "dev.log"]
  have isMade : ofSuffixes true ["dev.log", "fine", "dev.log"] =
      .ok ⟨true, [["dev", "log"], ["fine"]], "$mode"⟩ := by cbv
  refine ⟨_, isMade, ?_, ?_, (made _ (.ofSuffixes isMade)).2.2⟩
  · rw [strips _ isMade _ (by decide)]
    exact ⟨"dev.log", List.mem_cons_self, .inr ⟨"window", by decide⟩⟩
  · rw [same _ (by simp [or_comm]), isMade]
    rfl

end Configuration

end ScriptStrip
