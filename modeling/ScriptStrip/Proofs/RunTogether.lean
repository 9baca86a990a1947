import ScriptStrip.Proofs.Parting
import ScriptStrip.Proofs.Scanned
/-
This file shows that tokens without blanks between them are still read as some tokens. Numbers and
words that run together are cut at other places, and nothing else can run together.
-/

namespace ScriptStrip

namespace Scan

/-- A number or a word can have the character at any place, and a token can start with it. -/
def IsLoose (character : Char) : Prop :=
  Text.isIdentifierPart character = true ∨ character ∈ ['.', '+', '-']

instance (character : Char) : Decidable (IsLoose character) :=
  inferInstanceAs (Decidable (_ ∨ _))

/-- A loose character is no blank. -/
theorem IsLoose.not_isBlank {character : Char} (loose : IsLoose character) :
    Text.isBlank character = false := by
  rcases loose with part | mark
  · exact Text.not_isBlank part
  · simp only [List.mem_cons, List.not_mem_nil, or_false] at mark
    rcases mark with rfl | rfl | rfl <;> decide

/-- The text is read without a mistake from every place in it, unless that place is inside of a
string or of a mark. -/
inductive Cuttable : List Char → Prop
  | nothing : Cuttable []
  | blank {first : Char} {rest : List Char} (isBlank : Text.isBlank first = true)
      (following : Cuttable rest) : Cuttable (first :: rest)
  | loose {first : Char} {rest : List Char} (isLoose : IsLoose first)
      (following : Cuttable rest) : Cuttable (first :: rest)
  | whole {lexeme : Lexeme} {rest : List Char} (stops : lexeme.StopsBefore rest)
      (tight : ∀ first ∈ lexeme.text.toList.head?, ¬ IsLoose first)
      (following : Cuttable rest) : Cuttable (lexeme.text.toList ++ rest)

namespace Cuttable

variable {first : Char} {read rest : List Char}

/-- A loose character may be taken off the front. -/
theorem tail (cuttable : Cuttable (first :: rest)) (isLoose : IsLoose first) : Cuttable rest := by
  generalize whole : first :: rest = source at cuttable
  cases cuttable with
  | nothing => cases whole
  | blank isBlank following =>
      obtain ⟨rfl, rfl⟩ := List.cons.inj whole
      rw [isLoose.not_isBlank] at isBlank
      cases isBlank
  | loose _ following =>
      obtain ⟨rfl, rfl⟩ := List.cons.inj whole
      exact following
  | whole stops tight following =>
      obtain ⟨other, others, isText⟩ := List.exists_cons_of_ne_nil (front_token_append stops).2
      rw [isText, List.cons_append] at whole
      obtain ⟨rfl, _⟩ := List.cons.inj whole
      exact absurd isLoose (tight first (by rw [isText]; rfl))

/-- Loose characters may be taken off the front. -/
theorem drop (cuttable : Cuttable (read ++ rest)) (allLoose : ∀ character ∈ read,
    IsLoose character) : Cuttable rest := by
  induction read with
  | nil => exact cuttable
  | cons first read step =>
      rw [List.forall_mem_cons] at allLoose
      exact step (cuttable.tail allLoose.1) allLoose.2

/-- Loose characters may be put in front. -/
theorem prepend (cuttable : Cuttable rest) (allLoose : ∀ character ∈ read, IsLoose character) :
    Cuttable (read ++ rest) := by
  induction read with
  | nil => exact cuttable
  | cons first read step =>
      rw [List.forall_mem_cons] at allLoose
      exact .loose allLoose.1 (step allLoose.2)

/-- Blanks may be put in front. -/
theorem skip (cuttable : Cuttable rest)
    (allBlank : ∀ character ∈ read, Text.isBlank character = true) : Cuttable (read ++ rest) := by
  induction read with
  | nil => exact cuttable
  | cons first read step =>
      rw [List.forall_mem_cons] at allBlank
      exact .blank allBlank.1 (step allBlank.2)

/-- A word or a number takes loose characters only, as far as it goes. -/
theorem front_of_loose (isLoose : IsLoose first) (cuttable : Cuttable rest) :
    ∃ lexeme read behind, front (first :: rest) = .token lexeme read behind ∧ Cuttable behind := by
  have whole : Cuttable (first :: rest) := .loose isLoose cuttable
  rcases isLoose with part | isMark
  · by_cases isDigit : first.isDigit = true
    · refine ⟨_, _, _, front_of_isDigit isDigit, ?_⟩
      rw [← splitNumber_append (first :: rest)] at whole
      exact whole.drop fun _ => mem_splitNumber
    · have starts : Text.isIdentifierStart first = true := by
        simpa [Text.isIdentifierPart, Text.isIdentifierStart, Char.isAlphanum, isDigit] using part
      refine ⟨_, _, _, front_of_identifierStart starts, ?_⟩
      rw [← splitWhile_append Text.isIdentifierPart (first :: rest)] at whole
      exact whole.drop fun character inside => .inl (all_of_splitWhile rfl character inside)
  · have found (mark : Punctuator) (never : ∀ next, Lexeme.clashes next mark = false) :
        front (mark.text.toList ++ rest) = .token (.punctuator mark) mark.text.toList rest :=
      Lexeme.stopsBefore_punctuator fun next _ => never next
    simp only [List.mem_cons, List.not_mem_nil, or_false] at isMark
    rcases isMark with rfl | rfl | rfl
    · exact ⟨_, _, _, found .dot fun _ => rfl, cuttable⟩
    · exact ⟨_, _, _, found .plus fun _ => rfl, cuttable⟩
    · exact ⟨_, _, _, found .minus fun _ => rfl, cuttable⟩

/-- Such a text is read on behind everything that is read from it. -/
theorem exists_stream {source : List Char} (cuttable : Cuttable source) (offset : Nat)
    (afterLineBreak : Bool) : ∃ stream, Scan.stream source offset afterLineBreak = .ok stream := by
  cases cuttable with
  | nothing => exact ⟨_, stream_nil⟩
  | blank isBlank following =>
      rw [stream_of_gap (front_of_isBlank isBlank)]
      exact exists_stream following _ _
  | loose isLoose following =>
      obtain ⟨lexeme, read, behind, found, cuttable⟩ := following.front_of_loose isLoose
      have shorter := length_lt_of_append (front_token_append found)
      obtain ⟨stream, scanned⟩ := exists_stream cuttable (offset + Text.byteCount read) false
      exact ⟨_, stream_of_token found scanned⟩
  | whole stops _ following =>
      have shorter := length_lt_of_append (front_token_append stops)
      obtain ⟨stream, scanned⟩ := exists_stream following _ false
      exact ⟨_, stream_of_token stops scanned⟩
termination_by source.length
decreasing_by
  · exact Nat.lt_succ_self _
  · exact shorter
  · exact shorter

end Cuttable

end Scan

/-- A mark is loose as a whole, or it does not start loosely. -/
theorem Punctuator.text_loose (mark : Punctuator) :
    (∀ character ∈ mark.text.toList, Scan.IsLoose character) ∨
      ∀ first ∈ mark.text.toList.head?, ¬ Scan.IsLoose first := by
  cases mark with
  | dot => exact .inl (by simp [text, Scan.IsLoose])
  | plus => exact .inl (by simp [text, Scan.IsLoose])
  | minus => exact .inl (by simp [text, Scan.IsLoose])
  | _ =>
      right
      rintro first ⟨⟩
      decide

namespace Piece

variable {style : Style} {good : Lexeme → Prop} {pieces : List Piece}

/-- Wherever the words and numbers are cut, the marks and the strings are not. -/
theorem Joined.cuttable (joined : Joined [] pieces)
    (legible : ∀ lexeme, token lexeme ∈ pieces → lexeme.IsLegible) :
    Scan.Cuttable (characters pieces) := by
  induction pieces with
  | nil => exact .nothing
  | cons piece pieces step =>
      have following := fun joined =>
        step joined fun lexeme inside => legible lexeme (List.mem_cons_of_mem _ inside)
      cases piece with
      | blank text => exact (following joined.2).skip joined.1
      | token lexeme =>
          have cuttable := following joined.2
          have stops : lexeme.runsOn = false → lexeme.StopsBefore (characters pieces) := by
            intro notRuns
            rcases joined.1 with stops | ⟨runsOn, _⟩
            · rwa [List.append_nil] at stops
            · rw [notRuns] at runsOn
              cases runsOn
          obtain ⟨before, found⟩ := legible lexeme List.mem_cons_self
          rw [characters_cons, Piece.text]
          rcases Scan.front_token_cases found with ⟨quote, content, rfl, _⟩ |
            ⟨_, _, _, _, _, split⟩ | ⟨_, _, _, _, _, split⟩ | ⟨mark, rfl, _⟩
          -- A string is one token. Words and numbers may be cut anywhere, and a mark only if each
          -- of its characters is a mark of its own.
          · refine .whole (stops rfl) ?_ cuttable
            rintro first isFirst
            obtain rfl : quote.mark = first := by simpa [Lexeme.text] using isFirst
            cases quote <;> decide
          · apply cuttable.prepend
            intro character inside
            rw [← (Prod.mk.inj split).1] at inside
            exact Scan.mem_splitNumber inside
          · exact cuttable.prepend fun character inside =>
              .inl (Scan.all_of_splitWhile split character inside)
          · rcases mark.text_loose with allLoose | tight
            · exact cuttable.prepend allLoose
            · exact .whole (stops rfl) tight cuttable

/-- A number can be read on at the front, and any other token is the first that is read. -/
theorem Kept.front_of_stream (legible : Lexeme.AreLegible good) {first : Lexeme}
    (kept : Kept style good [] (token first :: pieces)) {offset : Nat} {afterLineBreak : Bool}
    {stream : TokenStream} (scanned : Scan.stream (characters (token first :: pieces)) offset
      afterLineBreak = .ok stream) :
    stream.front.lexeme = first ∨
      (∃ longer, stream.front.lexeme = .number longer) ∧ ∃ digits, first = .number digits := by
  rcases kept.1 with stops | ⟨_, isGood, endsInLetter, _⟩
  · rw [List.append_nil] at stops
    exact .inl (Scan.stream_ok_of_token stops scanned).1
  · right
    cases first with
    | number digits =>
        obtain ⟨before, stops⟩ := legible _ isGood
        obtain ⟨digit, rest, source, isDigit, _⟩ := stops.splitNumber
        obtain ⟨other, others, isText⟩ := List.exists_cons_of_ne_nil (Scan.front_token_append stops).2
        rw [Lexeme.text] at isText
        rw [isText, List.cons_append] at source
        obtain ⟨rfl, _⟩ := List.cons.inj source
        rw [characters_cons, Piece.text, Lexeme.text, isText, List.cons_append] at scanned
        have found := Scan.stream_ok_of_token (Scan.front_of_isDigit isDigit) scanned
        exact ⟨⟨_, found.1⟩, _, rfl⟩
    | _ => cases endsInLetter

end Piece

end ScriptStrip
