import Mathlib
import ScriptStrip.Token.Scan
/-
This file says when a token can be read from its own text. That depends on the first character
behind it alone, so a token can be moved from one text to another.
-/

namespace ScriptStrip

namespace Text

/-- All parts of identifiers have low codes, and no blank has a code among theirs. -/
theorem code_of_isIdentifierPart {character : Char} (part : isIdentifierPart character = true) :
    33 ≤ character.toNat ∧ character.toNat ≤ 122 := by
  simp only [isIdentifierPart, Char.isAlphanum, Char.isAlpha, Char.isUpper, Char.isLower,
    Char.isDigit, Bool.or_eq_true, Bool.and_eq_true, decide_eq_true_eq, beq_iff_eq,
    UInt32.le_iff_toNat_le, ge_iff_le] at part
  rcases part with (((upper | lower) | digit) | rfl) | rfl
  · simp at upper
    omega
  · simp at lower
    omega
  · simp at digit
    omega
  · decide
  · decide

/-- A character of a name is no blank. -/
theorem not_isBlank {character : Char} (part : isIdentifierPart character = true) :
    isBlank character = false := by
  obtain ⟨low, high⟩ := code_of_isIdentifierPart part
  simp only [isBlank, Bool.or_eq_false_iff, Bool.and_eq_false_iff, decide_eq_false_iff_not,
    beq_eq_false_iff_ne]
  omega

/-- A name starts with no digit. -/
theorem not_isDigit {character : Char} (starts : isIdentifierStart character = true) :
    character.isDigit = false := by
  simp only [isIdentifierStart, Char.isAlpha, Char.isUpper, Char.isLower, Char.isDigit,
    Bool.or_eq_true, Bool.and_eq_true, decide_eq_true_eq, beq_iff_eq, Bool.and_eq_false_iff,
    decide_eq_false_iff_not, UInt32.le_iff_toNat_le, ge_iff_le] at starts ⊢
  rcases starts with ((upper | lower) | rfl) | rfl
  · simp at upper ⊢
    omega
  · simp at lower ⊢
    omega
  · decide
  · decide

end Text

/-- The start of a hexadecimal number. -/
def Scan.startsHex : List Char → Bool
  | '0' :: 'x' :: _ | '0' :: 'X' :: _ => true
  | _ => false

/-- The digits are those of a decimal number and end in its exponent letter. -/
def Scan.endsInExponentLetter (digits : List Char) : Bool :=
  !startsHex digits && digits.getLast?.any fun last => last == 'e' || last == 'E'

/-- A number with such a character is no bare integer. -/
def Scan.isNumberMark (character : Char) : Bool :=
  ['.', 'e', 'E', 'x', 'X'].contains character

namespace Lexeme

/-- In front of the text, the lexeme is read from its own characters and from no others. -/
def StopsBefore (behind : List Char) (lexeme : Lexeme) : Prop :=
  Scan.front (lexeme.text.toList ++ behind) = .token lexeme lexeme.text.toList behind

/-- The lexeme can be read from some source text. -/
def IsLegible (lexeme : Lexeme) : Prop := ∃ behind, lexeme.StopsBefore behind

/-- A sign behind such a number would be read as the sign of its exponent. -/
def endsInExponentLetter : Lexeme → Bool
  | number digits => Scan.endsInExponentLetter digits.toList
  | _ => false

end Lexeme

namespace Scan

/-- A word ends in front of the text. -/
def EndsWord (behind : List Char) : Prop :=
  ∀ next ∈ behind.head?, Text.isIdentifierPart next = false

/-- A word is split off where the next character fails the test. -/
theorem splitWhile_append_of_stops {test : Char → Bool} {word behind : List Char}
    (inside : ∀ character ∈ word, test character = true)
    (stops : ∀ next ∈ behind.head?, test next = false) :
    splitWhile test (word ++ behind) = (word, behind) := by
  have rest : behind.takeWhile test = [] ∧ behind.dropWhile test = behind := by
    cases behind with
    | nil => exact ⟨rfl, rfl⟩
    | cons next rest =>
        have stop := stops next rfl
        simp [stop]
  unfold splitWhile
  rw [List.takeWhile_append_of_pos inside, List.dropWhile_append_of_pos inside, rest.1, rest.2,
    List.append_nil]

/-- All characters that are split off pass the test. -/
theorem all_of_splitWhile {test : Char → Bool} {source word behind : List Char}
    (split : splitWhile test source = (word, behind)) :
    ∀ character ∈ word, test character = true := by
  obtain ⟨rfl, _⟩ := Prod.mk.inj split
  exact List.all_eq_true.mp (List.all_takeWhile)

/-- A string is read up to the next quote of its own kind. -/
theorem frontString_cases {quote : Quote} {source read behind : List Char} {lexeme : Lexeme}
    (found : frontString quote source = .token lexeme read behind) :
    ∃ quote content, lexeme = .string (String.ofList content) quote ∧
      read = quote.mark :: content ++ [quote.mark] ∧
      splitString quote.mark (content ++ quote.mark :: behind) =
        (content, quote.mark :: behind) := by
  have whole := splitString_append quote.mark source
  unfold frontString at found
  split at found
  · cases found
  · rename_i content mark after split
    split at found
    · rename_i isMark
      obtain rfl := beq_iff_eq.mp isMark
      cases found
      rw [split] at whole
      refine ⟨quote, content, rfl, rfl, ?_⟩
      rw [whole, split]
    · cases found

/-- The kinds of tokens, each with the function that reads it. -/
theorem front_token_cases {source read behind : List Char} {lexeme : Lexeme}
    (found : front source = .token lexeme read behind) :
    (∃ quote content, lexeme = .string (String.ofList content) quote ∧
        read = quote.mark :: content ++ [quote.mark] ∧
        splitString quote.mark (content ++ quote.mark :: behind) = (content, quote.mark :: behind)) ∨
      (∃ first rest, source = first :: rest ∧ first.isDigit = true ∧
        lexeme = .number (String.ofList read) ∧ splitNumber source = (read, behind)) ∨
      (∃ first rest, source = first :: rest ∧ Text.isIdentifierStart first = true ∧
        lexeme = .ofWord (String.ofList read) ∧
        splitWhile Text.isIdentifierPart source = (read, behind)) ∨
      ∃ mark, lexeme = .punctuator mark ∧ read = mark.text.toList := by
  unfold front at found
  split at found
  · cases found
  · cases found
  · split at found <;> cases found
  · rename_i first rest _ _
    split at found
    · cases found
    · unfold frontToken at found
      split at found
      · exact .inl (frontString_cases found)
      split at found
      · exact .inl (frontString_cases found)
      split at found
      · rename_i isDigit
        cases found
        exact .inr (.inl ⟨first, rest, rfl, isDigit, rfl, rfl⟩)
      split at found
      · rename_i starts
        cases found
        exact .inr (.inr (.inl ⟨first, rest, rfl, starts, rfl, rfl⟩))
      split at found
      · rename_i mark after split
        cases found
        exact .inr (.inr (.inr ⟨mark, rfl, rfl⟩))
      · cases found

/-- A token is all of the text that is read for it. -/
theorem read_eq_text {source read behind : List Char} {lexeme : Lexeme}
    (found : front source = .token lexeme read behind) : read = lexeme.text.toList := by
  rcases front_token_cases found with ⟨quote, content, rfl, rfl, _⟩ | ⟨_, _, _, _, rfl, _⟩ |
    ⟨_, _, _, _, rfl, _⟩ | ⟨mark, rfl, rfl⟩
  · simp [Lexeme.text]
  · simp [Lexeme.text]
  · simp
  · rfl

/-- A token is read from its own text. -/
theorem stopsBefore_of_front {source read behind : List Char} {lexeme : Lexeme}
    (found : front source = .token lexeme read behind) : lexeme.StopsBefore behind := by
  have whole := (front_token_append found).1
  rw [Lexeme.StopsBefore, ← read_eq_text found, whole]
  exact found

/-- A token that is read from a source is read back from its own text. -/
theorem isLegible_of_front {source read behind : List Char} {lexeme : Lexeme}
    (found : front source = .token lexeme read behind) : lexeme.IsLegible :=
  ⟨behind, stopsBefore_of_front found⟩

/-- No other kind of token starts like a word. -/
theorem front_of_identifierStart {first : Char} {rest : List Char}
    (starts : Text.isIdentifierStart first = true) :
    front (first :: rest) = .token
      (.ofWord (String.ofList (splitWhile Text.isIdentifierPart (first :: rest)).1))
      (splitWhile Text.isIdentifierPart (first :: rest)).1
      (splitWhile Text.isIdentifierPart (first :: rest)).2 := by
  have notSlash : first ≠ '/' := by
    rintro rfl
    exact absurd starts (by decide)
  have notDouble : first ≠ '"' := by
    rintro rfl
    exact absurd starts (by decide)
  have notSingle : first ≠ '\'' := by
    rintro rfl
    exact absurd starts (by decide)
  have notBlank := Text.not_isBlank (Text.isIdentifierPart_of_isIdentifierStart starts)
  have notDigit := Text.not_isDigit starts
  unfold front
  split
  · simp_all
  · simp_all
  · simp_all
  · simp_all [frontToken]

end Scan

namespace Lexeme
open Scan

variable {behind : List Char}

/-- A number that stops is split off by the scanner of numbers. -/
theorem StopsBefore.splitNumber {digits : String} (stops : (number digits).StopsBefore behind) :
    ∃ first rest, digits.toList ++ behind = first :: rest ∧ first.isDigit = true ∧
      Scan.splitNumber (digits.toList ++ behind) = (digits.toList, behind) := by
  rcases front_token_cases stops with ⟨_, _, isString, _⟩ |
    ⟨first, rest, source, isDigit, _, split⟩ | ⟨_, _, _, _, isWord, _⟩ | ⟨_, isMark, _⟩
  · cases isString
  · exact ⟨first, rest, source, isDigit, split⟩
  · unfold ofWord at isWord
    split at isWord <;> cases isWord
  · cases isMark

/-- A string that stops is split off by the scanner of strings. -/
theorem StopsBefore.splitString {content : String} {quote : Quote}
    (stops : (string content quote).StopsBefore behind) :
    Scan.splitString quote.mark (content.toList ++ quote.mark :: behind) =
      (content.toList, quote.mark :: behind) := by
  rcases front_token_cases stops with ⟨quote', characters, isString, _, split⟩ |
    ⟨_, _, _, _, isNumber, _⟩ | ⟨_, _, _, _, isWord, _⟩ | ⟨_, isMark, _⟩
  · obtain ⟨rfl, rfl⟩ := Lexeme.string.inj isString
    rwa [String.toList_ofList]
  · cases isNumber
  · unfold ofWord at isWord
    split at isWord <;> cases isWord
  · cases isMark

/-- A word stops where no character of a name follows. -/
theorem stopsBefore_ofWord {word : String} (isWord : Text.isIdentifier word = true)
    (ends : EndsWord behind) : (ofWord word).StopsBefore behind := by
  unfold StopsBefore
  rw [text_ofWord]
  unfold Text.isIdentifier at isWord
  split at isWord
  · cases isWord
  · rename_i first rest characters
    obtain ⟨starts, inside⟩ := Bool.and_eq_true_iff.mp isWord
    have allParts : ∀ character ∈ word.toList, Text.isIdentifierPart character = true := by
      rw [characters, List.forall_mem_cons]
      exact ⟨Text.isIdentifierPart_of_isIdentifierStart starts, List.all_eq_true.mp inside⟩
    have split := splitWhile_append_of_stops allParts ends
    rw [characters] at split ⊢
    rw [List.cons_append] at split ⊢
    rw [front_of_identifierStart starts, split, ← characters, String.ofList_toList]

/-- Every keyword is written like a name. -/
theorem isIdentifier_keyword (word : Keyword) : Text.isIdentifier word.text = true := by
  cases word <;> decide

/-- The text of a keyword is read as the keyword. -/
theorem ofWord_keyword (word : Keyword) : ofWord word.text = .keyword word := by
  rw [ofWord, Keyword.ofText?_text]

/-- A keyword stops where no character of a name follows. -/
theorem stopsBefore_keyword {word : Keyword} (ends : EndsWord behind) :
    (keyword word).StopsBefore behind := by
  rw [← ofWord_keyword]
  exact stopsBefore_ofWord (isIdentifier_keyword word) ends

/-- A name that can be read is an identifier and not a keyword. -/
theorem ofWord_of_isLegible {name : String} (legible : (identifier name).IsLegible) :
    Text.isIdentifier name = true ∧ ofWord name = identifier name := by
  obtain ⟨behind, stops⟩ := legible
  rcases front_token_cases stops with ⟨_, _, isString, _⟩ | ⟨_, _, _, _, isNumber, _⟩ |
    ⟨first, rest, source, starts, isWord, split⟩ | ⟨_, isMark, _⟩
  · cases isString
  · cases isNumber
  · have sameName : String.ofList (identifier name).text.toList = name := String.ofList_toList
    rw [sameName] at isWord
    refine ⟨?_, isWord.symm⟩
    have inside := all_of_splitWhile split
    rw [source, splitWhile] at split
    obtain ⟨isTaken, _⟩ := Prod.mk.inj split
    rw [List.takeWhile_cons_of_pos (Text.isIdentifierPart_of_isIdentifierStart starts)] at isTaken
    have characters : name.toList = first :: rest.takeWhile Text.isIdentifierPart := isTaken.symm
    rw [Text.isIdentifier, characters]
    simp [starts]
  · cases isMark

/-- A legible word is written like a name. -/
theorem isIdentifier_of_isLegible_ofWord {word : String} (legible : (ofWord word).IsLegible) :
    Text.isIdentifier word = true := by
  unfold ofWord at legible
  split at legible
  · rename_i reserved found
    rw [← Keyword.text_of_ofText? found]
    exact isIdentifier_keyword reserved
  · exact (ofWord_of_isLegible legible).1

/-- The character would be read as more of the mark. -/
def clashes (next : Char) : Punctuator → Bool
  | .assign | .equal | .notEqual | .not | .less | .greater => next == '='
  | .divide => next == '/' || next == '*'
  | _ => false

end Lexeme

namespace Scan

variable {behind : List Char}

/-- A mark is split off where the next character does not clash with it. -/
theorem splitPunctuator?_text {mark : Punctuator}
    (ends : ∀ next ∈ behind.head?, Lexeme.clashes next mark = false) :
    splitPunctuator? (mark.text.toList ++ behind) = some (mark, behind) := by
  have notEqual (reads : Lexeme.clashes '=' mark = true) (rest : List Char) :
      behind ≠ '=' :: rest := by
    rintro rfl
    rw [ends '=' rfl] at reads
    cases reads
  cases mark with
  | assign =>
      show splitPunctuator? ('=' :: behind) = _
      rw [splitPunctuator?]
      · exact fun rest => notEqual rfl _
      · exact notEqual rfl
  | equal =>
      show splitPunctuator? ('=' :: '=' :: behind) = _
      rw [splitPunctuator?]
      exact notEqual rfl
  | not =>
      show splitPunctuator? ('!' :: behind) = _
      rw [splitPunctuator?]
      · exact fun rest => notEqual rfl _
      · exact notEqual rfl
  | notEqual =>
      show splitPunctuator? ('!' :: '=' :: behind) = _
      rw [splitPunctuator?]
      exact notEqual rfl
  | less =>
      show splitPunctuator? ('<' :: behind) = _
      rw [splitPunctuator?]
      exact notEqual rfl
  | greater =>
      show splitPunctuator? ('>' :: behind) = _
      rw [splitPunctuator?]
      exact notEqual rfl
  | _ => rfl

/-- The character starts a token that is neither a string nor a number nor a word. -/
def startsMark (first : Char) : Bool :=
  !(Text.isBlank first || first == '"' || first == '\'' || first.isDigit ||
    Text.isIdentifierStart first)

/-- A mark that starts no comment is a token. -/
theorem front_of_splitPunctuator? {first : Char} {rest after : List Char} {mark : Punctuator}
    (starts : startsMark first = true)
    (noComment : first = '/' → ∀ next ∈ rest.head?, next ≠ '/' ∧ next ≠ '*')
    (found : splitPunctuator? (first :: rest) = some (mark, after)) :
    front (first :: rest) = .token (.punctuator mark) mark.text.toList after := by
  simp only [startsMark, Bool.not_eq_true', Bool.or_eq_false_iff] at starts
  unfold front
  split
  · rename_i isEmpty
    cases isEmpty
  · rename_i isComment
    obtain ⟨rfl, rfl⟩ := List.cons.inj isComment
    exact absurd rfl (noComment rfl '/' rfl).1
  · rename_i isComment
    obtain ⟨rfl, rfl⟩ := List.cons.inj isComment
    exact absurd rfl (noComment rfl '*' rfl).2
  · rename_i same
    obtain ⟨rfl, rfl⟩ := List.cons.inj same
    simp [frontToken, starts, found]

/-- Every mark starts like a mark, and only the slash like a comment. -/
theorem text_startsMark (mark : Punctuator) : ∃ first rest, mark.text.toList = first :: rest ∧
    startsMark first = true ∧ (first = '/' → mark = .divide ∧ rest = []) := by
  cases mark <;> exact ⟨_, _, rfl, by decide, by decide⟩

end Scan

namespace Lexeme
open Scan

variable {behind : List Char}

/-- A mark stops where the next character does not clash with it. -/
theorem stopsBefore_punctuator {mark : Punctuator}
    (ends : ∀ next ∈ behind.head?, clashes next mark = false) :
    (punctuator mark).StopsBefore behind := by
  have found := splitPunctuator?_text ends
  obtain ⟨first, rest, isText, starts, isDivide⟩ := text_startsMark mark
  rw [isText, List.cons_append] at found
  rw [StopsBefore, text, isText, List.cons_append, ← isText]
  apply front_of_splitPunctuator? starts _ found
  intro isSlash
  obtain ⟨rfl, rfl⟩ := isDivide isSlash
  intro next isNext
  simpa [clashes] using ends next isNext

end Lexeme

namespace Scan

variable {behind : List Char}

/-- Behind a backslash any character is passed over. -/
theorem splitString_escape (quote character : Char) (rest : List Char) :
    splitString quote ('\\' :: character :: rest) =
      ('\\' :: character :: (splitString quote rest).1, (splitString quote rest).2) := by
  rw [splitString]

/-- Any other character is passed over unless it is the quote or a line feed. -/
theorem splitString_plain {quote character : Char} (plain : character ≠ '\\') (rest : List Char) :
    splitString quote (character :: rest) =
      if character == quote || character == '\n' then ([], character :: rest)
      else (character :: (splitString quote rest).1, (splitString quote rest).2) := by
  rw [splitString]
  · exact fun isEscape => absurd isEscape plain
  · exact fun _ _ isEscape => absurd isEscape plain

/-- What stands behind a string is not looked at. -/
theorem splitString_append_of_split {quote : Char} (isQuote : quote ≠ '\\') (content : List Char)
    {before : List Char}
    (split : splitString quote (content ++ quote :: before) = (content, quote :: before)) :
    splitString quote (content ++ quote :: behind) = (content, quote :: behind) := by
  match content with
  | [] =>
      rw [List.nil_append, splitString_plain isQuote]
      simp
  | first :: rest =>
      by_cases escapes : first = '\\'
      · subst escapes
        cases rest with
        | nil => simp [splitString_escape] at split
        | cons second rest =>
            simp only [List.cons_append, splitString_escape, Prod.mk.injEq, List.cons.injEq,
              true_and] at split ⊢
            have inner := splitString_append_of_split isQuote rest (Prod.ext split.1 split.2)
            rw [inner]
            exact ⟨rfl, rfl⟩
      · rw [List.cons_append, splitString_plain escapes] at split ⊢
        by_cases ends : (first == quote || first == '\n') = true
        · rw [if_pos ends] at split
          cases (Prod.mk.inj split).1
        · rw [if_neg ends] at split ⊢
          simp only [Prod.mk.injEq, List.cons.injEq, true_and] at split ⊢
          have inner := splitString_append_of_split isQuote rest (Prod.ext split.1 split.2)
          rw [inner]
          exact ⟨rfl, rfl⟩
termination_by content.length

/-- A closed string is a token. -/
theorem front_string {quote : Quote} {content : List Char}
    (split : splitString quote.mark (content ++ quote.mark :: behind) =
      (content, quote.mark :: behind)) :
    front (quote.mark :: (content ++ quote.mark :: behind)) =
      .token (.string (String.ofList content) quote) (quote.mark :: content ++ [quote.mark])
        behind := by
  have isString : front (quote.mark :: (content ++ quote.mark :: behind)) =
      frontString quote (content ++ quote.mark :: behind) := by
    cases quote <;> rfl
  rw [isString, frontString, split]
  simp

end Scan

/-- A legible string stops before anything. -/
theorem Lexeme.stopsBefore_string {content : String} {quote : Quote} {behind : List Char}
    (legible : (Lexeme.string content quote).IsLegible) :
    (Lexeme.string content quote).StopsBefore behind := by
  obtain ⟨before, stops⟩ := legible
  have notEscape : quote.mark ≠ '\\' := by cases quote <;> decide
  have split : Scan.splitString quote.mark (content.toList ++ quote.mark :: behind) =
      (content.toList, quote.mark :: behind) :=
    Scan.splitString_append_of_split notEscape _ stops.splitString
  have found := Scan.front_string split
  rw [String.ofList_toList] at found
  exact Scan.stopsBefore_of_front found

namespace Scan

variable {behind : List Char}

/-- A digit can stand inside a name. -/
theorem isIdentifierPart_of_isDigit {character : Char} (isDigit : character.isDigit = true) :
    Text.isIdentifierPart character = true := by
  simp [Text.isIdentifierPart, Char.isAlphanum, isDigit]

/-- A hexadecimal digit can stand inside a name. -/
theorem isIdentifierPart_of_isHexDigit {character : Char} (isDigit : isHexDigit character = true) :
    Text.isIdentifierPart character = true := by
  simp only [isHexDigit, Bool.or_eq_true, Bool.and_eq_true, decide_eq_true_eq] at isDigit
  rcases isDigit with (digit | lower) | upper
  · exact isIdentifierPart_of_isDigit digit
  · have isLower : character.isLower = true := by
      simp only [Char.isLower, Char.le_def, UInt32.le_iff_toNat_le, Bool.and_eq_true,
        decide_eq_true_eq, ge_iff_le] at lower ⊢
      simp at lower ⊢
      omega
    simp [Text.isIdentifierPart, Char.isAlphanum, Char.isAlpha, isLower]
  · have isUpper : character.isUpper = true := by
      simp only [Char.isUpper, Char.le_def, UInt32.le_iff_toNat_le, decide_eq_true_eq,
        ge_iff_le] at upper ⊢
      simp at upper ⊢
      omega
    simp [Text.isIdentifierPart, Char.isAlphanum, Char.isAlpha, isUpper]

/-- Where a word ends no digit follows. -/
theorem EndsWord.not_isDigit (ends : EndsWord behind) :
    ∀ next ∈ behind.head?, next.isDigit = false := by
  intro next isNext
  rw [Bool.eq_false_iff]
  intro isDigit
  have isPart := isIdentifierPart_of_isDigit isDigit
  rw [ends next isNext] at isPart
  cases isPart

/-- Nothing, or a decimal point with digits behind it. -/
inductive IsFraction : List Char → Prop where
  | nothing : IsFraction []
  | point {digits : List Char} (allDigits : ∀ digit ∈ digits, digit.isDigit = true) :
      IsFraction ('.' :: digits)

/-- Nothing, or an exponent letter with a sign and digits behind it, which can be missing. -/
inductive IsExponent : List Char → Prop where
  | nothing : IsExponent []
  | letter {letter : Char} {sign digits : List Char}
      (isLetter : (letter == 'e' || letter == 'E') = true)
      (isSign : sign = [] ∨ sign = ['+'] ∨ sign = ['-'])
      (allDigits : ∀ digit ∈ digits, digit.isDigit = true) :
      IsExponent (letter :: sign ++ digits)

/-- An exponent starts with its letter. -/
theorem IsExponent.isLetter {letter : Char} {rest : List Char}
    (isExponent : IsExponent (letter :: rest)) : (letter == 'e' || letter == 'E') = true := by
  generalize whole : letter :: rest = exponent at isExponent
  cases isExponent with
  | nothing => cases whole
  | letter isLetter isSign allDigits =>
      obtain ⟨rfl, _⟩ := List.cons.inj whole
      exact isLetter

/-- There is no sign, a plus or a minus. -/
theorem splitSign_cases (source : List Char) :
    (splitSign source).1 = [] ∨ (splitSign source).1 = ['+'] ∨ (splitSign source).1 = ['-'] := by
  fun_cases splitSign source <;> simp

/-- What is split off as a fraction is one. -/
theorem isFraction_of_split {source fraction rest : List Char}
    (split : splitFraction source = (fraction, rest)) : IsFraction fraction := by
  unfold splitFraction at split
  split at split
  · obtain ⟨rfl, _⟩ := Prod.mk.inj split
    exact .point (all_of_splitWhile rfl)
  · obtain ⟨rfl, _⟩ := Prod.mk.inj split
    exact .nothing

/-- What is split off as an exponent is one. -/
theorem isExponent_of_split {source exponent rest : List Char}
    (split : splitExponent source = (exponent, rest)) : IsExponent exponent := by
  unfold splitExponent at split
  split at split
  · obtain ⟨rfl, _⟩ := Prod.mk.inj split
    exact .nothing
  · split at split
    · rename_i letter rest isLetter
      obtain ⟨rfl, _⟩ := Prod.mk.inj split
      exact .letter isLetter (splitSign_cases rest) (all_of_splitWhile rfl)
    · obtain ⟨rfl, _⟩ := Prod.mk.inj split
      exact .nothing

/-- A fraction is split off where no digit follows. -/
theorem splitFraction_of_isFraction {fraction : List Char} (isFraction : IsFraction fraction)
    (notDigit : ∀ next ∈ behind.head?, next.isDigit = false)
    (notPoint : fraction = [] → behind.head? ≠ some '.') :
    splitFraction (fraction ++ behind) = (fraction, behind) := by
  cases isFraction with
  | nothing =>
      have noPoint := notPoint rfl
      rw [List.nil_append]
      unfold splitFraction
      split
      · exact absurd rfl noPoint
      · rfl
  | point allDigits =>
      rw [List.cons_append, splitFraction, splitWhile_append_of_stops allDigits notDigit]

/-- A sign is split off, and none where none follows. -/
theorem splitSign_of_isSign {sign : List Char} (isSign : sign = [] ∨ sign = ['+'] ∨ sign = ['-'])
    (notSign : sign = [] → behind.head? ≠ some '+' ∧ behind.head? ≠ some '-') :
    splitSign (sign ++ behind) = (sign, behind) := by
  rcases isSign with rfl | rfl | rfl
  · obtain ⟨notPlus, notMinus⟩ := notSign rfl
    rw [List.nil_append]
    unfold splitSign
    split
    · exact absurd rfl notPlus
    · exact absurd rfl notMinus
    · rfl
  · rfl
  · rfl

/-- An exponent is split off where a word ends. -/
theorem splitExponent_of_isExponent {exponent : List Char} (isExponent : IsExponent exponent)
    (ends : EndsWord behind)
    (notSign : (∃ letter, exponent = [letter]) →
      behind.head? ≠ some '+' ∧ behind.head? ≠ some '-') :
    splitExponent (exponent ++ behind) = (exponent, behind) := by
  cases isExponent with
  | nothing =>
      cases behind with
      | nil => rfl
      | cons next rest =>
          have notPart := ends next rfl
          have notLetter : ¬ (next == 'e' || next == 'E') = true := by
            intro isLetter
            rcases Bool.or_eq_true_iff.mp isLetter with same | same
            · rw [beq_iff_eq.mp same] at notPart
              exact absurd notPart (by decide)
            · rw [beq_iff_eq.mp same] at notPart
              exact absurd notPart (by decide)
          rw [List.nil_append, splitExponent, if_neg notLetter]
  | @letter letter sign digits isLetter isSign allDigits =>
      have signEnds : sign = [] →
          (digits ++ behind).head? ≠ some '+' ∧ (digits ++ behind).head? ≠ some '-' := by
        rintro rfl
        cases digits with
        | nil => exact notSign ⟨letter, rfl⟩
        | cons first digits =>
            have isDigit := allDigits first List.mem_cons_self
            constructor
            · rintro ⟨⟩
              cases isDigit
            · rintro ⟨⟩
              cases isDigit
      rw [List.append_assoc, List.cons_append, splitExponent, if_pos isLetter,
        splitSign_of_isSign isSign signEnds]
      dsimp only
      rw [splitWhile_append_of_stops allDigits ends.not_isDigit]

/-- Behind the whole digits no digit follows. -/
theorem head?_append_not_isDigit {fraction exponent : List Char} (isFraction : IsFraction fraction)
    (isExponent : IsExponent exponent) (ends : EndsWord behind) :
    ∀ next ∈ (fraction ++ (exponent ++ behind)).head?, next.isDigit = false := by
  cases isFraction with
  | point allDigits =>
      rintro next ⟨⟩
      rfl
  | nothing =>
      cases isExponent with
      | nothing => exact ends.not_isDigit
      | letter isLetter isSign allDigits =>
          rintro next ⟨⟩
          rcases Bool.or_eq_true_iff.mp isLetter with same | same
          · rw [beq_iff_eq.mp same]
            rfl
          · rw [beq_iff_eq.mp same]
            rfl

/-- A decimal number is read from its parts. -/
theorem splitDecimal_of_parts {whole fraction exponent : List Char}
    (allDigits : ∀ digit ∈ whole, digit.isDigit = true) (isFraction : IsFraction fraction)
    (isExponent : IsExponent exponent) (ends : EndsWord behind)
    (notPoint : fraction = [] → exponent = [] → behind.head? ≠ some '.')
    (notSign : (∃ letter, exponent = [letter]) →
      behind.head? ≠ some '+' ∧ behind.head? ≠ some '-') :
    splitDecimal (whole ++ fraction ++ exponent ++ behind) =
      (whole ++ fraction ++ exponent, behind) := by
  have wholeEnds := head?_append_not_isDigit isFraction isExponent ends
  have fractionEnds : ∀ next ∈ (exponent ++ behind).head?, next.isDigit = false :=
    head?_append_not_isDigit .nothing isExponent ends
  have noPoint : fraction = [] → (exponent ++ behind).head? ≠ some '.' := by
    intro noFraction
    cases isExponent with
    | nothing => exact notPoint noFraction rfl
    | letter isLetter isSign allDigits =>
        rintro ⟨⟩
        cases isLetter
  rw [List.append_assoc, List.append_assoc, splitDecimal,
    splitWhile_append_of_stops allDigits wholeEnds]
  dsimp only
  rw [splitFraction_of_isFraction isFraction fractionEnds noPoint]
  dsimp only
  rw [splitExponent_of_isExponent isExponent ends notSign]

/-- A decimal number has three parts. -/
theorem splitDecimal_parts (source : List Char) :
    ∃ whole fraction exponent, (splitDecimal source).1 = whole ++ fraction ++ exponent ∧
      (∀ digit ∈ whole, digit.isDigit = true) ∧ IsFraction fraction ∧ IsExponent exponent :=
  ⟨_, _, _, rfl, all_of_splitWhile rfl, isFraction_of_split rfl, isExponent_of_split rfl⟩

/-- A hexadecimal number starts with a zero and its letter. -/
theorem startsHex_iff {source : List Char} :
    startsHex source = true ↔
      ∃ letter rest, source = '0' :: letter :: rest ∧ (letter = 'x' ∨ letter = 'X') := by
  constructor
  · intro isHex
    unfold startsHex at isHex
    split at isHex
    · exact ⟨_, _, rfl, .inl rfl⟩
    · exact ⟨_, _, rfl, .inr rfl⟩
    · cases isHex
  · rintro ⟨_, rest, rfl, rfl | rfl⟩ <;> rfl

/-- Every other number is decimal. -/
theorem splitNumber_of_not_startsHex {source : List Char} (notHex : startsHex source = false) :
    splitNumber source = splitDecimal source := by
  unfold splitNumber
  split
  · cases notHex
  · cases notHex
  · rfl

/-- What is split off a hexadecimal number is one. -/
theorem startsHex_splitNumber {source : List Char} (isHex : startsHex source = true) :
    startsHex (splitNumber source).1 = true := by
  obtain ⟨_, rest, rfl, rfl | rfl⟩ := startsHex_iff.mp isHex <;> rfl

/-- The text behind a number does not make a hexadecimal number of it. -/
theorem startsHex_append {digits : List Char} (nonempty : digits ≠ []) (ends : EndsWord behind)
    (notHex : startsHex digits = false) : startsHex (digits ++ behind) = false := by
  rw [Bool.eq_false_iff] at notHex ⊢
  intro isHex
  obtain ⟨letter, rest, source, isLetter⟩ := startsHex_iff.mp isHex
  rcases digits with _ | ⟨first, _ | ⟨second, digits⟩⟩
  · exact nonempty rfl
  · obtain ⟨rfl, rfl⟩ := List.cons.inj source
    have notPart := ends letter rfl
    rcases isLetter with rfl | rfl
    · exact absurd notPart (by decide)
    · exact absurd notPart (by decide)
  · simp only [List.cons_append, List.cons.injEq] at source
    obtain ⟨rfl, rfl, _⟩ := source
    exact notHex (startsHex_iff.mpr ⟨second, digits, rfl, isLetter⟩)

/-- A number has no sign but that of its exponent. -/
theorem splitNumber_characters (source : List Char) : ∃ word exponent,
    (splitNumber source).1 = word ++ exponent ∧
      (∀ character ∈ word, Text.isIdentifierPart character = true ∨ character = '.') ∧
      (exponent = [] ∨ ∃ sign digits, exponent = sign :: digits ∧ (sign = '+' ∨ sign = '-') ∧
        ∀ digit ∈ digits, digit.isDigit = true) := by
  by_cases isHex : startsHex source = true
  · refine ⟨(splitNumber source).1, [], by simp, ?_, .inl rfl⟩
    obtain ⟨letter, rest, rfl, isLetter⟩ := startsHex_iff.mp isHex
    have isRead : (splitNumber ('0' :: letter :: rest)).1 =
        '0' :: letter :: (splitWhile isHexDigit rest).1 := by
      rcases isLetter with rfl | rfl <;> rfl
    rw [isRead, List.forall_mem_cons, List.forall_mem_cons]
    refine ⟨.inl (by decide), .inl ?_, fun digit inside => .inl ?_⟩
    · rcases isLetter with rfl | rfl <;> decide
    · exact isIdentifierPart_of_isHexDigit (all_of_splitWhile rfl digit inside)
  · rw [splitNumber_of_not_startsHex (Bool.of_not_eq_true isHex)]
    obtain ⟨whole, fraction, exponent, isRead, allDigits, isFraction, isExponent⟩ :=
      splitDecimal_parts source
    have ofDigits {digits : List Char} (all : ∀ digit ∈ digits, digit.isDigit = true) :
        ∀ digit ∈ digits, Text.isIdentifierPart digit = true ∨ digit = '.' :=
      fun digit inside => .inl (isIdentifierPart_of_isDigit (all digit inside))
    have ofWhole : ∀ character ∈ whole ++ fraction,
        Text.isIdentifierPart character = true ∨ character = '.' := by
      rw [List.forall_mem_append]
      refine ⟨ofDigits allDigits, ?_⟩
      cases isFraction with
      | nothing => simp
      | point allFraction => exact List.forall_mem_cons.mpr ⟨.inr rfl, ofDigits allFraction⟩
    rw [isRead]
    cases isExponent with
    | nothing => exact ⟨whole ++ fraction, [], by simp, ofWhole, .inl rfl⟩
    | @letter letter sign digits isLetter isSign allPower =>
        have ofLetter : Text.isIdentifierPart letter = true ∨ letter = '.' := by
          rcases Bool.or_eq_true_iff.mp isLetter with same | same
          · rw [beq_iff_eq.mp same]
            exact .inl (by decide)
          · rw [beq_iff_eq.mp same]
            exact .inl (by decide)
        have ofBoth : ∀ character ∈ whole ++ fraction ++ [letter],
            Text.isIdentifierPart character = true ∨ character = '.' :=
          List.forall_mem_append.mpr ⟨ofWhole, List.forall_mem_singleton.mpr ofLetter⟩
        rcases isSign with rfl | rfl | rfl
        · exact ⟨_, [], by simp,
            List.forall_mem_append.mpr ⟨ofBoth, ofDigits allPower⟩, .inl rfl⟩
        · exact ⟨_, '+' :: digits, by simp, ofBoth, .inr ⟨'+', digits, rfl, .inl rfl, allPower⟩⟩
        · exact ⟨_, '-' :: digits, by simp, ofBoth, .inr ⟨'-', digits, rfl, .inr rfl, allPower⟩⟩

/-- A number has characters of names, points and signs only. -/
theorem mem_splitNumber {source : List Char} {character : Char}
    (inside : character ∈ (splitNumber source).1) :
    Text.isIdentifierPart character = true ∨ character ∈ ['.', '+', '-'] := by
  obtain ⟨word, exponent, isRead, allWord, isExponent⟩ := splitNumber_characters source
  rw [isRead, List.mem_append] at inside
  rcases inside with inWord | inExponent
  · rcases allWord character inWord with part | rfl
    · exact .inl part
    · exact .inr List.mem_cons_self
  · rcases isExponent with rfl | ⟨sign, digits, rfl, isSign, allDigits⟩
    · cases inExponent
    · rcases List.mem_cons.mp inExponent with rfl | inDigits
      · exact .inr (List.mem_cons_of_mem _ (List.mem_pair.mpr isSign))
      · exact .inl (isIdentifierPart_of_isDigit (allDigits character inDigits))

/-- A number is split off alike in front of another text where a word ends. -/
theorem splitNumber_append_of_split {digits before : List Char} (nonempty : digits ≠ [])
    (split : splitNumber (digits ++ before) = (digits, before)) (ends : EndsWord behind)
    (notPoint : behind.head? = some '.' → digits.any isNumberMark = true)
    (notSign : behind.head? = some '+' ∨ behind.head? = some '-' →
      endsInExponentLetter digits = false) :
    splitNumber (digits ++ behind) = (digits, behind) := by
  -- A hexadecimal number ends by the next character alone. A decimal one is taken apart, because
  -- a point or a sign behind it may still belong to it.
  by_cases isHex : startsHex digits = true
  · have hexEnds : ∀ next ∈ behind.head?, isHexDigit next = false := by
      intro next isNext
      rw [Bool.eq_false_iff]
      intro isDigit
      have isPart := isIdentifierPart_of_isHexDigit isDigit
      rw [ends next isNext] at isPart
      cases isPart
    obtain ⟨_, rest, rfl, rfl | rfl⟩ := startsHex_iff.mp isHex
    all_goals
      simp only [List.cons_append, splitNumber, Prod.mk.injEq, List.cons.injEq, true_and] at split ⊢
      have moved := splitWhile_append_of_stops (all_of_splitWhile (Prod.ext split.1 split.2)) hexEnds
      rw [moved]
      exact ⟨rfl, rfl⟩
  · rw [Bool.not_eq_true] at isHex
    have wasDecimal : startsHex (digits ++ before) = false := by
      rw [Bool.eq_false_iff]
      intro wasHex
      have isHexNow := startsHex_splitNumber wasHex
      rw [split, isHex] at isHexNow
      cases isHexNow
    rw [splitNumber_of_not_startsHex wasDecimal] at split
    rw [splitNumber_of_not_startsHex (startsHex_append nonempty ends isHex)]
    obtain ⟨whole, fraction, exponent, isWhole, allDigits, isFraction, isExponent⟩ :=
      splitDecimal_parts (digits ++ before)
    rw [split] at isWhole
    dsimp only at isWhole
    subst isWhole
    refine splitDecimal_of_parts allDigits isFraction isExponent ends ?_ ?_
    · rintro rfl rfl isPoint
      obtain ⟨digit, inside, isMark⟩ := List.any_eq_true.mp (notPoint isPoint)
      have isDigit := allDigits digit (by simpa using inside)
      simp only [isNumberMark, List.contains_eq_mem, List.mem_cons, List.not_mem_nil, or_false,
        decide_eq_true_eq] at isMark
      rcases isMark with rfl | rfl | rfl | rfl | rfl <;> cases isDigit
    · rintro ⟨letter, rfl⟩
      have isLetter := isExponent.isLetter
      have endsSo : endsInExponentLetter (whole ++ fraction ++ [letter]) = true := by
        rw [endsInExponentLetter, isHex, List.getLast?_concat]
        exact isLetter
      constructor
      · intro isPlus
        rw [notSign (.inl isPlus)] at endsSo
        cases endsSo
      · intro isMinus
        rw [notSign (.inr isMinus)] at endsSo
        cases endsSo

/-- No other kind of token starts with a digit. -/
theorem front_of_isDigit {first : Char} {rest : List Char} (isDigit : first.isDigit = true) :
    front (first :: rest) = .token
      (.number (String.ofList (splitNumber (first :: rest)).1)) (splitNumber (first :: rest)).1
      (splitNumber (first :: rest)).2 := by
  have notSlash : first ≠ '/' := by
    rintro rfl
    cases isDigit
  have notDouble : first ≠ '"' := by
    rintro rfl
    cases isDigit
  have notSingle : first ≠ '\'' := by
    rintro rfl
    cases isDigit
  have notBlank := Text.not_isBlank (isIdentifierPart_of_isDigit isDigit)
  unfold front
  split
  · simp_all
  · simp_all
  · simp_all
  · simp_all [frontToken]

end Scan

/-- A legible number stops where a word ends and no point could belong to it. -/
theorem Lexeme.stopsBefore_number {digits : String} {behind : List Char}
    (legible : (Lexeme.number digits).IsLegible) (ends : Scan.EndsWord behind)
    (notPoint : behind.head? = some '.' → digits.toList.any Scan.isNumberMark = true)
    (notSign : behind.head? = some '+' ∨ behind.head? = some '-' →
      (Lexeme.number digits).endsInExponentLetter = false) :
    (Lexeme.number digits).StopsBefore behind := by
  obtain ⟨before, stops⟩ := legible
  obtain ⟨first, rest, source, isDigit, split⟩ := stops.splitNumber
  have nonempty : digits.toList ≠ [] := by
    have taken : (Scan.splitNumber (first :: rest)).1 ≠ [] := Scan.splitNumber_ne_nil isDigit
    rwa [← source, split] at taken
  have moved := Scan.splitNumber_append_of_split nonempty split ends notPoint notSign
  obtain ⟨other, more, characters⟩ := List.exists_cons_of_ne_nil nonempty
  obtain rfl : other = first := by
    rw [characters] at source
    exact (List.cons.inj source).1
  rw [characters] at moved
  rw [Lexeme.StopsBefore, Lexeme.text, characters, List.cons_append,
    Scan.front_of_isDigit isDigit, ← List.cons_append, moved, ← characters, String.ofList_toList]

end ScriptStrip
