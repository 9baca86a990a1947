import ScriptStrip.SyntaxError
import ScriptStrip.Text.Blank
import ScriptStrip.Text.Bytes
import ScriptStrip.Text.Identifier
import ScriptStrip.Token.Stream
/-
This file splits a source text into tokens. Each splitting function returns the characters it
reads and the characters that remain, and loses none.
-/

namespace ScriptStrip.Scan

/-- The digits of a hexadecimal number are decimal ones and six letters in either case. -/
def isHexDigit (character : Char) : Bool :=
  character.isDigit || ('a' ≤ character && character ≤ 'f') ||
    ('A' ≤ character && character ≤ 'F')

/-- The longest prefix of characters that pass the test, and the rest. -/
def splitWhile (test : Char → Bool) (source : List Char) : List Char × List Char :=
  (source.takeWhile test, source.dropWhile test)

/-- Splitting by a test loses no character. -/
@[simp] theorem splitWhile_append (test : Char → Bool) (source : List Char) :
    (splitWhile test source).1 ++ (splitWhile test source).2 = source :=
  List.takeWhile_append_dropWhile

/-- The text up to the first end mark of a comment, which is included. -/
def splitComment? : List Char → Option (List Char × List Char)
  | [] => none
  | '*' :: '/' :: rest => some (['*', '/'], rest)
  | character :: rest =>
      (splitComment? rest).map fun (inside, after) => (character :: inside, after)

/-- Splitting a closed comment off loses no character. -/
theorem splitComment?_append {source inside after : List Char}
    (closed : splitComment? source = some (inside, after)) : inside ++ after = source := by
  induction source using splitComment?.induct generalizing inside with
  | case1 => simp [splitComment?] at closed
  | case2 rest =>
      simp only [splitComment?, Option.some.injEq, Prod.mk.injEq] at closed
      obtain ⟨rfl, rfl⟩ := closed
      rfl
  | case3 character rest other step =>
      rw [splitComment?] at closed
      · obtain ⟨pair, found, same⟩ := Option.map_eq_some_iff.mp closed
        obtain ⟨rfl, rfl⟩ := Prod.mk.inj same
        simp [step found]
      · exact other

/-- The text up to the first quote or line feed that no backslash stands before. -/
def splitString (quote : Char) : List Char → List Char × List Char
  | [] => ([], [])
  | ['\\'] => (['\\'], [])
  | '\\' :: character :: rest =>
      let (content, after) := splitString quote rest
      ('\\' :: character :: content, after)
  | character :: rest =>
      if character == quote || character == '\n' then ([], character :: rest)
      else
        let (content, after) := splitString quote rest
        (character :: content, after)

/-- Splitting a string off loses no character. -/
@[simp] theorem splitString_append (quote : Char) (source : List Char) :
    (splitString quote source).1 ++ (splitString quote source).2 = source := by
  fun_induction splitString quote source <;> simp_all

/-- A decimal point and the digits behind it. -/
def splitFraction : List Char → List Char × List Char
  | '.' :: rest =>
      let (digits, after) := splitWhile Char.isDigit rest
      ('.' :: digits, after)
  | source => ([], source)

/-- Splitting a fraction off loses no character. -/
@[simp] theorem splitFraction_append (source : List Char) :
    (splitFraction source).1 ++ (splitFraction source).2 = source := by
  fun_cases splitFraction source
  · rename_i rest digits after split
    have whole := splitWhile_append Char.isDigit rest
    rw [split] at whole
    simpa using whole
  · rfl

/-- An exponent may have a sign. -/
def splitSign : List Char → List Char × List Char
  | '+' :: rest => (['+'], rest)
  | '-' :: rest => (['-'], rest)
  | source => ([], source)

/-- Splitting a sign off loses no character. -/
@[simp] theorem splitSign_append (source : List Char) :
    (splitSign source).1 ++ (splitSign source).2 = source := by
  fun_cases splitSign source <;> rfl

/-- An exponent letter, a sign and digits. The last two can be missing. -/
def splitExponent : List Char → List Char × List Char
  | [] => ([], [])
  | letter :: rest =>
      if letter == 'e' || letter == 'E' then
        let (sign, unsigned) := splitSign rest
        let (digits, after) := splitWhile Char.isDigit unsigned
        (letter :: sign ++ digits, after)
      else ([], letter :: rest)

/-- Splitting an exponent off loses no character. -/
@[simp] theorem splitExponent_append (source : List Char) :
    (splitExponent source).1 ++ (splitExponent source).2 = source := by
  fun_cases splitExponent source
  · rfl
  · rename_i letter rest isLetter sign unsigned signSplit digits after digitSplit
    have signWhole := splitSign_append rest
    have digitWhole := splitWhile_append Char.isDigit unsigned
    rw [signSplit] at signWhole
    rw [digitSplit] at digitWhole
    simp_all
  · rfl

/-- A decimal number has whole digits, a fraction and an exponent. -/
def splitDecimal (source : List Char) : List Char × List Char :=
  let (whole, fractional) := splitWhile Char.isDigit source
  let (fraction, exponential) := splitFraction fractional
  let (exponent, after) := splitExponent exponential
  (whole ++ fraction ++ exponent, after)

/-- Splitting a decimal number off loses no character. -/
@[simp] theorem splitDecimal_append (source : List Char) :
    (splitDecimal source).1 ++ (splitDecimal source).2 = source := by
  have whole := splitWhile_append Char.isDigit source
  have fraction := splitFraction_append (splitWhile Char.isDigit source).2
  have exponent := splitExponent_append (splitFraction (splitWhile Char.isDigit source).2).2
  simp only [splitDecimal, List.append_assoc]
  rw [exponent, fraction, whole]

/-- A number is hexadecimal when it starts with `0x`, and decimal otherwise. -/
def splitNumber : List Char → List Char × List Char
  | '0' :: 'x' :: rest =>
      let (digits, after) := splitWhile isHexDigit rest
      ('0' :: 'x' :: digits, after)
  | '0' :: 'X' :: rest =>
      let (digits, after) := splitWhile isHexDigit rest
      ('0' :: 'X' :: digits, after)
  | source => splitDecimal source

/-- Splitting a number off loses no character. -/
@[simp] theorem splitNumber_append (source : List Char) :
    (splitNumber source).1 ++ (splitNumber source).2 = source := by
  fun_cases splitNumber source
  · rename_i rest digits after split
    have whole := splitWhile_append isHexDigit rest
    rw [split] at whole
    simpa using whole
  · rename_i rest digits after split
    have whole := splitWhile_append isHexDigit rest
    rw [split] at whole
    simpa using whole
  · simp

/-- A number that starts with a digit has at least that digit. -/
theorem splitNumber_ne_nil {first : Char} {rest : List Char} (isDigit : first.isDigit = true) :
    (splitNumber (first :: rest)).1 ≠ [] := by
  unfold splitNumber
  split
  · simp
  · simp
  · simp [splitDecimal, splitWhile, isDigit]

/-- The longest mark that the text starts with, and the rest. -/
def splitPunctuator? : List Char → Option (Punctuator × List Char)
  | '\x7b' :: rest => some (.openBrace, rest)
  | '\x7d' :: rest => some (.closeBrace, rest)
  | '(' :: rest => some (.openParenthesis, rest)
  | ')' :: rest => some (.closeParenthesis, rest)
  | '[' :: rest => some (.openBracket, rest)
  | ']' :: rest => some (.closeBracket, rest)
  | ',' :: rest => some (.comma, rest)
  | ';' :: rest => some (.semicolon, rest)
  | ':' :: rest => some (.colon, rest)
  | '.' :: rest => some (.dot, rest)
  | '+' :: rest => some (.plus, rest)
  | '-' :: rest => some (.minus, rest)
  | '*' :: rest => some (.times, rest)
  | '/' :: rest => some (.divide, rest)
  | '=' :: '=' :: '=' :: rest => some (.strictEqual, rest)
  | '=' :: '=' :: rest => some (.equal, rest)
  | '=' :: rest => some (.assign, rest)
  | '!' :: '=' :: '=' :: rest => some (.strictNotEqual, rest)
  | '!' :: '=' :: rest => some (.notEqual, rest)
  | '!' :: rest => some (.not, rest)
  | '<' :: '=' :: rest => some (.lessEqual, rest)
  | '<' :: rest => some (.less, rest)
  | '>' :: '=' :: rest => some (.greaterEqual, rest)
  | '>' :: rest => some (.greater, rest)
  | '&' :: '&' :: rest => some (.and, rest)
  | '|' :: '|' :: rest => some (.or, rest)
  | _ => none

/-- The mark that is found stands at the front of the source. -/
theorem splitPunctuator?_append {source after : List Char} {mark : Punctuator}
    (found : splitPunctuator? source = some (mark, after)) :
    mark.text.toList ++ after = source := by
  unfold splitPunctuator? at found
  split at found <;> cases found <;> rfl

/-- What stands at the front of a source text. -/
inductive Front where
  | finish
  /-- Characters that separate tokens. -/
  | gap (read : List Char) (breaksLine : Bool) (rest : List Char)
  | token (lexeme : Lexeme) (read : List Char) (rest : List Char)
  | failure (cause : SyntaxError.Cause) (read : List Char)

/-- A string starts with its quote, which has been read. -/
def frontString (quote : Quote) (source : List Char) : Front :=
  match splitString quote.mark source with
  | (content, []) => .failure .unterminatedString (quote.mark :: content)
  | (content, mark :: rest) =>
      if mark == quote.mark then
        .token (.string (String.ofList content) quote) (quote.mark :: content ++ [mark]) rest
      else .failure .unterminatedString (quote.mark :: content)

/-- A front that is no gap, whose first character is given apart from the rest. -/
def frontToken (first : Char) (source : List Char) : Front :=
  if first == '"' then frontString .double source
  else if first == '\'' then frontString .single source
  else if first.isDigit then
    let (digits, rest) := splitNumber (first :: source)
    .token (.number (String.ofList digits)) digits rest
  else if Text.isIdentifierStart first then
    let (word, rest) := splitWhile Text.isIdentifierPart (first :: source)
    .token (.ofWord (String.ofList word)) word rest
  else
    match splitPunctuator? (first :: source) with
    | some (mark, rest) => .token (.punctuator mark) mark.text.toList rest
    | none => .failure (.unexpectedCharacter first) [first]

/-- A comment up to the end of the line breaks no line, and one between marks does if it holds
a line feed. -/
def front : List Char → Front
  | [] => .finish
  | '/' :: '/' :: source =>
      let (comment, rest) := splitWhile (· != '\n') source
      .gap ('/' :: '/' :: comment) false rest
  | '/' :: '*' :: source =>
      match splitComment? source with
      | some (comment, rest) => .gap ('/' :: '*' :: comment) (comment.contains '\n') rest
      | none => .failure .unterminatedComment ('/' :: '*' :: source)
  | first :: source =>
      if Text.isBlank first then .gap [first] (Text.isLineBreak first) source
      else frontToken first source

/-- A string that is read is a non-empty front of the source. -/
theorem frontString_append {quote : Quote} {source read rest : List Char} {lexeme : Lexeme}
    (found : frontString quote source = .token lexeme read rest) :
    read ++ rest = quote.mark :: source ∧ read ≠ [] := by
  have whole := splitString_append quote.mark source
  unfold frontString at found
  split at found
  · cases found
  · rename_i content mark after split
    split at found
    · cases found
      rw [split] at whole
      simp_all
    · cases found

/-- A token at the first character is a non-empty front of the source. -/
theorem frontToken_append {first : Char} {source read rest : List Char} {lexeme : Lexeme}
    (found : frontToken first source = .token lexeme read rest) :
    read ++ rest = first :: source ∧ read ≠ [] := by
  unfold frontToken at found
  split at found
  · rename_i isQuote
    have := frontString_append found
    simp_all [Quote.mark]
  split at found
  · rename_i isQuote
    have := frontString_append found
    simp_all [Quote.mark]
  split at found
  · rename_i isDigit
    cases found
    exact ⟨splitNumber_append _, splitNumber_ne_nil isDigit⟩
  split at found
  · rename_i starts
    cases found
    have whole := splitWhile_append Text.isIdentifierPart (first :: source)
    refine ⟨whole, ?_⟩
    simp [Text.isIdentifierPart_of_isIdentifierStart starts]
  split at found
  · rename_i mark after split
    cases found
    refine ⟨splitPunctuator?_append split, ?_⟩
    cases mark <;> decide
  · cases found

/-- A token that is read is a non-empty front of the source. -/
theorem front_token_append {source read rest : List Char} {lexeme : Lexeme}
    (found : front source = .token lexeme read rest) : read ++ rest = source ∧ read ≠ [] := by
  unfold front at found
  split at found
  · cases found
  · cases found
  · split at found <;> cases found
  · split at found
    · cases found
    · exact frontToken_append found

/-- Only blanks and comments are gaps. -/
theorem frontToken_ne_gap {first : Char} {source read rest : List Char} {breaksLine : Bool} :
    frontToken first source ≠ .gap read breaksLine rest := by
  unfold frontToken frontString
  repeat' split
  all_goals simp

/-- A gap that is passed over is a non-empty front of the source. -/
theorem front_gap_append {source read rest : List Char} {breaksLine : Bool}
    (found : front source = .gap read breaksLine rest) : read ++ rest = source ∧ read ≠ [] := by
  unfold front at found
  split at found
  · cases found
  · cases found
    simp
  · split at found
    · rename_i closed
      cases found
      simp [splitComment?_append closed]
    · cases found
  · split at found
    · cases found
      simp
    · exact absurd found frontToken_ne_gap

/-- Each step of the scanner leaves less to read. -/
theorem length_lt_of_append {read rest source : List Char}
    (whole : read ++ rest = source ∧ read ≠ []) : rest.length < source.length := by
  obtain ⟨rfl, nonempty⟩ := whole
  have := List.length_pos_iff.mpr nonempty
  simp
  omega

/-- No word is read as the end of the source. -/
theorem ofWord_ne_endOfSource (word : String) : Lexeme.ofWord word ≠ .endOfSource := by
  unfold Lexeme.ofWord
  split <;> simp

/-- A token at a character is not the end of the source. -/
theorem frontToken_lexeme {first : Char} {source read rest : List Char} {lexeme : Lexeme}
    (found : frontToken first source = .token lexeme read rest) : lexeme ≠ .endOfSource := by
  unfold frontToken frontString at found
  repeat' split at found
  all_goals cases found
  all_goals first | exact Lexeme.noConfusion | exact ofWord_ne_endOfSource _

/-- A token that is read is not the end of the source. -/
theorem front_token_lexeme {source read rest : List Char} {lexeme : Lexeme}
    (found : front source = .token lexeme read rest) : lexeme ≠ .endOfSource := by
  unfold front at found
  split at found
  · cases found
  · cases found
  · split at found <;> cases found
  · split at found
    · cases found
    · exact frontToken_lexeme found

/-- The tokens of a text that starts at the given offset. -/
def stream (source : List Char) (offset : Nat) (afterLineBreak : Bool) :
    Except SyntaxError TokenStream :=
  match found : front source with
  | .finish =>
      .ok ⟨[], ⟨.endOfSource, .ofOffsets offset offset, afterLineBreak⟩, by simp, rfl⟩
  | .gap read breaksLine rest =>
      stream rest (offset + Text.byteCount read) (afterLineBreak || breaksLine)
  | .token lexeme read rest =>
      let stop := offset + Text.byteCount read
      match stream rest stop false with
      | .ok following =>
          .ok (following.push ⟨lexeme, .ofOffsets offset stop, afterLineBreak⟩
            (front_token_lexeme found))
      | .error error => .error error
  | .failure cause read =>
      .error ⟨cause, .ofOffsets offset (offset + Text.byteCount read)⟩
termination_by source.length
decreasing_by
  · exact length_lt_of_append (front_gap_append found)
  · exact length_lt_of_append (front_token_append found)

end ScriptStrip.Scan

namespace ScriptStrip

/-- The tokens of a source text. -/
def TokenStream.ofSource (source : String) : Except SyntaxError TokenStream :=
  Scan.stream source.toList 0 false

end ScriptStrip
