import ScriptStrip.Proofs.Neighbours
import ScriptStrip.Proofs.RoundTrip
/-
This file says when two equal signs stand side by side in the text that a pass leaves. Blanks keep
them apart in the pretty layout. In the other one, an operator has to be a sign, and the operand in
front of it has to end in the same sign or the operand behind it has to start with the same sign.
-/

namespace ScriptStrip

/-- Without blanks around it, the operator is a sign that touches an equal one. In front of it, this
can only be the sign of an exponent that has no digits. -/
def Expression.mergesSigns : Expression → Bool
  | .binary left operator right _ =>
      (operator == .add || operator == .subtract) &&
        ((operator.precedence ≤ left.precedence && left.lastNumber?.any fun digits =>
            digits.toList.getLast? == operator.mark.text.toList.head?) ||
          (!right.isSigned && operator.precedence + 1 ≤ right.precedence &&
            right.firstSign? == some operator.mark))
  | _ => false

namespace Text

/-- Two characters open and close strings. -/
def isQuote (character : Char) : Bool :=
  character == Quote.single.mark || character == Quote.double.mark

/-- The text without what stands between the marks of its strings. Inside a string, the mark that
ends it is given. -/
def outsideStrings : Option Char → List Char → List Char
  | _, [] => []
  | some quote, '\\' :: _ :: rest => outsideStrings (some quote) rest
  | some quote, character :: rest =>
      if character == quote then character :: outsideStrings none rest
      else outsideStrings (some quote) rest
  | none, character :: rest =>
      character :: outsideStrings (if isQuote character then some character else none) rest

/-- Two equal signs stand side by side in the text, but not in a string. -/
def MergesSigns (text : String) : Prop :=
  ∃ sign ∈ ['+', '-'], [sign, sign] <:+: outsideStrings none text.toList

/-- Characters that are no quotes stand outside of strings. -/
theorem outsideStrings_append {plain : List Char}
    (noQuote : ∀ character ∈ plain, isQuote character = false) (behind : List Char) :
    outsideStrings none (plain ++ behind) = plain ++ outsideStrings none behind := by
  induction plain with
  | nil => rfl
  | cons first plain step =>
      rw [List.forall_mem_cons] at noQuote
      rw [List.cons_append, outsideStrings, noQuote.1, if_neg Bool.false_ne_true, step noQuote.2,
        List.cons_append]

/-- A string is left with its second mark, behind which the text goes on. -/
theorem outsideStrings_string {quote : Char} (notEscape : quote ≠ '\\') {content behind : List Char}
    (split : Scan.splitString quote (content ++ quote :: behind) = (content, quote :: behind)) :
    outsideStrings (some quote) (content ++ quote :: behind) =
      quote :: outsideStrings none behind := by
  have ofPlain {character : Char} (plain : character ≠ '\\') (rest : List Char) :
      outsideStrings (some quote) (character :: rest) =
        if character == quote then character :: outsideStrings none rest
        else outsideStrings (some quote) rest := by
    rw [outsideStrings]
    exact fun _ _ isEscape => absurd isEscape plain
  match content with
  | [] => rw [List.nil_append, ofPlain notEscape, if_pos (beq_self_eq_true quote)]
  | first :: rest =>
      by_cases escapes : first = '\\'
      · subst escapes
        cases rest with
        | nil => simp [Scan.splitString_escape] at split
        | cons second rest =>
            simp only [List.cons_append, Scan.splitString_escape, Prod.mk.injEq, List.cons.injEq,
              true_and] at split
            rw [List.cons_append, List.cons_append, outsideStrings]
            exact outsideStrings_string notEscape (Prod.ext split.1 split.2)
      · rw [List.cons_append, Scan.splitString_plain escapes] at split
        rw [List.cons_append, ofPlain escapes]
        by_cases ends : (first == quote || first == '\n') = true
        · rw [if_pos ends] at split
          cases (Prod.mk.inj split).1
        · rw [if_neg ends] at split
          simp only [Prod.mk.injEq, List.cons.injEq, true_and] at split
          rw [Bool.or_eq_true, not_or] at ends
          rw [if_neg ends.1]
          exact outsideStrings_string notEscape (Prod.ext split.1 split.2)
termination_by content.length

/-- No character of a name is a quote. -/
theorem isQuote_of_isIdentifierPart {character : Char} (part : isIdentifierPart character = true) :
    isQuote character = false := by
  rw [isQuote, Bool.or_eq_false_iff, beq_eq_false_iff_ne, beq_eq_false_iff_ne]
  constructor
  all_goals
    rintro rfl
    cases part

/-- No blank is a quote. -/
theorem isQuote_of_isBlank {character : Char} (blank : isBlank character = true) :
    isQuote character = false := by
  rw [isQuote, Bool.or_eq_false_iff, beq_eq_false_iff_ne, beq_eq_false_iff_ne]
  constructor
  all_goals
    rintro rfl
    cases blank

end Text

/-- The mark is the sign. -/
inductive Punctuator.IsSign : Punctuator → Char → Prop
  | plus : IsSign .plus '+'
  | minus : IsSign .minus '-'

namespace Punctuator.IsSign

variable {mark : Punctuator} {sign : Char}

/-- Two marks are signs. -/
theorem mark_cases (isSign : mark.IsSign sign) : mark = .plus ∨ mark = .minus := by
  cases isSign
  · exact .inl rfl
  · exact .inr rfl

/-- Two characters are signs. -/
theorem sign_cases (isSign : mark.IsSign sign) : sign = '+' ∨ sign = '-' := by
  cases isSign
  · exact .inl rfl
  · exact .inr rfl

/-- A sign is written as one character. -/
theorem text_eq (isSign : mark.IsSign sign) : mark.text.toList = [sign] := by
  cases isSign <;> rfl

/-- A sign is no part of a name. -/
theorem not_isIdentifierPart (isSign : mark.IsSign sign) : Text.isIdentifierPart sign = false := by
  cases isSign <;> rfl

/-- A sign is no digit. -/
theorem not_isDigit (isSign : mark.IsSign sign) : sign.isDigit = false := by
  cases isSign <;> rfl

/-- A sign is no blank. -/
theorem not_isBlank (isSign : mark.IsSign sign) : Text.isBlank sign = false := by
  cases isSign <;> rfl

end Punctuator.IsSign

/-- Each of the two marks is a sign. -/
theorem Punctuator.exists_isSign {mark : Punctuator} (isMark : mark = .plus ∨ mark = .minus) :
    ∃ sign, mark.IsSign sign := by
  rcases isMark with rfl | rfl
  · exact ⟨'+', .plus⟩
  · exact ⟨'-', .minus⟩

/-- A text merges signs if one of them stands twice in a row outside of strings. -/
theorem Text.mergesSigns_iff {text : String} : MergesSigns text ↔
    ∃ mark sign, Punctuator.IsSign mark sign ∧
      [sign, sign] <:+: outsideStrings none text.toList := by
  constructor
  · rintro ⟨sign, isSign, merged⟩
    rcases List.mem_pair.mp isSign with rfl | rfl
    · exact ⟨.plus, '+', .plus, merged⟩
    · exact ⟨.minus, '-', .minus, merged⟩
  · rintro ⟨mark, sign, isSign, merged⟩
    exact ⟨sign, List.mem_pair.mpr isSign.sign_cases, merged⟩

namespace Lexeme

variable {lexeme : Lexeme}

/-- The characters of the token that are not inside of a string. -/
def outside : Lexeme → List Char
  | string _ quote => [quote.mark, quote.mark]
  | lexeme => lexeme.text.toList

/-- The kinds of tokens. What is no string, mark or number is a word. -/
theorem IsLegible.text_cases (legible : lexeme.IsLegible) :
    (∃ content quote, lexeme = .string content quote) ∨ (∃ mark, lexeme = .punctuator mark) ∨
      (∃ digits, lexeme = .number digits) ∨
      (lexeme.outside = lexeme.text.toList ∧
        ∀ character ∈ lexeme.text.toList, Text.isIdentifierPart character = true) := by
  obtain ⟨behind, stops⟩ := legible
  rcases Scan.front_token_cases stops with ⟨quote, content, rfl, _⟩ |
    ⟨_, _, _, _, isNumber, _⟩ | ⟨_, _, _, _, isWord, split⟩ | ⟨mark, rfl, _⟩
  · exact .inl ⟨_, _, rfl⟩
  · exact .inr (.inr (.inl ⟨_, isNumber⟩))
  · refine .inr (.inr (.inr ⟨?_, Scan.all_of_splitWhile split⟩))
    rw [isWord]
    unfold ofWord
    split <;> rfl
  · exact .inr (.inl ⟨_, rfl⟩)

/-- A number is a word and an exponent, whose sign is the only one in it. -/
theorem IsLegible.number_characters {digits : String} (legible : (number digits).IsLegible) :
    ∃ word exponent, digits.toList = word ++ exponent ∧
      (∀ character ∈ word, Text.isIdentifierPart character = true ∨ character = '.') ∧
      (exponent = [] ∨ ∃ sign digits, exponent = sign :: digits ∧ (sign = '+' ∨ sign = '-') ∧
        ∀ digit ∈ digits, digit.isDigit = true) := by
  obtain ⟨behind, stops⟩ := legible
  obtain ⟨_, _, _, _, split⟩ := stops.splitNumber
  obtain ⟨word, exponent, isRead, ofWord, isExponent⟩ :=
    Scan.splitNumber_characters (digits.toList ++ behind)
  rw [split] at isRead
  exact ⟨word, exponent, isRead, ofWord, isExponent⟩

/-- The text goes on behind the token outside of strings. -/
theorem IsLegible.outsideStrings (legible : lexeme.IsLegible) (behind : List Char) :
    Text.outsideStrings none (lexeme.text.toList ++ behind) =
      lexeme.outside ++ Text.outsideStrings none behind := by
  rcases legible.text_cases with ⟨content, quote, rfl⟩ | ⟨mark, rfl⟩ | ⟨digits, rfl⟩ |
    ⟨isOutside, allParts⟩
  · have stops : (string content quote).StopsBefore behind := stopsBefore_string legible
    have notEscape : quote.mark ≠ '\\' := by cases quote <;> decide
    have isMark : Text.isQuote quote.mark = true := by cases quote <;> rfl
    have isText : (string content quote).text.toList ++ behind =
        quote.mark :: (content.toList ++ quote.mark :: behind) := by
      simp [text]
    rw [isText, Text.outsideStrings, if_pos isMark,
      Text.outsideStrings_string notEscape stops.splitString]
    rfl
  · apply Text.outsideStrings_append
    cases mark <;> simp [text, Punctuator.text, Text.isQuote, Quote.mark]
  · apply Text.outsideStrings_append
    intro character inside
    obtain ⟨before, stops⟩ := legible
    obtain ⟨_, _, _, _, split⟩ := stops.splitNumber
    have isRead : digits.toList = (Scan.splitNumber (digits.toList ++ before)).1 := by rw [split]
    rw [text, isRead] at inside
    rcases Scan.mem_splitNumber inside with part | isMark
    · exact Text.isQuote_of_isIdentifierPart part
    · have noQuotes : ['.', '+', '-'].all (!Text.isQuote ·) = true := by rfl
      have noQuote := List.all_eq_true.mp noQuotes character isMark
      rwa [Bool.not_eq_true'] at noQuote
  · rw [isOutside]
    apply Text.outsideStrings_append
    exact fun character inside => Text.isQuote_of_isIdentifierPart (allParts character inside)

/-- Outside of strings each token shows at least one character. -/
theorem IsLegible.outside_ne_nil (legible : lexeme.IsLegible) : lexeme.outside ≠ [] := by
  obtain ⟨behind, stops⟩ := legible
  cases lexeme with
  | string content quote => exact List.cons_ne_nil _ _
  | _ => exact (Scan.front_token_append stops).2

section

variable {mark : Punctuator} {sign : Char}

/-- Only the mark itself and numbers are written with a sign. -/
theorem IsLegible.cases_of_mem (legible : lexeme.IsLegible) (isSign : mark.IsSign sign)
    (inside : sign ∈ lexeme.outside) :
    lexeme = .punctuator mark ∨ ∃ digits, lexeme = .number digits := by
  rcases legible.text_cases with ⟨content, quote, rfl⟩ | ⟨other, rfl⟩ | ⟨digits, rfl⟩ |
    ⟨isOutside, allParts⟩
  · have isQuote : sign = quote.mark := by simpa [outside] using inside
    cases isSign <;> cases quote <;> cases isQuote
  · left
    have isText : sign ∈ other.text.toList := inside
    cases isSign <;> cases other <;> first | rfl | simp [Punctuator.text] at isText
  · exact .inr ⟨digits, rfl⟩
  · have part := allParts sign (isOutside ▸ inside)
    rw [isSign.not_isIdentifierPart] at part
    cases part

/-- No token has two equal signs side by side. -/
theorem IsLegible.not_merged (legible : lexeme.IsLegible) (isSign : mark.IsSign sign) :
    ¬ [sign, sign] <:+: lexeme.outside := by
  have notIn {characters : List Char} (noSign : sign ∉ characters) :
      ¬ [sign, sign] <:+: characters :=
    fun merged => noSign (merged.mem List.mem_cons_self)
  intro merged
  rcases legible.cases_of_mem isSign (merged.mem List.mem_cons_self) with rfl | ⟨digits, rfl⟩
  · have isOutside : (punctuator mark).outside = [sign] := isSign.text_eq
    rw [isOutside] at merged
    exact absurd merged.length_le (by simp)
  · obtain ⟨word, exponent, isText, ofWord, isExponent⟩ := legible.number_characters
    have isOutside : (number digits).outside = word ++ exponent := isText
    have notInWord : sign ∉ word := by
      intro inside
      rcases ofWord sign inside with part | rfl
      · rw [isSign.not_isIdentifierPart] at part
        cases part
      · cases isSign
    rw [isOutside, pair_infix_append_iff] at merged
    rcases merged with inWord | inExponent | meets
    · exact notIn notInWord inWord
    · rcases isExponent with rfl | ⟨first, power, rfl, _, allDigits⟩
      · simp at inExponent
      · have notInPower : sign ∉ power := by
          intro inside
          have isDigit := allDigits sign inside
          rw [isSign.not_isDigit] at isDigit
          cases isDigit
        rcases pair_infix_cons_iff.mp inExponent with meets | inPower
        · exact notInPower (List.mem_of_head? meets.2)
        · exact notIn notInPower inPower
    · exact notInWord (List.mem_of_getLast? meets.1)

/-- The first character of a token stands outside of strings. -/
theorem head?_outside (lexeme : Lexeme) : lexeme.outside.head? = lexeme.text.toList.head? := by
  cases lexeme with
  | string content quote => simp [outside, text]
  | _ => rfl

/-- Only a sign starts with a sign. -/
theorem IsLegible.eq_mark (legible : lexeme.IsLegible) (isSign : mark.IsSign sign)
    (starts : lexeme.outside.head? = some sign) : lexeme = .punctuator mark := by
  have isFirst : (lexeme.text.toList ++ []).head? = some sign := by
    rw [List.append_nil, ← head?_outside, starts]
  have isEither : lexeme = .punctuator .plus ∨ lexeme = .punctuator .minus := by
    cases isSign
    · exact legible.eq_sign (.inl isFirst)
    · exact legible.eq_sign (.inr isFirst)
  rcases isEither with rfl | rfl <;> cases isSign <;> first | rfl | cases starts

/-- Only a sign, or a number with an exponent letter, can be near to a sign at its end. -/
theorem IsLegible.nears (legible : lexeme.IsLegible) (isSign : mark.IsSign sign)
    (ends : lexeme.outside.getLast? = some sign) : lexeme.Nears mark :=
  ⟨isSign.mark_cases, legible.cases_of_mem isSign (List.mem_of_getLast? ends)⟩

end

end Lexeme

/-- Two neighbours in lists that follow each other are neighbours in one of the lists, or one list
ends in the first of them and the next list starts with the second. -/
theorem pair_infix_flatMap_iff {α β : Type} {first second : β} {items : List α} {f : α → List β}
    (nonempty : ∀ item ∈ items, f item ≠ []) :
    [first, second] <:+: items.flatMap f ↔
      (∃ item ∈ items, [first, second] <:+: f item) ∨
        ∃ item next, [item, next] <:+: items ∧ (f item).getLast? = some first ∧
          (f next).head? = some second := by
  induction items with
  | nil => simp
  | cons item items step =>
      rw [List.forall_mem_cons] at nonempty
      have isNext : (items.flatMap f).head? = some second ↔
          ∃ next, items.head? = some next ∧ (f next).head? = some second := by
        cases items with
        | nil => simp
        | cons next items =>
            rw [List.flatMap_cons, List.head?_append_of_ne_nil _
              (nonempty.2 next List.mem_cons_self)]
            simp
      rw [List.flatMap_cons, pair_infix_append_iff, step nonempty.2, isNext]
      simp only [List.exists_mem_cons_iff, pair_infix_cons_iff]
      grind

namespace Piece

/-- What a piece shows outside of strings is its text, or the quotes of a string. -/
def outside : Piece → List Char
  | token lexeme => lexeme.outside
  | blank text => text.toList

variable {style : Style} {good : Lexeme → Prop} {pieces : List Piece}

/-- What a text shows outside of strings is shown by its pieces. -/
theorem outsideStrings_characters (legible : ∀ lexeme, token lexeme ∈ pieces → lexeme.IsLegible)
    (allBlank : ∀ text, blank text ∈ pieces → ∀ character ∈ text.toList,
      Text.isBlank character = true) :
    Text.outsideStrings none (characters pieces) = pieces.flatMap outside := by
  induction pieces with
  | nil => rfl
  | cons piece pieces step =>
      have ofRest := step (fun lexeme inside => legible lexeme (List.mem_cons_of_mem _ inside))
        (fun text inside => allBlank text (List.mem_cons_of_mem _ inside))
      rw [characters_cons, List.flatMap_cons]
      cases piece with
      | token lexeme =>
          have ofFirst := (legible lexeme List.mem_cons_self).outsideStrings (characters pieces)
          rw [text, ofFirst, ofRest, outside]
      | blank text =>
          have noQuote : ∀ character ∈ text.toList, Text.isQuote character = false :=
            fun character inside =>
              Text.isQuote_of_isBlank (allBlank text List.mem_cons_self character inside)
          rw [Piece.text, Text.outsideStrings_append noQuote, ofRest, outside]

/-- Two equal signs stand side by side in the text of well-kept pieces where the mark has the other
sign right in front of it. -/
theorem Kept.merged_iff {mark : Punctuator} {sign : Char} (legible : Lexeme.AreLegible good)
    (blank : style.IndentsByBlanks) (indents : style.pretty = true → style.indent ≠ "")
    (isSign : mark.IsSign sign) {behind : List Char} (kept : Kept style good behind pieces) :
    [sign, sign] <:+: Text.outsideStrings none (characters pieces) ↔
      ∃ first : Lexeme, first.Nears mark ∧ first.outside.getLast? = some sign ∧
        Touch first (.punctuator mark) pieces := by
  have areLegible := kept.isLegible legible
  have areBlank := kept.isBlank
  have notBlank {text : String} (inside : .blank text ∈ pieces) : sign ∉ text.toList := by
    intro isInside
    have isBlank := (areBlank text inside).allBlank blank sign isInside
    rw [isSign.not_isBlank] at isBlank
    cases isBlank
  have nonempty : ∀ piece ∈ pieces, piece.outside ≠ [] := by
    intro piece inside
    cases piece with
    | token lexeme => exact (areLegible lexeme inside).outside_ne_nil
    | blank text =>
        have isText : text ≠ "" := by
          rcases areBlank text inside with rfl | ⟨isPretty, rfl | rfl⟩
          · decide
          · decide
          · exact indents isPretty
        rwa [outside, Ne, String.toList_eq_nil_iff]
  -- Two signs in a row stand in one piece or where two pieces meet. No piece holds both of them.
  rw [outsideStrings_characters areLegible fun text inside => (areBlank text inside).allBlank blank,
    pair_infix_flatMap_iff nonempty]
  constructor
  · rintro (⟨piece, inside, merged⟩ | ⟨piece, next, touch, ends, starts⟩)
    · cases piece with
      | token lexeme => exact absurd merged ((areLegible lexeme inside).not_merged isSign)
      | blank text => exact absurd (merged.mem List.mem_cons_self) (notBlank inside)
    · have inside : piece ∈ pieces := touch.mem List.mem_cons_self
      have isNext : next ∈ pieces := touch.mem (List.mem_cons_of_mem _ List.mem_cons_self)
      cases piece with
      | blank text => exact absurd (List.mem_of_getLast? ends) (notBlank inside)
      | token first =>
          cases next with
          | blank text => exact absurd (List.mem_of_head? starts) (notBlank isNext)
          | token second =>
              obtain rfl := (areLegible second isNext).eq_mark isSign starts
              exact ⟨first, (areLegible first inside).nears isSign ends, ends, touch⟩
  · rintro ⟨first, _, ends, touch⟩
    refine .inr ⟨_, _, touch, ends, ?_⟩
    cases isSign <;> rfl

end Piece

/-- An expression merges signs exactly if two tokens meet in it of which the first ends in the
sign. -/
theorem Expression.mergesSigns_iff (expression : Expression) :
    expression.mergesSigns = true ↔ ∃ mark sign, Punctuator.IsSign mark sign ∧
      ∃ first : Lexeme, first.Nears mark ∧ first.outside.getLast? = some sign ∧
        expression.Meets first mark := by
  cases expression with
  | binary left operator right span =>
      rw [mergesSigns, Bool.and_eq_true, operator.isSign_iff, Bool.or_eq_true, Bool.and_eq_true,
        Bool.and_eq_true, Bool.and_eq_true, decide_eq_true_eq, decide_eq_true_eq,
        Option.any_eq_true, beq_iff_eq, Bool.not_eq_true']
      constructor
      · rintro ⟨isMark, merges⟩
        obtain ⟨sign, isSign⟩ := Punctuator.exists_isSign isMark
        refine ⟨operator.mark, sign, isSign, ?_⟩
        rcases merges with ⟨tight, digits, isLast, ends⟩ | ⟨⟨notSigned, tight⟩, isFirst⟩
        · rw [isSign.text_eq, beq_iff_eq] at ends
          refine ⟨.number digits, ⟨isMark, .inr ⟨digits, rfl⟩⟩, ends, rfl, .inl ⟨tight, ?_⟩⟩
          rw [isLast, Option.map_some]
        · refine ⟨.punctuator operator.mark, ⟨isMark, .inl rfl⟩, ?_, rfl,
            .inr ⟨rfl, notSigned, tight, isFirst⟩⟩
          rw [Lexeme.outside, Lexeme.text, isSign.text_eq, List.getLast?_singleton]
          exact fun _ _ => Lexeme.noConfusion
      · rintro ⟨mark, sign, isSign, first, nears, ends, rfl, ⟨tight, isLast⟩ |
          ⟨rfl, notSigned, tight, isFirst⟩⟩
        · obtain ⟨digits, isNumber, rfl⟩ := Option.map_eq_some_iff.mp isLast
          refine ⟨isSign.mark_cases, .inl ⟨tight, digits, isNumber, ?_⟩⟩
          rw [isSign.text_eq, beq_iff_eq]
          exact ends
        · exact ⟨isSign.mark_cases, .inr ⟨⟨notSigned, tight⟩, isFirst⟩⟩
  | _ => simp [mergesSigns, Meets]

namespace Script

variable {script : Script} {style : Style}

/-- Only where no blanks stand around operators, two equal signs can stand side by side. -/
theorem mergesSigns_print_iff (blank : style.IndentsByBlanks)
    (indents : style.pretty = true → style.indent ≠ "") (formed : script.Formed Lexeme.IsLegible) :
    Text.MergesSigns (script.print style) ↔ style.pretty = false ∧
      ∃ expression, (Node.expression expression).IsBelow (.script script) ∧
        expression.mergesSigns = true := by
  have legible : Lexeme.AreLegible Lexeme.IsLegible := fun _ isLegible => isLegible
  have kept : Piece.Kept style Lexeme.IsLegible [] (script.pieces style 0) :=
    script.kept_pieces legible 0 formed
  rw [Text.mergesSigns_iff, print, Piece.toList_render]
  constructor
  · rintro ⟨mark, sign, isSign, merged⟩
    obtain ⟨first, nears, ends, touch⟩ := (kept.merged_iff legible blank indents isSign).mp merged
    obtain ⟨notPretty, inner, isInner, meets⟩ :=
      (Node.touch_iff nears style 0 (.script script)).mp touch
    refine ⟨notPretty, ?_⟩
    cases inner with
    | expression expression =>
        exact ⟨expression, isInner.resolve_left Node.noConfusion,
          expression.mergesSigns_iff.mpr ⟨mark, sign, isSign, first, nears, ends, meets⟩⟩
    | _ => cases meets
  · rintro ⟨notPretty, expression, below, merges⟩
    obtain ⟨mark, sign, isSign, first, nears, ends, meets⟩ := expression.mergesSigns_iff.mp merges
    refine ⟨mark, sign, isSign, (kept.merged_iff legible blank indents isSign).mpr
      ⟨first, nears, ends, ?_⟩⟩
    exact (Node.touch_iff nears style 0 (.script script)).mpr
      ⟨notPretty, .expression expression, .inr below, meets⟩

/-- In the pretty text of what a pass leaves, no two equal signs stand side by side. In the text
without needless blanks, they do so where an operator touches an equal sign. -/
theorem mergesSigns_rewrite_iff {source : String} (accepted : parse source = .ok script)
    (configuration : Configuration) :
    ¬ Text.MergesSigns ((script.rewrite configuration).1.print .standard) ∧
      (Text.MergesSigns ((script.rewrite configuration).1.print .minified) ↔
        ∃ expression, (Node.expression expression).IsBelow
            (.script (script.rewrite configuration).1) ∧ expression.mergesSigns = true) := by
  obtain ⟨stream, rest, scanned, reads⟩ := parse_eq_ok_iff.mp accepted
  obtain ⟨wellShaped, spelled⟩ := spelledBy_of_reads reads
  have legible : Lexeme.AreLegible Lexeme.IsLegible := fun _ isLegible => isLegible
  have formed := script.formed_rewrite configuration
    (spelled.formed wellShaped (Scan.allGood_of_stream scanned) legible.tellsNames)
  have ofStandard := mergesSigns_print_iff Style.indentsByBlanks_standard (by decide) formed
  have ofMinified := mergesSigns_print_iff Style.indentsByBlanks_minified (by decide) formed
  constructor
  · rw [ofStandard]
    exact fun merged => Bool.noConfusion merged.1
  · rw [ofMinified]
    exact and_iff_right rfl

/-- The argument of an assertion becomes an operand that starts with a sign. -/
theorem mergesSigns_rewrite_iff_assertion : ∃ script, parse "a=b-dev.assert(-c);" = .ok script ∧
    ¬ Text.MergesSigns ((script.rewrite .production).1.print .standard) ∧
      (Text.MergesSigns ((script.rewrite .production).1.print .minified) ↔
        ∃ expression, (Node.expression expression).IsBelow
            (.script (script.rewrite .production).1) ∧ expression.mergesSigns = true) := by
  have accepted : (parse "a=b-dev.assert(-c);").isOk = true := by cbv
  cases parsed : parse "a=b-dev.assert(-c);" with
  | error error =>
      rw [parsed] at accepted
      cases accepted
  | ok script => exact ⟨script, rfl, mergesSigns_rewrite_iff parsed .production⟩

/-- The right operand is no sign by itself, but it starts with one. -/
theorem exists_parse_mergesSigns : ∃ script, parse "a - -b * c" = .ok script ∧
    (script.rewrite .production).1.print .minified = "a--b*c;" ∧ Text.MergesSigns "a--b*c;" := by
  refine ⟨⟨[.expression (.binary (.reference "a" ⟨0, 1⟩) .subtract (.binary
    (.unary .negate (.reference "b" ⟨5, 6⟩) ⟨4, 6⟩) .multiply (.reference "c" ⟨9, 10⟩) ⟨4, 10⟩)
    ⟨0, 10⟩) ⟨0, 10⟩], ⟨0, 10⟩⟩, ?_, ?_, '-', ?_, ['a'], ['b', '*', 'c', ';'], ?_⟩
  · cbv
  · cbv
  · decide
  · cbv

end Script

end ScriptStrip
