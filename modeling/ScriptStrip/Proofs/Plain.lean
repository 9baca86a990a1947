import ScriptStrip.Proofs.PrintedSpacing
/-
This file says which words, numbers and strings a tree may be built of by hand, so that each of
them is a token of its own in every layout.
-/

namespace ScriptStrip

namespace Scan

/-- The numeric literals that are a token of their own. A point in front of all digits, other
radices than sixteen, separators and the letter behind a big integer belong to no token. -/
inductive IsNumeral : List Char → Prop where
  | plain {whole fraction : List Char} (nonempty : whole ≠ [])
      (allDigits : ∀ digit ∈ whole, digit.isDigit = true) (isFraction : IsFraction fraction) :
      IsNumeral (whole ++ fraction)
  | scaled {whole fraction sign power : List Char} {letter : Char} (nonempty : whole ≠ [])
      (allDigits : ∀ digit ∈ whole, digit.isDigit = true) (isFraction : IsFraction fraction)
      (isLetter : (letter == 'e' || letter == 'E') = true)
      (isSign : sign = [] ∨ sign = ['+'] ∨ sign = ['-']) (notEmpty : power ≠ [])
      (allPower : ∀ digit ∈ power, digit.isDigit = true) :
      IsNumeral (whole ++ fraction ++ (letter :: sign ++ power))
  | hexadecimal {letter : Char} {digits : List Char} (isLetter : letter = 'x' ∨ letter = 'X')
      (nonempty : digits ≠ []) (allDigits : ∀ digit ∈ digits, isHexDigit digit = true) :
      IsNumeral ('0' :: letter :: digits)

/-- A decimal number has no letter of a hexadecimal one in it. -/
theorem not_startsHex_of_parts {whole fraction exponent : List Char} (nonempty : whole ≠ [])
    (allDigits : ∀ digit ∈ whole, digit.isDigit = true) (isFraction : IsFraction fraction)
    (isExponent : IsExponent exponent) : startsHex (whole ++ fraction ++ exponent) = false := by
  have notDigit (letter : Char) (isLetter : letter = 'x' ∨ letter = 'X') :
      letter.isDigit = false := by
    rcases isLetter with rfl | rfl <;> rfl
  rw [Bool.eq_false_iff]
  intro isHex
  obtain ⟨letter, rest, source, isLetter⟩ := startsHex_iff.mp isHex
  obtain ⟨first, others, rfl⟩ := List.exists_cons_of_ne_nil nonempty
  have tail : others ++ (fraction ++ exponent) = letter :: rest := by
    simpa using (List.cons.inj source).2
  cases others with
  | cons second others =>
      obtain rfl : second = letter := (List.cons.inj tail).1
      have isDigit := allDigits second (by simp)
      rw [notDigit second isLetter] at isDigit
      cases isDigit
  | nil =>
      cases isFraction with
      | point =>
          obtain rfl : '.' = letter := (List.cons.inj tail).1
          rcases isLetter with isLetter | isLetter <;> cases isLetter
      | nothing =>
          rw [List.nil_append, List.nil_append] at tail
          subst tail
          have isExponentLetter := isExponent.isLetter
          rcases isLetter with rfl | rfl <;> cases isExponentLetter

/-- The last character of a decimal number that is a numeral is a digit or a point. -/
theorem IsNumeral.endsInExponentLetter_eq_false {digits : List Char} (isNumeral : IsNumeral digits) :
    endsInExponentLetter digits = false := by
  have ofDigit (last : Char) (isDigit : last.isDigit = true) :
      (last == 'e' || last == 'E') = false := by
    rw [Bool.or_eq_false_iff, beq_eq_false_iff_ne, beq_eq_false_iff_ne]
    constructor
    · rintro rfl
      cases isDigit
    · rintro rfl
      cases isDigit
  have ofLast {first rest : List Char} (nonempty : rest ≠ [])
      (last : ∀ digit ∈ rest, digit.isDigit = true ∨ digit = '.') :
      endsInExponentLetter (first ++ rest) = false := by
    obtain ⟨others, final, rfl⟩ := (List.eq_nil_or_concat rest).resolve_left nonempty
    rw [endsInExponentLetter, List.concat_eq_append, ← List.append_assoc, List.getLast?_concat,
      Option.any_some]
    rcases last final (by simp) with isDigit | rfl
    · rw [ofDigit final isDigit, Bool.and_false]
    · exact Bool.and_false _
  cases isNumeral with
  | @plain whole fraction nonempty allDigits isFraction =>
      cases isFraction with
      | nothing =>
          rw [List.append_nil, ← List.nil_append whole]
          exact ofLast nonempty fun digit inside => .inl (allDigits digit inside)
      | point allFraction =>
          apply ofLast (List.cons_ne_nil _ _)
          intro digit inside
          rcases List.mem_cons.mp inside with isPoint | inFraction
          · exact .inr isPoint
          · exact .inl (allFraction digit inFraction)
  | @scaled whole fraction sign power letter _ _ _ _ _ notEmpty allPower =>
      rw [← List.append_assoc]
      exact ofLast notEmpty fun digit inside => .inl (allPower digit inside)
  | hexadecimal isLetter =>
      rcases isLetter with rfl | rfl <;> rfl

/-- A numeral is read back whole, since every form stops at the next character. -/
theorem IsNumeral.isLegible {digits : String} (isNumeral : IsNumeral digits.toList) :
    (Lexeme.number digits).IsLegible := by
  have ofSplit {first : Char} {rest : List Char} (source : digits.toList = first :: rest)
      (isDigit : first.isDigit = true)
      (split : splitNumber digits.toList = (digits.toList, [])) :
      (Lexeme.number digits).IsLegible := by
    refine ⟨[], ?_⟩
    rw [source] at split
    rw [Lexeme.StopsBefore, Lexeme.text, List.append_nil, source, front_of_isDigit isDigit, split,
      ← source, String.ofList_toList]
  have ofParts {whole fraction exponent : List Char} (nonempty : whole ≠ [])
      (allDigits : ∀ digit ∈ whole, digit.isDigit = true) (isFraction : IsFraction fraction)
      (isExponent : IsExponent exponent) (notLetter : ∀ letter, exponent ≠ [letter])
      (source : digits.toList = whole ++ fraction ++ exponent) :
      (Lexeme.number digits).IsLegible := by
    obtain ⟨first, rest, rfl⟩ := List.exists_cons_of_ne_nil nonempty
    have ends : EndsWord [] := by simp [EndsWord]
    have split := splitDecimal_of_parts allDigits isFraction isExponent ends (by simp)
      (fun isLetter => absurd isLetter.choose_spec (notLetter _))
    rw [← splitNumber_of_not_startsHex (by
      rw [List.append_nil]
      exact not_startsHex_of_parts nonempty allDigits isFraction isExponent),
      List.append_nil, ← source] at split
    exact ofSplit source (allDigits first List.mem_cons_self) split
  generalize source : digits.toList = characters at isNumeral
  cases isNumeral with
  | @plain whole fraction nonempty allDigits isFraction =>
      rw [← List.append_nil (whole ++ fraction)] at source
      exact ofParts nonempty allDigits isFraction .nothing (by simp) source
  | scaled nonempty allDigits isFraction isLetter isSign notEmpty allPower =>
      apply ofParts nonempty allDigits isFraction (.letter isLetter isSign allPower) _ source
      intro letter
      simp [notEmpty]
  | @hexadecimal letter digits isLetter nonempty allDigits =>
      apply ofSplit source rfl
      have noMore : ∀ next ∈ ([] : List Char).head?, isHexDigit next = false := by simp
      have split := splitWhile_append_of_stops allDigits noMore
      rw [List.append_nil] at split
      rw [source]
      rcases isLetter with rfl | rfl
      · rw [splitNumber, split]
      · rw [splitNumber, split]

end Scan

/-- A name that is no keyword, a numeric literal, or a string that ends with its quotes. -/
def Lexeme.IsPlain : Lexeme → Prop
  | identifier name => Text.isIdentifier name = true ∧ Keyword.ofText? name = none
  | number digits => Scan.IsNumeral digits.toList
  | string content quote => (string content quote).StopsBefore []
  | keyword _ | punctuator _ => True
  | endOfSource => False

namespace Lexeme

/-- A plain token is read back from its own text. -/
theorem IsPlain.isLegible {lexeme : Lexeme} (isPlain : lexeme.IsPlain) : lexeme.IsLegible := by
  cases lexeme with
  | identifier name =>
      have isWord : ofWord name = identifier name := by rw [ofWord, isPlain.2]
      rw [← isWord]
      exact ⟨[], stopsBefore_ofWord isPlain.1 (by simp [Scan.EndsWord])⟩
  | number digits => exact Scan.IsNumeral.isLegible isPlain
  | string content quote => exact ⟨[], isPlain⟩
  | keyword word => exact isLegible_keyword word
  | punctuator mark => exact ⟨[], stopsBefore_punctuator (by simp)⟩
  | endOfSource => exact isPlain.elim

/-- A plain token can be written in either style. -/
theorem IsPlain.canWrite {lexeme : Lexeme} (style : Style) (isPlain : lexeme.IsPlain) :
    style.CanWrite lexeme := by
  refine ⟨isPlain.isLegible, .inr ?_⟩
  cases lexeme with
  | number digits => exact Scan.IsNumeral.endsInExponentLetter_eq_false isPlain
  | _ => rfl

/-- A property may have any identifier for a name, even one that is a keyword. -/
theorem isPlain_ofWord {word : String} (isWord : Text.isIdentifier word = true) :
    (ofWord word).IsPlain := by
  unfold ofWord
  split
  · exact trivial
  · rename_i notKeyword
    exact ⟨isWord, notKeyword⟩

end Lexeme

end ScriptStrip
