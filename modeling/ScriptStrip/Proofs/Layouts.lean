import ScriptStrip.Proofs.Neighbours
import ScriptStrip.Proofs.Parting
import ScriptStrip.Proofs.PrintedTokens
/-
This file compares the layouts of a script. They have the same tokens, and without blanks between
them these are read again unless a sign follows a number that has an exponent letter for its end.
-/

namespace ScriptStrip

/-- Without a blank in front of it, the operator is read as the sign of the exponent that the number
in front of it lacks. -/
def Expression.extendsNumber : Expression → Bool
  | .binary left operator _ _ =>
      (operator == .add || operator == .subtract) && operator.precedence ≤ left.precedence &&
        left.lastNumber?.any fun digits => Scan.endsInExponentLetter digits.toList
  | _ => false

namespace Scan

/-- Behind an exponent letter come a sign and digits, or nothing at all. -/
theorem splitExponent_cons {letter : Char} (isLetter : (letter == 'e' || letter == 'E') = true)
    (rest : List Char) : splitExponent (letter :: rest) =
      (letter :: ((splitSign rest).1 ++ (splitWhile Char.isDigit (splitSign rest).2).1),
        (splitWhile Char.isDigit (splitSign rest).2).2) := by
  rw [splitExponent, if_pos isLetter]
  rfl

/-- An exponent letter without an exponent is not followed by a sign. -/
theorem splitExponent_letter {source behind : List Char} {letter : Char}
    (split : splitExponent source = ([letter], behind)) :
    behind.head? ≠ some '+' ∧ behind.head? ≠ some '-' := by
  cases source with
  | nil => cases (Prod.mk.inj split).1
  | cons first rest =>
      by_cases isLetter : (first == 'e' || first == 'E') = true
      · rw [splitExponent_cons isLetter, Prod.mk.injEq, List.cons.injEq,
          List.append_eq_nil_iff] at split
        obtain ⟨⟨_, noSign, noDigits⟩, isBehind⟩ := split
        have whole := splitSign_append rest
        have after := splitWhile_append Char.isDigit (splitSign rest).2
        rw [noDigits, isBehind, List.nil_append] at after
        rw [noSign, ← after, List.nil_append] at whole
        subst whole
        constructor
        · intro isPlus
          obtain ⟨others, rfl⟩ := List.head?_eq_some_iff.mp isPlus
          cases noSign
        · intro isMinus
          obtain ⟨others, rfl⟩ := List.head?_eq_some_iff.mp isMinus
          cases noSign
      · rw [splitExponent, if_neg isLetter] at split
        cases (Prod.mk.inj split).1

/-- The number has an exponent letter for its end, so no digits and no sign stand behind it. -/
theorem IsExponent.eq_letter {whole fraction exponent : List Char} {last : Char}
    (allDigits : ∀ digit ∈ whole, digit.isDigit = true) (isFraction : IsFraction fraction)
    (isExponent : IsExponent exponent)
    (isLast : (whole ++ fraction ++ exponent).getLast? = some last)
    (isLetter : (last == 'e' || last == 'E') = true) : ∃ letter, exponent = [letter] := by
  have notDigit : last.isDigit = false := by
    rcases Bool.or_eq_true_iff.mp isLetter with same | same <;>
      · rw [beq_iff_eq.mp same]
        rfl
  -- A letter is no digit, so it is not the last character of any digits.
  have notInside {digits : List Char} (all : ∀ digit ∈ digits, digit.isDigit = true) :
      last ∉ digits := by
    intro inside
    rw [all last inside] at notDigit
    cases notDigit
  cases isExponent with
  | nothing =>
      have inside := List.mem_of_getLast? isLast
      rw [List.append_nil, List.mem_append] at inside
      rcases inside with inWhole | inFraction
      · exact absurd inWhole (notInside allDigits)
      · cases isFraction with
        | nothing => cases inFraction
        | point allFraction =>
            rcases List.mem_cons.mp inFraction with rfl | inDigits
            · cases isLetter
            · exact absurd inDigits (notInside allFraction)
  | @letter letter sign digits _ isSign allPower =>
      rw [← List.append_assoc, List.getLast?_append] at isLast
      cases shape : digits.getLast? with
      | some final =>
          rw [shape, Option.some_or, Option.some.injEq] at isLast
          subst isLast
          exact absurd (List.mem_of_getLast? shape) (notInside allPower)
      | none =>
          obtain rfl := List.getLast?_eq_none_iff.mp shape
          rcases isSign with rfl | rfl | rfl
          · exact ⟨letter, rfl⟩
          · simp at isLast
            subst isLast
            cases isLetter
          · simp at isLast
            subst isLast
            cases isLetter

/-- A sign behind the exponent letter of a number belongs to the number. -/
theorem splitNumber_letter {source digits behind : List Char}
    (split : splitNumber source = (digits, behind))
    (endsInLetter : endsInExponentLetter digits = true) :
    behind.head? ≠ some '+' ∧ behind.head? ≠ some '-' := by
  rw [endsInExponentLetter, Bool.and_eq_true, Bool.not_eq_true'] at endsInLetter
  obtain ⟨notHex, isLetter⟩ := endsInLetter
  obtain ⟨last, isLast, isLastLetter⟩ := (Option.any_eq_true _ _).mp isLetter
  have notHexSource : startsHex source = false := by
    rw [Bool.eq_false_iff]
    intro isHex
    have stillHex := startsHex_splitNumber isHex
    rw [split, notHex] at stillHex
    cases stillHex
  rw [splitNumber_of_not_startsHex notHexSource] at split
  obtain ⟨rfl, isBehind⟩ := Prod.mk.inj split
  obtain ⟨letter, isExponent⟩ := IsExponent.eq_letter (all_of_splitWhile rfl)
    (isFraction_of_split rfl) (isExponent_of_split rfl) isLast isLastLetter
  exact splitExponent_letter (Prod.ext isExponent isBehind)

end Scan

namespace Lexeme

variable {lexeme : Lexeme} {behind : List Char}

/-- A number that ends in an exponent letter is near to a sign. -/
theorem nears_of_endsInExponentLetter {sign : Punctuator}
    (endsInLetter : lexeme.endsInExponentLetter = true) (isSign : sign = .plus ∨ sign = .minus) :
    lexeme.Nears sign := by
  cases lexeme with
  | number digits => exact ⟨isSign, .inr ⟨digits, rfl⟩⟩
  | _ => cases endsInLetter

/-- A sign behind an exponent letter is read on as part of the number. -/
theorem not_stopsBefore_sign (endsInLetter : lexeme.endsInExponentLetter = true)
    (isSign : behind.head? = some '+' ∨ behind.head? = some '-') :
    ¬ lexeme.StopsBefore behind := by
  intro stops
  cases lexeme with
  | number digits =>
      obtain ⟨_, _, _, _, split⟩ := stops.splitNumber
      obtain ⟨notPlus, notMinus⟩ := Scan.splitNumber_letter split endsInLetter
      exact isSign.elim notPlus notMinus
  | _ => cases endsInLetter

end Lexeme

namespace Piece

variable {style : Style} {good : Lexeme → Prop} {behind : List Char} {pieces : List Piece}

/-- Without blanks between them, only a sign can start with a sign. -/
theorem Kept.head?_of_sign (legible : Lexeme.AreLegible good) (notPretty : style.pretty = false)
    (kept : Kept style good [] pieces) (isSign : (characters pieces).head? = some '+' ∨
      (characters pieces).head? = some '-') :
    ∃ sign, (sign = .plus ∨ sign = .minus) ∧ pieces.head? = some (ofMark sign) := by
  cases pieces with
  | nil => simp at isSign
  | cons piece pieces =>
      cases piece with
      | blank text =>
          obtain rfl : text = " " := by simpa [Style.IsBlank, notPretty] using kept.1
          rcases isSign with isSign | isSign <;> cases isSign
      | token lexeme =>
          rcases (kept.isLegible legible lexeme List.mem_cons_self).eq_sign isSign with rfl | rfl
          · exact ⟨.plus, .inl rfl, rfl⟩
          · exact ⟨.minus, .inr rfl, rfl⟩

/-- All tokens end where they should if and only if no number with an exponent letter for its end
touches a sign. -/
theorem Kept.spaced_iff (legible : Lexeme.AreLegible good) (blank : style.IndentsByBlanks)
    (kept : Kept style good [] pieces) :
    Spaced [] pieces ↔ ∀ first sign, first.endsInExponentLetter = true →
      (sign = .plus ∨ sign = .minus) → ¬ Touch first (.punctuator sign) pieces := by
  induction pieces with
  | nil => simp [touch_nil]
  | cons piece pieces step =>
      cases piece with
      | blank text =>
          have skipped (first second : Lexeme) :
              Touch first second (.blank text :: pieces) ↔ Touch first second pieces := by
            simp [touch_cons_iff]
          rw [spaced_blank_iff, and_iff_right (kept.1.allBlank blank), step kept.2]
          simp only [skipped]
      | token lexeme =>
          rw [spaced_token_iff, step kept.2, List.append_nil]
          constructor
          · rintro ⟨stops, apart⟩ first sign endsInLetter isSign touch
            rcases touch_cons_iff.mp touch with ⟨isFirst, isNext⟩ | later
            · obtain rfl := Piece.token.inj isFirst
              obtain ⟨rest, rfl⟩ := List.head?_eq_some_iff.mp isNext
              refine Lexeme.not_stopsBefore_sign endsInLetter ?_ stops
              rcases isSign with rfl | rfl
              · exact .inl rfl
              · exact .inr rfl
            · exact apart first sign endsInLetter isSign later
          · intro apart
            refine ⟨?_, fun first sign endsInLetter isSign touch =>
              apart first sign endsInLetter isSign (touch_cons_iff.mpr (.inr touch))⟩
            rcases kept.1 with stops | ⟨notPretty, _, endsInLetter, isNext⟩
            · rwa [List.append_nil] at stops
            · rw [List.append_nil] at isNext
              obtain ⟨sign, isSign, isHead⟩ := kept.2.head?_of_sign legible notPretty isNext
              exact absurd (touch_cons_iff.mpr (.inl ⟨rfl, isHead⟩))
                (apart lexeme sign endsInLetter isSign)

end Piece

/-- Streams that part are written with other tokens. -/
theorem TokenStream.Parts.lexemes_ne {first second : TokenStream} (parts : Parts first second) :
    first.lexemes ≠ second.lexemes := by
  induction parts with
  | @here first second runsOn runsOn' different =>
      have inside {stream : TokenStream} (runsOn : stream.front.lexeme.runsOn = true) :
          stream.front.lexeme ≠ .endOfSource := by
        intro atEnd
        rw [atEnd] at runsOn
        cases runsOn
      rw [lexemes_eq_cons (inside runsOn), lexemes_eq_cons (inside runsOn')]
      intro same
      exact different (congrArg Lexeme.text (List.cons.inj same).1)
  | @later first second same following step =>
      have inside : first.front.lexeme ≠ .endOfSource := (Parts.later same following).inside
      have inside' : second.front.lexeme ≠ .endOfSource := by
        rw [← same]
        exact inside
      intro sameLexemes
      apply step
      have sameParts := (lexemes_eq_cons inside).symm.trans
        (sameLexemes.trans (lexemes_eq_cons inside'))
      exact (List.cons.inj sameParts).2

/-- An expression runs a number into a sign exactly if the two meet in it. -/
theorem Expression.extendsNumber_iff (expression : Expression) :
    expression.extendsNumber = true ↔ ∃ first sign, first.endsInExponentLetter = true ∧
      (sign = .plus ∨ sign = .minus) ∧ expression.Meets first sign := by
  cases expression with
  | binary left operator right span =>
      rw [extendsNumber, Bool.and_eq_true, Bool.and_eq_true, operator.isSign_iff,
        decide_eq_true_eq, Option.any_eq_true]
      constructor
      · rintro ⟨⟨isSign, tight⟩, digits, isLast, endsInLetter⟩
        exact ⟨.number digits, operator.mark, endsInLetter, isSign, rfl,
          .inl ⟨tight, by rw [isLast, Option.map_some]⟩⟩
      · rintro ⟨first, sign, endsInLetter, isSign, rfl, ⟨tight, isLast⟩ | ⟨rfl, _⟩⟩
        · obtain ⟨digits, isNumber, rfl⟩ := Option.map_eq_some_iff.mp isLast
          exact ⟨⟨isSign, tight⟩, digits, isNumber, endsInLetter⟩
        · cases endsInLetter
  | _ => simp [extendsNumber, Meets]

/-- The tokens of a node end where they should if and only if the text has blanks or no sign of it
follows a number that has an exponent letter for its end. -/
theorem Node.spaced_iff {style : Style} {good : Lexeme → Prop} (node : Node)
    (legible : Lexeme.AreLegible good) (blank : style.IndentsByBlanks)
    (kept : Piece.Kept style good [] (node.pieces style 0)) :
    Piece.Spaced [] (node.pieces style 0) ↔ (style.pretty = false →
      ∀ expression, (Node.expression expression = node ∨ (Node.expression expression).IsBelow node) →
        expression.extendsNumber = false) := by
  rw [kept.spaced_iff legible blank]
  constructor
  · intro apart notPretty expression inside
    rw [Bool.eq_false_iff]
    intro extendsIt
    obtain ⟨first, sign, endsInLetter, isSign, meets⟩ := expression.extendsNumber_iff.mp extendsIt
    apply apart first sign endsInLetter isSign
    exact (touch_iff (Lexeme.nears_of_endsInExponentLetter endsInLetter isSign) style 0 node).mpr
      ⟨notPretty, _, inside, meets⟩
  · intro plain first sign endsInLetter isSign touch
    obtain ⟨notPretty, inner, isInner, meets⟩ := (touch_iff
      (Lexeme.nears_of_endsInExponentLetter endsInLetter isSign) style 0 node).mp touch
    cases inner with
    | expression expression =>
        have extendsIt := expression.extendsNumber_iff.mpr
          ⟨first, sign, endsInLetter, isSign, meets⟩
        rw [plain notPretty expression isInner] at extendsIt
        cases extendsIt
    | _ => cases meets

namespace Script

variable {script : Script}

/-- The minified text is spaced exactly if nowhere in the script a number runs into a sign. -/
theorem spaced_minified_iff (formed : script.Formed Lexeme.IsLegible) :
    Piece.Spaced [] (script.pieces .minified 0) ↔
      ∀ expression, (Node.expression expression).IsBelow (.script script) →
        expression.extendsNumber = false := by
  have legible : Lexeme.AreLegible Lexeme.IsLegible := fun _ isLegible => isLegible
  have kept : Piece.Kept .minified Lexeme.IsLegible [] (script.pieces .minified 0) :=
    script.kept_pieces legible 0 formed
  have isMinified : Style.minified.pretty = false := rfl
  refine (Node.spaced_iff (.script script) legible Style.indentsByBlanks_minified kept).trans ?_
  simp [isMinified]

/-- In each layout, the source is printed with the same changes. -/
theorem tidied_pieces {stream : TokenStream} (legible : stream.AllGood Lexeme.IsLegible)
    (wellShaped : script.WellShaped) (spelled : script.SpelledBy stream) (style : Style) :
    Tidied script.outline stream.lexemes (Piece.lexemes (script.pieces style 0)) := by
  obtain ⟨behind, spelledItems, atEnd⟩ := spelled
  have carries := Spelling.carries_ofStatements style 0 script.items wellShaped
  have notDot : behind.front.lexeme ≠ .punctuator .dot := by simp [atEnd]
  have nothingLeft : Tidied [] behind.lexemes [] := by
    rw [TokenStream.lexemes, (TokenStream.front_lexeme_eq_end_iff behind).mp atEnd]
    exact .finish
  have tidied := carries.tidies legible spelledItems (fun _ => notDot) nothingLeft
  rwa [List.append_nil, List.append_nil] at tidied

/-- The tokens of well-spaced pieces are those of the printed text. -/
theorem scanned_of_spaced {style : Style} (spaced : Piece.Spaced [] (script.pieces style 0)) :
    ∃ printed, TokenStream.ofSource (script.print style) = .ok printed ∧
      printed.lexemes = Piece.lexemes (script.pieces style 0) := by
  obtain ⟨printed, last, scanned, spelled, atEnd⟩ := Scan.stream_of_spaced spaced 0 false
  refine ⟨printed, ?_, Spelling.lexemes_ofPieces spaced spelled atEnd⟩
  rw [TokenStream.ofSource, print, Piece.toList_render]
  exact scanned

/-- Where the pieces are not well-spaced, other tokens are read. -/
theorem lexemes_ne_of_joined {style : Style} (joined : Piece.Joined [] (script.pieces style 0))
    (notSpaced : ¬ Piece.Spaced [] (script.pieces style 0)) {printed : TokenStream}
    (scanned : TokenStream.ofSource (script.print style) = .ok printed) :
    printed.lexemes ≠ Piece.lexemes (script.pieces style 0) := by
  rw [TokenStream.ofSource, print, Piece.toList_render] at scanned
  obtain ⟨other, last, spelled, atEnd, parts⟩ := Scan.parts_of_joined joined notSpaced scanned
  have isOther : other.lexemes = _ :=
    Spelling.lexemes_ofPieces_of_inside joined.inside spelled atEnd
  rw [← isOther]
  exact parts.lexemes_ne

/-- The text without needless blanks has the tokens of the text with a line for each statement if
and only if no sign of the text follows a number that has an exponent letter for its end. -/
theorem lexemes_minified_iff {source : String} (accepted : parse source = .ok script) :
    (∃ pretty minified, TokenStream.ofSource (script.print .standard) = .ok pretty ∧
        TokenStream.ofSource (script.print .minified) = .ok minified ∧
        minified.lexemes = pretty.lexemes) ↔
      ∀ expression, (Node.expression expression).IsBelow (.script script) →
        expression.extendsNumber = false := by
  obtain ⟨stream, rest, scanned, reads⟩ := parse_eq_ok_iff.mp accepted
  obtain ⟨wellShaped, spelled⟩ := spelledBy_of_reads reads
  have legible := Scan.allGood_of_stream scanned
  have good : Lexeme.AreLegible Lexeme.IsLegible := fun _ isLegible => isLegible
  have formed := spelled.formed wellShaped legible good.tellsNames
  have sameLexemes := (tidied_pieces legible wellShaped spelled .minified).unique
    (tidied_pieces legible wellShaped spelled .standard)
  have canWrite : stream.AllGood Style.standard.CanWrite :=
    fun token inside => ⟨legible token inside, .inl rfl⟩
  have spacedPretty := script.spaced_pieces Style.indentsByBlanks_standard 0
    (spelled.formed wellShaped canWrite Style.standard.tellsNames_canWrite)
  obtain ⟨pretty, scannedPretty, isPretty⟩ := scanned_of_spaced spacedPretty
  rw [← spaced_minified_iff formed]
  constructor
  · rintro ⟨pretty', minified, scannedAgain, scannedMinified, same⟩
    obtain rfl : pretty' = pretty := Except.ok.inj (scannedAgain.symm.trans scannedPretty)
    have kept : Piece.Kept .minified Lexeme.IsLegible [] (script.pieces .minified 0) :=
      script.kept_pieces good 0 formed
    by_contra notSpaced
    apply lexemes_ne_of_joined (kept.joined good Style.indentsByBlanks_minified) notSpaced
      scannedMinified
    rw [same, isPretty, sameLexemes]
  · intro spaced
    obtain ⟨minified, scannedMinified, isMinified⟩ := scanned_of_spaced spaced
    refine ⟨pretty, minified, scannedPretty, scannedMinified, ?_⟩
    rw [isMinified, isPretty, sameLexemes]

/-- Both layouts keep a sum apart from the numbers in it. -/
theorem lexemes_minified_iff_sum : ∃ script, parse "a=1e+2;" = .ok script ∧
    ((∃ pretty minified, TokenStream.ofSource (script.print .standard) = .ok pretty ∧
        TokenStream.ofSource (script.print .minified) = .ok minified ∧
        minified.lexemes = pretty.lexemes) ↔
      ∀ expression, (Node.expression expression).IsBelow (.script script) →
        expression.extendsNumber = false) := by
  have accepted : (parse "a=1e+2;").isOk = true := by cbv
  cases parsed : parse "a=1e+2;" with
  | error error =>
      rw [parsed] at accepted
      cases accepted
  | ok script => exact ⟨script, rfl, lexemes_minified_iff parsed⟩

/-- A number can have an exponent letter for its end. -/
theorem exists_parse_lexemes_minified_ne : ∃ script pretty minified,
    parse "1e - 1" = .ok script ∧
      TokenStream.ofSource (script.print .standard) = .ok pretty ∧
      TokenStream.ofSource (script.print .minified) = .ok minified ∧
      pretty.lexemes = [.number "1e", .punctuator .minus, .number "1", .punctuator .semicolon] ∧
      minified.lexemes = [.number "1e-1", .punctuator .semicolon] := by
  refine ⟨⟨[.expression (.binary (.number "1e" ⟨0, 2⟩) .subtract (.number "1" ⟨5, 6⟩) ⟨0, 6⟩)
    ⟨0, 6⟩], ⟨0, 6⟩⟩,
    ⟨[⟨.number "1e", ⟨0, 2⟩, false⟩, ⟨.punctuator .minus, ⟨3, 4⟩, false⟩,
      ⟨.number "1", ⟨5, 6⟩, false⟩, ⟨.punctuator .semicolon, ⟨6, 7⟩, false⟩],
      ⟨.endOfSource, ⟨7, 7⟩, false⟩, by simp, rfl⟩,
    ⟨[⟨.number "1e-1", ⟨0, 4⟩, false⟩, ⟨.punctuator .semicolon, ⟨4, 5⟩, false⟩],
      ⟨.endOfSource, ⟨5, 5⟩, false⟩, by simp, rfl⟩, ?_, ?_, ?_, rfl, rfl⟩
  all_goals cbv

end Script

end ScriptStrip
