import ScriptStrip.Proofs.Formed
import ScriptStrip.Proofs.Reprinting
import ScriptStrip.Tree.Outline
/-
This file says what a layout may change about the tokens of a source, and carries it through the
ways in which spellings and printed pieces are put together.
-/

namespace ScriptStrip

/-- A dot behind such a number would be read as a decimal point. -/
def Lexeme.isBareInteger : Lexeme → Bool
  | .number digits => !digits.toList.any fun digit => ['.', 'e', 'E', 'x', 'X'].contains digit
  | _ => false

/-- The printed tokens are those of the source, except that no comma is kept behind the last item
of a list, that no semicolon is left out, and that a bare integer in front of a dot is put in
parentheses. The outline says where a comma or a semicolon belongs. -/
inductive Tidied : List Place → List Lexeme → List Lexeme → Prop
  | finish : Tidied [] [] []
  | token {places : List Place} {source printed : List Lexeme} {lexeme : Lexeme}
      (plain : lexeme.isBareInteger = true → source.head? ≠ some (.punctuator .dot))
      (following : Tidied places source printed) :
      Tidied (.token lexeme :: places) (lexeme :: source) (lexeme :: printed)
  | integer {places : List Place} {source printed : List Lexeme} {digits : String}
      (isBare : (Lexeme.number digits).isBareInteger = true)
      (following : Tidied places (.punctuator .dot :: source) printed) :
      Tidied (.token (.number digits) :: places) (.number digits :: .punctuator .dot :: source)
        (.punctuator .openParenthesis :: .number digits :: .punctuator .closeParenthesis :: printed)
  | comma {places : List Place} {source printed : List Lexeme} {closing : Punctuator}
      (closes : closing ∈ [.closeParenthesis, .closeBracket, .closeBrace])
      (following : Tidied places (.punctuator closing :: source) printed) :
      Tidied (.lastComma :: places) (.punctuator .comma :: .punctuator closing :: source) printed
  | noComma {places : List Place} {source printed : List Lexeme} {closing : Punctuator}
      (closes : closing ∈ [.closeParenthesis, .closeBracket, .closeBrace])
      (following : Tidied places (.punctuator closing :: source) printed) :
      Tidied (.lastComma :: places) (.punctuator closing :: source) printed
  | semicolon {places : List Place} {source printed : List Lexeme}
      (following : Tidied places source printed) :
      Tidied (.semicolon :: places) (.punctuator .semicolon :: source)
        (.punctuator .semicolon :: printed)
  | noSemicolon {places : List Place} {source printed : List Lexeme}
      (missing : source.head? ≠ some (.punctuator .semicolon))
      (following : Tidied places source printed) :
      Tidied (.semicolon :: places) source (.punctuator .semicolon :: printed)

/-- The outline and the tokens of the source leave no choice. -/
theorem Tidied.unique {places : List Place} {source printed printed' : List Lexeme}
    (tidied : Tidied places source printed) (tidied' : Tidied places source printed') :
    printed = printed' := by
  induction tidied generalizing printed' with
  | finish =>
      cases tidied'
      rfl
  | token plain _ step =>
      cases tidied' with
      | token _ following => rw [step following]
      | integer isBare _ => exact absurd rfl (plain isBare)
  | integer isBare _ step =>
      cases tidied' with
      | token plain _ => exact absurd rfl (plain isBare)
      | integer _ following => rw [step following]
  | comma closes _ step =>
      cases tidied' with
      | comma _ following => exact step following
      | noComma closes _ => simp at closes
  | noComma closes _ step =>
      cases tidied' with
      | comma => simp at closes
      | noComma _ following => exact step following
  | semicolon _ step =>
      cases tidied' with
      | semicolon following => rw [step following]
      | noSemicolon missing _ => exact absurd rfl missing
  | noSemicolon missing _ step =>
      cases tidied' with
      | semicolon => exact absurd rfl missing
      | noSemicolon _ following => rw [step following]

namespace TokenStream

variable {stream : TokenStream}

/-- What the tokens before the end say. -/
def lexemes (stream : TokenStream) : List Lexeme := stream.ahead.map Token.lexeme

/-- In front of the end a stream has its front token first. -/
theorem lexemes_eq_cons (inside : stream.front.lexeme ≠ .endOfSource) :
    stream.lexemes = stream.front.lexeme :: stream.advance.lexemes := by
  rw [lexemes, ahead_eq_cons inside, List.map_cons]
  rfl

/-- A known token in front is the first of the stream. -/
theorem lexemes_of_front {lexeme : Lexeme} (isFront : stream.front.lexeme = lexeme)
    (inside : lexeme ≠ .endOfSource) : stream.lexemes = lexeme :: stream.advance.lexemes := by
  rw [lexemes_eq_cons (by rw [isFront]; exact inside), isFront]

/-- If another token is in front, the list does not start with the mark. -/
theorem head?_lexemes_ne {mark : Punctuator} (isOther : stream.front.lexeme ≠ .punctuator mark) :
    stream.lexemes.head? ≠ some (.punctuator mark) := by
  by_cases atEnd : stream.front.lexeme = .endOfSource
  · rw [lexemes, (front_lexeme_eq_end_iff stream).mp atEnd]
    simp
  · rw [lexemes_eq_cons atEnd]
    simpa using isOther

/-- An end of a good stream is good. -/
theorem AllGood.of_suffix {good : Lexeme → Prop} {rest : TokenStream} (allGood : stream.AllGood good)
    (ends : rest.ahead <:+ stream.ahead) : rest.AllGood good :=
  fun token inside => allGood token (ends.mem inside)

/-- The token in front of a good stream is good. -/
theorem AllGood.front {good : Lexeme → Prop} (allGood : stream.AllGood good)
    (inside : stream.front.lexeme ≠ .endOfSource) : good stream.front.lexeme :=
  allGood stream.front (by simp [ahead_eq_cons inside])

end TokenStream

/-- What is spelled is printed with no changes but those of the layout. Where it is loose, it may
end with a bare integer, and then no dot may stand behind it. -/
structure Spelling.Carries (loose : Prop) (spelling : Spelling) (places : List Place)
    (pieces : List Piece) : Prop where
  bounded : spelling.Bounded
  starts : ∀ {before after}, spelling before after →
    (loose → after.front.lexeme ≠ .punctuator .dot) → before.front.lexeme ≠ .punctuator .dot
  tidies : ∀ {before after rest printed}, before.AllGood Lexeme.IsLegible → spelling before after →
    (loose → after.front.lexeme ≠ .punctuator .dot) → Tidied rest after.lexemes printed →
      Tidied (places ++ rest) before.lexemes (Piece.lexemes pieces ++ printed)

/-- The items of a list are carried over one by one. -/
inductive Spelling.CarriesAll : List Spelling → List (List Place) → List (List Piece) → Prop
  | nil : CarriesAll [] [] []
  | cons {spelling : Spelling} {places : List Place} {pieces : List Piece} {spellings : List Spelling}
      {outlines : List (List Place)} {items : List (List Piece)}
      (first : spelling.Carries True places pieces) (rest : CarriesAll spellings outlines items) :
      CarriesAll (spelling :: spellings) (places :: outlines) (pieces :: items)

namespace Spelling.Carries

variable {loose : Prop} {first second spelling : Spelling} {places places' : List Place}
  {pieces pieces' : List Piece}

/-- A spelling may ask for more behind it. -/
theorem mono {loose' : Prop} (carries : spelling.Carries loose places pieces)
    (looser : loose → loose') : spelling.Carries loose' places pieces :=
  ⟨carries.bounded, fun spelled notDot => carries.starts spelled fun isLoose => notDot (looser isLoose),
    fun allGood spelled notDot =>
      carries.tidies allGood spelled fun isLoose => notDot (looser isLoose)⟩

/-- In the end nothing is asked of what stands behind. -/
theorem weaken (carries : spelling.Carries loose places pieces) :
    spelling.Carries True places pieces := carries.mono fun _ => trivial

/-- Blanks make no difference. -/
theorem of_lexemes (carries : spelling.Carries loose places pieces)
    (same : Piece.lexemes pieces' = Piece.lexemes pieces) : spelling.Carries loose places pieces' :=
  ⟨carries.bounded, carries.starts, by
    intro before after rest printed allGood spelled notDot following
    rw [same]
    exact carries.tidies allGood spelled notDot following⟩

/-- Blanks may be put in front. -/
theorem skip {blanks : List Piece} (blank : Piece.lexemes blanks = [])
    (carries : spelling.Carries loose places pieces) :
    spelling.Carries loose places (blanks ++ pieces) :=
  carries.of_lexemes (by rw [Piece.lexemes_append, blank, List.nil_append])

/-- Nothing is printed as nothing. -/
theorem nothing : Spelling.nothing.Carries True [] [] := by
  refine ⟨bounded_nothing, ?_, ?_⟩
  · rintro before _ rfl notDot
    exact notDot trivial
  · rintro before _ rest printed _ rfl _ following
    exact following

/-- A token is printed as it is if it can be told from what is wanted. -/
theorem one {wanted : Lexeme → Prop} {lexeme : Lexeme}
    (isLexeme : ∀ found, wanted found → found.IsLegible → found = lexeme)
    (inside : ¬ wanted .endOfSource) (notDot : ¬ wanted (.punctuator .dot))
    (bare : lexeme.isBareInteger = true → loose) :
    (Spelling.one wanted).Carries loose [.token lexeme] [.token lexeme] := by
  refine ⟨(advances_one inside).bounded, ?_, ?_⟩
  · rintro before _ ⟨isWanted, rfl⟩ _ isDot
    exact notDot (isDot ▸ isWanted)
  · rintro before _ rest printed allGood ⟨isWanted, rfl⟩ notDot following
    have insideFront : before.front.lexeme ≠ .endOfSource := fun atEnd => inside (atEnd ▸ isWanted)
    have same := isLexeme _ isWanted (allGood.front insideFront)
    rw [TokenStream.lexemes_eq_cons insideFront, same]
    exact .token (fun isBare => TokenStream.head?_lexemes_ne (notDot (bare isBare))) following

/-- A token is printed as itself. -/
theorem lexeme {lexeme : Lexeme} (inside : lexeme ≠ .endOfSource)
    (notDot : lexeme ≠ .punctuator .dot) (bare : lexeme.isBareInteger = true → loose) :
    (Spelling.one (· = lexeme)).Carries loose [.token lexeme] [.token lexeme] :=
  one (fun _ same _ => same) (Ne.symm inside) (Ne.symm notDot) bare

/-- A mark other than the dot is printed as itself. -/
theorem mark {mark : Punctuator} (notDot : mark ≠ .dot) :
    (Spelling.mark mark).Carries loose [.ofMark mark] [.ofMark mark] :=
  lexeme (by simp) (by simpa using notDot) (by simp [Lexeme.isBareInteger])

/-- A keyword is printed as itself. -/
theorem keyword (word : Keyword) :
    (Spelling.keyword word).Carries loose [.ofKeyword word] [.ofKeyword word] :=
  lexeme (by simp) (by simp) (by simp [Lexeme.isBareInteger])

/-- A name is printed as itself. -/
theorem identifier (name : String) :
    (Spelling.identifier name).Carries loose [.ofWord name] [.token (.ofWord name)] := by
  refine one ?_ (by simp) (by simp) ?_
  · rintro found rfl legible
    exact (Lexeme.ofWord_of_isLegible legible).2.symm
  · unfold Lexeme.ofWord
    split <;> simp [Lexeme.isBareInteger]

/-- What is printed in a row is tidied up in a row. -/
theorem andThen (carries : first.Carries True places pieces)
    (following : second.Carries loose places' pieces') :
    (first.andThen second).Carries loose (places ++ places') (pieces ++ pieces') := by
  refine ⟨carries.bounded.andThen following.bounded, ?_, ?_⟩
  · rintro before after ⟨middle, spelled, spelledNext⟩ notDot
    exact carries.starts spelled fun _ => following.starts spelledNext notDot
  · rintro before after rest printed allGood ⟨middle, spelled, spelledNext⟩ notDot tidied
    have allGoodNext := allGood.of_suffix (carries.bounded before middle spelled)
    have tidiedNext := following.tidies allGoodNext spelledNext notDot tidied
    rw [List.append_assoc, Piece.lexemes_append, List.append_assoc]
    exact carries.tidies allGood spelled (fun _ => following.starts spelledNext notDot) tidiedNext

/-- Staying on one line changes no token. -/
theorem onSameLine (carries : spelling.Carries loose places pieces) :
    spelling.onSameLine.Carries loose places pieces :=
  ⟨fun before after spelled => carries.bounded before after spelled.2,
    fun spelled => carries.starts spelled.2, fun allGood spelled => carries.tidies allGood spelled.2⟩

/-- Two marks are printed around what is between them. -/
theorem enclosed {opening closing : Punctuator} (notDot : opening ≠ .dot ∧ closing ≠ .dot)
    (carries : spelling.Carries True places pieces) :
    (Spelling.enclosed opening closing spelling).Carries loose (Place.enclosed opening closing places)
      (Piece.enclosed opening closing pieces) :=
  (mark notDot.1).andThen (carries.andThen (mark notDot.2))

end Spelling.Carries

namespace Style

/-- A comma has one token in either style. -/
theorem lexemes_comma (style : Style) : Piece.lexemes style.comma = [.punctuator .comma] := by
  rw [comma, Piece.ofMark, Piece.lexemes_token, lexemes_gap]

/-- The tokens of items that are printed behind one another. -/
theorem lexemes_intercalate_cons (style : Style) (first second : List Piece)
    (rest : List (List Piece)) :
    Piece.lexemes (style.comma.intercalate (first :: second :: rest)) =
      Piece.lexemes first ++
        .punctuator .comma :: Piece.lexemes (style.comma.intercalate (second :: rest)) := by
  rw [List.intercalate_cons_cons, Piece.lexemes_append, Piece.lexemes_append, lexemes_comma,
    List.append_assoc, List.singleton_append]

end Style

namespace Spelling.CarriesAll

variable {spellings : List Spelling} {outlines : List (List Place)} {items : List (List Piece)}

/-- Each spelling of the list is bounded. -/
theorem bounded (carries : CarriesAll spellings outlines items) :
    ∀ spelling ∈ spellings, spelling.Bounded := by
  induction carries with
  | nil => simp
  | cons first _ step => exact List.forall_mem_cons.mpr ⟨first.bounded, step⟩

/-- The comma behind the last item is dropped. -/
theorem tidies_listed (style : Style) (carries : CarriesAll spellings outlines items)
    {closing : Punctuator} (closes : closing ∈ [.closeParenthesis, .closeBracket, .closeBrace])
    {before after : TokenStream} {rest : List Place} {printed : List Lexeme}
    (allGood : before.AllGood Lexeme.IsLegible) (spelled : listed spellings before after)
    (isClosing : after.front.lexeme = .punctuator closing)
    (tidied : Tidied rest after.lexemes printed) :
    Tidied (Place.listed outlines ++ rest) before.lexemes
      (Piece.lexemes (style.comma.intercalate items) ++ printed) := by
  induction carries generalizing before with
  | nil =>
      obtain rfl : after = before := spelled
      exact tidied
  | cons first carriesRest step =>
      have notDot : ∀ {middle : TokenStream}, middle.front.lexeme = .punctuator .comma →
          middle.front.lexeme ≠ .punctuator .dot := by simp_all
      cases carriesRest with
      | nil =>
          obtain ⟨middle, spelledLast, isEnd⟩ := spelled
          -- The comma behind the last item may be there or not. It is not printed.
          have tidiedEnd : Tidied (.lastComma :: rest) middle.lexemes printed := by
            rw [TokenStream.lexemes_of_front isClosing (by simp)] at tidied
            rcases isEnd with rfl | ⟨isComma, rfl⟩
            · rw [TokenStream.lexemes_of_front isClosing (by simp)]
              exact .noComma closes tidied
            · rw [TokenStream.lexemes_of_front isComma (by simp),
                TokenStream.lexemes_of_front isClosing (by simp)]
              exact .comma closes tidied
          have notDotEnd : middle.front.lexeme ≠ .punctuator .dot := by
            rcases isEnd with rfl | ⟨isComma, _⟩
            · rw [isClosing]
              rintro ⟨⟩
              simp at closes
            · exact notDot isComma
          rw [List.intercalate_singleton, Place.listed, List.append_assoc, List.singleton_append]
          exact first.tidies allGood spelledLast (fun _ => notDotEnd) tidiedEnd
      | cons second carriesRest =>
          obtain ⟨middle, spelledFirst, behind, ⟨isComma, rfl⟩, spelledRest⟩ := spelled
          have allGoodMiddle := allGood.of_suffix (first.bounded before middle spelledFirst)
          have tidiedRest := step (allGoodMiddle.of_suffix (List.tail_suffix _)) spelledRest
          rw [style.lexemes_intercalate_cons, Place.listed, List.append_assoc, List.append_assoc]
          · refine first.tidies allGood spelledFirst (fun _ => notDot isComma) ?_
            rw [TokenStream.lexemes_of_front isComma (by simp)]
            exact .token (by simp [Lexeme.isBareInteger]) tidiedRest
          · exact List.cons_ne_nil _ _

/-- Items are printed with commas between them. -/
theorem separated (style : Style) (carries : CarriesAll spellings outlines items) :
    (Spelling.separated spellings).Carries True (Place.separated outlines)
      (style.comma.intercalate items) := by
  induction carries with
  | nil => exact .nothing
  | cons first carriesRest step =>
      cases carriesRest with
      | nil =>
          rw [List.intercalate_singleton]
          exact first
      | cons second carriesRest =>
          rw [List.intercalate_cons_cons, List.append_assoc, Place.separated]
          · exact first.andThen (((Carries.mark (by simp)).of_lexemes style.lexemes_comma).andThen step)
          · exact List.cons_ne_nil _ _

/-- A list is printed without the comma behind its last item. -/
theorem enclosed {loose : Prop} (style : Style) {opening closing : Punctuator} {inner : List Piece}
    (notDot : opening ≠ .dot) (closes : closing ∈ [.closeParenthesis, .closeBracket, .closeBrace])
    (carries : CarriesAll spellings outlines items)
    (same : Piece.lexemes inner = Piece.lexemes (style.comma.intercalate items)) :
    (Spelling.enclosed opening closing (listed spellings)).Carries loose
      (Place.enclosed opening closing (Place.listed outlines))
      (Piece.enclosed opening closing inner) := by
  refine ⟨(advances_enclosed (bounded_listed carries.bounded)).bounded, ?_, ?_⟩
  · intro before after spelled _
    rw [front_enclosed spelled]
    simpa using notDot
  · intro before after rest printed allGood spelled notDotBehind tidied
    obtain ⟨isOpening, middle, spelledItems, isClosing, rfl⟩ := enclosed_iff.mp spelled
    have tidiedEnd : Tidied (.ofMark closing :: rest) middle.lexemes
        (.punctuator closing :: printed) := by
      rw [TokenStream.lexemes_of_front isClosing (by simp)]
      exact .token (by simp [Lexeme.isBareInteger]) tidied
    have tidiedItems := carries.tidies_listed style closes (allGood.of_suffix (List.tail_suffix _))
      spelledItems isClosing tidiedEnd
    rw [TokenStream.lexemes_of_front isOpening (by simp)]
    have shape : Piece.lexemes (Piece.enclosed opening closing inner) ++ printed =
        .punctuator opening :: (Piece.lexemes (style.comma.intercalate items) ++
          .punctuator closing :: printed) := by
      rw [Piece.enclosed, Piece.ofMark, List.cons_append, Piece.lexemes_token, Piece.lexemes_append,
        same, List.cons_append, List.append_assoc]
      rfl
    have places : Place.enclosed opening closing (Place.listed outlines) ++ rest =
        .ofMark opening :: (Place.listed outlines ++ .ofMark closing :: rest) := by
      simp [Place.enclosed]
    rw [shape, places]
    exact .token (by simp [Lexeme.isBareInteger]) tidiedItems

end Spelling.CarriesAll

end ScriptStrip
