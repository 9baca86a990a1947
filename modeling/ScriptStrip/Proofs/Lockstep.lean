import ScriptStrip.Proofs.Grouped
import ScriptStrip.Proofs.SpellingLaws
/-
This file follows two token streams side by side. As long as their tokens agree, two trees that
mean the same are spelled by them with the same parentheses.
-/

namespace ScriptStrip

/-- A token of this kind may be read on at a letter or a digit behind it. -/
def Lexeme.runsOn : Lexeme → Bool
  | identifier _ | keyword _ | number _ => true
  | _ => false

/-- A word is written as its name. -/
theorem Lexeme.IsWord.text_eq {name : String} {lexeme : Lexeme} (isWord : lexeme.IsWord name) :
    lexeme.text = name := by
  rcases isWord with rfl | ⟨reserved, rfl, rfl⟩ <;> rfl

namespace Spelling

/-- Related streams agree on their front tokens and stay related behind them, or they part at two
words or numbers of different texts. -/
def StaysRelated (related : TokenStream → TokenStream → Prop) : Prop :=
  ∀ first second, related first second →
    (first.front.lexeme = second.front.lexeme ∧ related first.advance second.advance) ∨
      (first.front.lexeme.runsOn = true ∧ second.front.lexeme.runsOn = true ∧
        first.front.lexeme.text ≠ second.front.lexeme.text)

/-- Related streams have the same mark in front. -/
theorem StaysRelated.front_mark_iff {related : TokenStream → TokenStream → Prop}
    (stays : StaysRelated related) {first second : TokenStream} (isRelated : related first second)
    (mark : Punctuator) : first.front.lexeme = .punctuator mark ↔
      second.front.lexeme = .punctuator mark := by
  rcases stays _ _ isRelated with ⟨same, _⟩ | ⟨runsOn, runsOn', _⟩
  · rw [same]
  · constructor
    · intro isMark
      rw [isMark] at runsOn
      cases runsOn
    · intro isMark
      rw [isMark] at runsOn'
      cases runsOn'

/-- From related streams, the spellings lead to related streams and make sure of the outcome. -/
def Lockstep (related : TokenStream → TokenStream → Prop) (first second : Spelling)
    (outcome : Prop) : Prop :=
  ∀ ⦃before before' after after' : TokenStream⦄, related before before' → first before after →
    second before' after' → related after after' ∧ outcome

variable {related : TokenStream → TokenStream → Prop} {first first' second second' : Spelling}
  {outcome outcome' : Prop}

namespace Lockstep

/-- A lockstep may say less about its outcome. -/
theorem imp (lockstep : Lockstep related first first' outcome) (implies : outcome → outcome') :
    Lockstep related first first' outcome' := by
  intro before before' after after' isRelated spelled spelled'
  obtain ⟨relatedAfter, holds⟩ := lockstep isRelated spelled spelled'
  exact ⟨relatedAfter, implies holds⟩

/-- Nothing is spelled in lockstep with nothing. -/
theorem nothing (holds : outcome) : Lockstep related nothing nothing outcome := by
  rintro before before' after after' isRelated rfl rfl
  exact ⟨isRelated, holds⟩

/-- What is wanted of both streams has the same text. -/
theorem one (stays : StaysRelated related) {wanted wanted' : Lexeme → Prop}
    (sameText : ∀ lexeme lexeme', lexeme.runsOn = true → wanted lexeme → wanted' lexeme' →
      lexeme.text = lexeme'.text) : Lockstep related (one wanted) (one wanted') True := by
  rintro before before' after after' isRelated ⟨found, rfl⟩ ⟨found', rfl⟩
  rcases stays _ _ isRelated with ⟨_, relatedAfter⟩ | ⟨runsOn, _, different⟩
  · exact ⟨relatedAfter, trivial⟩
  · exact absurd (sameText _ _ runsOn found found') different

/-- The same token is spelled in lockstep. -/
theorem lexeme (stays : StaysRelated related) (lexeme : Lexeme) :
    Lockstep related (Spelling.one (· = lexeme)) (Spelling.one (· = lexeme)) True := by
  apply one stays
  rintro _ _ _ rfl rfl
  rfl

/-- The same mark is spelled in lockstep. -/
theorem mark (stays : StaysRelated related) (wanted : Punctuator) :
    Lockstep related (mark wanted) (mark wanted) True := lexeme stays _

/-- The same keyword is spelled in lockstep. -/
theorem keyword (stays : StaysRelated related) (wanted : Keyword) :
    Lockstep related (keyword wanted) (keyword wanted) True := lexeme stays _

/-- The same name is spelled in lockstep. -/
theorem identifier (stays : StaysRelated related) (name : String) :
    Lockstep related (identifier name) (identifier name) True := lexeme stays _

/-- Strings of one content go in lockstep even with other quotes. -/
theorem string (stays : StaysRelated related) (content : String) (quote quote' : Quote) :
    Lockstep related (Spelling.one (· = .string content quote))
      (Spelling.one (· = .string content quote')) True := by
  apply one stays
  rintro _ _ runsOn rfl
  cases runsOn

/-- The same word is spelled in lockstep, keyword or not. -/
theorem word (stays : StaysRelated related) (name : String) :
    Lockstep related (Spelling.one (·.IsWord name)) (Spelling.one (·.IsWord name)) True := by
  apply one stays
  intro _ _ _ isWord isWord'
  rw [isWord.text_eq, isWord'.text_eq]

/-- What goes in lockstep one behind the other goes in lockstep together. -/
theorem andThen (lockstep : Lockstep related first first' outcome)
    (following : Lockstep related second second' outcome') :
    Lockstep related (first.andThen second) (first'.andThen second') (outcome ∧ outcome') := by
  rintro before before' after after' isRelated ⟨middle, spelled, behind⟩ ⟨middle', spelled', behind'⟩
  obtain ⟨relatedMiddle, holds⟩ := lockstep isRelated spelled spelled'
  obtain ⟨relatedAfter, holds'⟩ := following relatedMiddle behind behind'
  exact ⟨relatedAfter, holds, holds'⟩

/-- Staying on one line does not break the lockstep. -/
theorem onSameLine (lockstep : Lockstep related first first' outcome) :
    Lockstep related first.onSameLine first'.onSameLine outcome :=
  fun _ _ _ _ isRelated spelled spelled' => lockstep isRelated spelled.2 spelled'.2

/-- Two marks around it do not break the lockstep. -/
theorem enclosed (stays : StaysRelated related) (opening closing : Punctuator)
    (lockstep : Lockstep related first first' outcome) :
    Lockstep related (enclosed opening closing first) (enclosed opening closing first') outcome :=
  ((mark stays opening).andThen (lockstep.andThen (mark stays closing))).imp fun holds => holds.2.1

end Lockstep

/-- Spellings of two lists of items, one beside the other. -/
inductive AllLockstep (related : TokenStream → TokenStream → Prop) :
    List Spelling → List Spelling → Prop → Prop
  | nil {outcome : Prop} (holds : outcome) : AllLockstep related [] [] outcome
  | cons {first first' : Spelling} {rest rest' : List Spelling} {outcome outcome' both : Prop}
      (lockstep : Lockstep related first first' outcome)
      (others : AllLockstep related rest rest' outcome') (implies : outcome → outcome' → both) :
      AllLockstep related (first :: rest) (first' :: rest') both

namespace AllLockstep

variable {items items' : List Spelling}

/-- Lists in lockstep have as many items. -/
theorem length_eq (all : AllLockstep related items items' outcome) :
    items.length = items'.length := by
  induction all with
  | nil => rfl
  | cons _ _ _ step => rw [List.length_cons, List.length_cons, step]

/-- A list of names goes in lockstep with itself. -/
theorem refl (stays : StaysRelated related) (names : List String) :
    AllLockstep related (names.map identifier) (names.map identifier) True := by
  induction names with
  | nil => exact .nil trivial
  | cons first rest step => exact .cons (.identifier stays first) step fun _ _ => trivial

/-- Items in lockstep go in lockstep with commas between them. -/
theorem separated (stays : StaysRelated related) (all : AllLockstep related items items' outcome) :
    Lockstep related (separated items) (separated items') outcome := by
  induction all with
  | nil holds => exact .nothing holds
  | cons lockstep others implies step =>
      cases others with
      | nil holds => exact lockstep.imp fun outcome => implies outcome holds
      | cons =>
          exact (lockstep.andThen ((Lockstep.mark stays .comma).andThen step)).imp fun holds =>
            implies holds.1 holds.2.2

/-- Where no comma follows, a comma behind the last item belongs to the list. -/
theorem listed (stays : StaysRelated related) (all : AllLockstep related items items' outcome)
    {before before' after after' : TokenStream} (isRelated : related before before')
    (spelled : listed items before after) (spelled' : Spelling.listed items' before' after')
    (stops : after.front.lexeme ≠ .punctuator .comma)
    (stops' : after'.front.lexeme ≠ .punctuator .comma) : related after after' ∧ outcome := by
  induction all generalizing before before' with
  | nil holds => exact Lockstep.nothing holds isRelated spelled spelled'
  | @cons _ _ rest rest' _ _ _ lockstep others implies step =>
      obtain ⟨middle, spelledFirst, goesOn⟩ := listed_cons_iff.mp spelled
      obtain ⟨middle', spelledFirst', goesOn'⟩ := listed_cons_iff.mp spelled'
      obtain ⟨relatedMiddle, holds⟩ := lockstep isRelated spelledFirst spelledFirst'
      have sameFront := stays.front_mark_iff relatedMiddle .comma
      have bothEnd : rest = [] ↔ rest' = [] := by
        rw [← List.length_eq_zero_iff, ← List.length_eq_zero_iff, others.length_eq]
      rcases goesOn with ⟨isLast, rfl⟩ | ⟨isComma, spelledRest⟩
      · rcases goesOn' with ⟨_, rfl⟩ | ⟨isComma', _⟩
        · obtain rfl := isLast
          obtain rfl := bothEnd.mp rfl
          cases others with
          | nil holds' => exact ⟨relatedMiddle, implies holds holds'⟩
        · exact absurd (sameFront.mpr isComma') stops
      · rcases goesOn' with ⟨_, rfl⟩ | ⟨isComma', spelledRest'⟩
        · exact absurd (sameFront.mp isComma) stops'
        · obtain ⟨relatedNext, _⟩ := Lockstep.mark stays .comma relatedMiddle ⟨isComma, rfl⟩
            ⟨isComma', rfl⟩
          obtain ⟨relatedAfter, holds'⟩ := step relatedNext spelledRest spelledRest'
          exact ⟨relatedAfter, implies holds holds'⟩

/-- Items in lockstep go in lockstep as a list, whose last comma may differ. -/
theorem enclosed (stays : StaysRelated related) (opening : Punctuator) {closing : Punctuator}
    (notComma : closing ≠ .comma) (all : AllLockstep related items items' outcome) :
    Lockstep related (enclosed opening closing (Spelling.listed items))
      (Spelling.enclosed opening closing (Spelling.listed items')) outcome := by
  rintro before before' after after' isRelated ⟨start, opens, middle, spelled, closes⟩
    ⟨start', opens', middle', spelled', closes'⟩
  have notCommaFront {stream : TokenStream} (isClose : stream.front.lexeme = .punctuator closing) :
      stream.front.lexeme ≠ .punctuator .comma := by
    rw [isClose]
    exact fun same => notComma (Lexeme.punctuator.inj same)
  obtain ⟨relatedStart, _⟩ := Lockstep.mark stays opening isRelated opens opens'
  obtain ⟨relatedMiddle, holds⟩ := all.listed stays relatedStart spelled spelled'
    (notCommaFront closes.1) (notCommaFront closes'.1)
  exact ⟨(Lockstep.mark stays closing relatedMiddle closes closes').1, holds⟩

end AllLockstep

/-- A semicolon is taken wherever one stands. -/
theorem Lockstep.ending (stays : StaysRelated related) {statement statement' : Statement}
    (sameNeeds : statement.needsSemicolon = statement'.needsSemicolon) :
    Lockstep related statement.ending statement'.ending True := by
  unfold Statement.ending
  rw [sameNeeds]
  split
  · intro before before' after after' isRelated ends ends'
    have sameFront := stays.front_mark_iff isRelated .semicolon
    rcases ends with isMark | ⟨rfl, notMark, _⟩
    · rcases ends' with isMark' | ⟨rfl, notMark', _⟩
      · exact Lockstep.mark stays .semicolon isRelated isMark isMark'
      · exact absurd (sameFront.mp isMark.1) notMark'
    · rcases ends' with isMark' | ⟨rfl, _⟩
      · exact absurd (sameFront.mpr isMark'.1) notMark
      · exact ⟨isRelated, trivial⟩
  · exact .nothing trivial

end Spelling

end ScriptStrip
