import ScriptStrip.Proofs.AddedPairs
import ScriptStrip.Proofs.Grouped
import ScriptStrip.Proofs.PrintedSpelling
/-
This file takes single pairs of added parentheses out of printed text. The tokens that are left
spell a tree that means the same and lacks the parentheses.
-/

namespace ScriptStrip

/-- The form is that of a tree which is the same and, unless something is glued, is not grouped. -/
def Exposed {Tree Form : Type} (form : Tree → Form) (same grouped : Tree → Prop) (glued : Prop)
    (other : Form) : Prop :=
  ∃ tree, other = form tree ∧ same tree ∧ (glued ∨ ¬ grouped tree)

/-- What is exposed in a part is exposed in the whole. -/
theorem Exposed.map {Tree Tree' Form Form' : Type} {form : Tree → Form} {form' : Tree' → Form'}
    {same grouped : Tree → Prop} {same' grouped' : Tree' → Prop} {glued : Prop} {other : Form}
    (exposed : Exposed form same grouped glued other) (context : Form → Form')
    (whole : Tree → Tree') (forms : ∀ tree, context (form tree) = form' (whole tree))
    (sames : ∀ tree, same tree → same' (whole tree))
    (groups : ∀ tree, grouped' (whole tree) → grouped tree) :
    Exposed form' same' grouped' glued (context other) := by
  obtain ⟨tree, rfl, isSame, lacks⟩ := exposed
  exact ⟨whole tree, forms tree, sames tree isSame, lacks.imp id (mt (groups tree))⟩

namespace Piece

/-- A mark may be put in front. -/
theorem Spell.markThen (mark : Punctuator) {pieces : List Piece} {following : Spelling}
    (spell : Spell pieces following) :
    Spell (ofMark mark :: pieces) ((Spelling.mark mark).andThen following) := .cons rfl spell

/-- A comma may be put in front, with or without the blank behind it. -/
theorem Spell.comma (style : Style) {pieces : List Piece} {following : Spelling}
    (spell : Spell pieces following) :
    Spell (style.comma ++ pieces) ((Spelling.mark .comma).andThen following) :=
  .markThen .comma (.skip style.lexemes_gap spell)

namespace Pair

/-- Without the parentheses, a bare integer runs into the dot behind it. -/
def Glued (pair : Pair) : Prop :=
  ∃ digits span, pair.inner = [token (.number digits)] ∧
    (Expression.number digits span).isBareInteger = true ∧ pair.after.head? = some (ofMark .dot)

/-- What is glued stays glued in a longer text. -/
theorem Glued.within {pair : Pair} (glued : pair.Glued) (before after : List Piece) :
    (pair.within before after).Glued := by
  obtain ⟨digits, span, isNumber, isBare, isDot⟩ := glued
  refine ⟨digits, span, isNumber, isBare, ?_⟩
  rw [Pair.within, List.head?_append, isDot]
  rfl

/-- An expression stands in the pair, and what is left without the pair spells something exposed. -/
structure Fits (good : Lexeme → Prop) (style : Style) (exposed : Prop → Spelling → Prop)
    (pair : Pair) : Prop where
  inner : ∃ depth, ∃ expression : Expression, expression.Written good ∧
    pair.inner = expression.pieces style depth
  exposes : ∃ glued other, (glued → pair.Glued) ∧ exposed glued other ∧ Spell pair.thinned other

variable {good : Lexeme → Prop} {style : Style} {exposed exposed' : Prop → Spelling → Prop}
  {pair : Pair}

/-- What is left without the pair starts with a token like the whole text. -/
theorem openExpression_thinned (opens : OpenExpression good pair.whole)
    (opensInner : OpenExpression good pair.inner) : OpenExpression good pair.thinned := by
  cases pair with
  | mk before inner after =>
      cases before with
      | nil => exact opensInner.append after
      | cons piece before =>
          obtain ⟨front, rest, isWhole, opens⟩ := opens
          exact ⟨front, _, congrArg (· :: _) (List.cons.inj isWhole).1, opens⟩

/-- A pair that fits in a part fits in the whole. -/
theorem Fits.within (fits : pair.Fits good style exposed) {before after : List Piece}
    (context : ∀ glued other, exposed glued other → Spell pair.thinned other →
      ∃ other', exposed' glued other' ∧ Spell (before ++ (pair.thinned ++ after)) other') :
    (pair.within before after).Fits good style exposed' := by
  obtain ⟨glued, other, isGlued, isExposed, spell⟩ := fits.exposes
  obtain ⟨other', isExposed', spell'⟩ := context glued other isExposed spell
  rw [← thinned_within] at spell'
  exact ⟨fits.inner, glued, other', fun holds => (isGlued holds).within before after, isExposed',
    spell'⟩

end Pair

namespace Draft

/-- The draft spells what it should, and without one of the added pairs something exposed. -/
structure Spells (good : Lexeme → Prop) (style : Style) (draft : Draft) (spelling : Spelling)
    (exposed : Prop → Spelling → Prop) : Prop where
  spell : Spell draft.pieces spelling
  fits : ∀ pair ∈ draft.added, pair.Fits good style exposed

namespace Spells

variable {good : Lexeme → Prop} {style : Style} {first second draft : Draft}
  {spelling following : Spelling} {exposed exposed' exposedLater : Prop → Spelling → Prop}

/-- A text without added pairs exposes nothing. -/
theorem plain {pieces : List Piece} (spell : Spell pieces spelling) :
    (Draft.plain pieces).Spells good style spelling exposed := ⟨spell, by simp⟩

/-- A draft may spell something weaker. -/
theorem imp (spells : draft.Spells good style spelling exposed)
    (weaker : ∀ before after, spelling before after → following before after)
    (exposes : ∀ glued other, exposed glued other → ∃ other', exposed' glued other' ∧
      ∀ before after, other before after → other' before after) :
    draft.Spells good style following exposed' := by
  refine ⟨fun before after spelled => weaker _ _ (spells.spell _ _ spelled), fun pair isAdded => ?_⟩
  obtain ⟨inner, glued, other, isGlued, isExposed, spell⟩ := spells.fits pair isAdded
  obtain ⟨other', isExposed', weakerOther⟩ := exposes glued other isExposed
  exact ⟨inner, glued, other', isGlued, isExposed', fun before after spelled =>
    weakerOther _ _ (spell _ _ spelled)⟩

/-- What is exposed may be said more weakly. -/
theorem mono (spells : draft.Spells good style spelling exposed)
    (exposes : ∀ glued other, exposed glued other → exposed' glued other) :
    draft.Spells good style spelling exposed' :=
  spells.imp (fun _ _ => id) fun glued other isExposed =>
    ⟨other, exposes glued other isExposed, fun _ _ => id⟩

/-- Joined drafts expose what one of them does, in front of or behind the other. -/
theorem andThen (spells : first.Spells good style spelling exposed)
    (spellsLater : second.Spells good style following exposedLater)
    (left : ∀ glued other, exposed glued other → exposed' glued (other.andThen following))
    (right : ∀ glued other, exposedLater glued other → exposed' glued (spelling.andThen other)) :
    (first ++ second).Spells good style (spelling.andThen following) exposed' := by
  refine ⟨spells.spell.andThen spellsLater.spell, fun pair isAdded => ?_⟩
  rcases mem_added_append.mp isAdded with ⟨pair, isFirst, rfl⟩ | ⟨pair, isSecond, rfl⟩
  · exact (spells.fits pair isFirst).within fun glued other isExposed spell =>
      ⟨_, left glued other isExposed, spell.andThen spellsLater.spell⟩
  · apply (spellsLater.fits pair isSecond).within
    intro glued other isExposed spell
    rw [List.append_nil]
    exact ⟨_, right glued other isExposed, spells.spell.andThen spell⟩

/-- Pieces that stand before the draft. -/
theorem behind (spells : draft.Spells good style spelling exposed) {pieces : List Piece}
    (context : Spelling → Spelling)
    (spell : ∀ text other, Spell text other → Spell (pieces ++ text) (context other))
    (inside : ∀ glued other, exposed glued other → exposed' glued (context other)) :
    (Draft.plain pieces ++ draft).Spells good style (context spelling) exposed' := by
  refine ⟨spell _ _ spells.spell, fun pair isAdded => ?_⟩
  rcases mem_added_append.mp isAdded with ⟨pair, isPlain, rfl⟩ | ⟨pair, isInside, rfl⟩
  · cases isPlain
  · apply (spells.fits pair isInside).within
    intro glued other isExposed spellOther
    rw [List.append_nil]
    exact ⟨_, inside glued other isExposed, spell _ _ spellOther⟩

/-- Blanks may be put in front. -/
theorem skip (spells : draft.Spells good style spelling exposed) {blanks : List Piece}
    (blank : lexemes blanks = []) :
    (Draft.plain blanks ++ draft).Spells good style spelling exposed :=
  spells.behind id (fun _ _ spell => .skip blank spell) fun _ _ => id

/-- Blanks may be put behind. -/
theorem before_blank (spells : draft.Spells good style spelling exposed) {blanks : List Piece}
    (blank : lexemes blanks = []) :
    (draft ++ Draft.plain blanks).Spells good style spelling exposed := by
  have empty : Spell blanks .nothing := .of_blank blank
  have both : (draft ++ Draft.plain blanks).Spells good style (spelling.andThen .nothing) exposed :=
    spells.andThen (plain empty)
      (fun glued other isExposed => (Spelling.andThen_nothing other).symm ▸ isExposed)
      fun _ _ => False.elim
  rwa [Spelling.andThen_nothing] at both

section

variable {Tree Tree' Whole : Type} {form : Tree → Spelling} {form' : Tree' → Spelling}
  {formWhole : Whole → Spelling} {same grouped : Tree → Prop} {same' grouped' : Tree' → Prop}
  {sameWhole groupedWhole : Whole → Prop}

/-- The draft of a part is also one of the whole. -/
theorem part (spells : draft.Spells good style spelling (Exposed form same grouped))
    (whole : Tree → Whole) (forms : ∀ tree, form tree = formWhole (whole tree))
    (sames : ∀ tree, same tree → sameWhole (whole tree))
    (groups : ∀ tree, groupedWhole (whole tree) → grouped tree) :
    draft.Spells good style spelling (Exposed formWhole sameWhole groupedWhole) :=
  spells.mono fun _ _ isExposed => isExposed.map id whole forms sames groups

/-- Pieces that stand before the part. -/
theorem headed (spells : draft.Spells good style spelling (Exposed form same grouped))
    {pieces : List Piece} (context : Spelling → Spelling)
    (spell : ∀ text other, Spell text other → Spell (pieces ++ text) (context other)) :
    (Draft.plain pieces ++ draft).Spells good style (context spelling)
      (Exposed (fun tree => context (form tree)) same grouped) :=
  spells.behind context spell fun _ _ isExposed =>
    isExposed.map context id (fun _ => rfl) (fun _ => id) fun _ => id

/-- Pieces that stand behind the part. -/
theorem before (spells : draft.Spells good style spelling (Exposed form same grouped))
    {pieces : List Piece} (spell : Spell pieces following) :
    (draft ++ Draft.plain pieces).Spells good style (spelling.andThen following)
      (Exposed (fun tree => (form tree).andThen following) same grouped) :=
  spells.andThen (plain spell)
    (fun _ _ isExposed => isExposed.map (·.andThen following) id (fun _ => rfl) (fun _ => id)
      fun _ => id)
    fun _ _ => False.elim

/-- Two marks around a draft hide nothing that it exposes. -/
theorem enclosed (spells : draft.Spells good style spelling (Exposed form same grouped))
    (opening closing : Punctuator) :
    (Draft.enclosed opening closing draft).Spells good style
      (Spelling.enclosed opening closing spelling)
      (Exposed (fun tree => Spelling.enclosed opening closing (form tree)) same grouped) :=
  (spells.before (.mark closing)).headed (Spelling.mark opening).andThen
    fun _ _ spell => .markThen opening spell

/-- Something is exposed in one of two parts, and the other part stays what it is. -/
theorem pair (spells : first.Spells good style spelling (Exposed form same grouped))
    (spells' : second.Spells good style following (Exposed form' same' grouped'))
    (stands : ∃ tree, spelling = form tree ∧ same tree)
    (stands' : ∃ tree, following = form' tree ∧ same' tree) (whole : Tree → Tree' → Whole)
    (forms : ∀ tree tree', (form tree).andThen (form' tree') = formWhole (whole tree tree'))
    (sames : ∀ tree tree', same tree → same' tree' → sameWhole (whole tree tree'))
    (groups : ∀ tree tree', groupedWhole (whole tree tree') → grouped tree ∧ grouped' tree') :
    (first ++ second).Spells good style (spelling.andThen following)
      (Exposed formWhole sameWhole groupedWhole) := by
  obtain ⟨tree, rfl, isSame⟩ := stands
  obtain ⟨tree', rfl, isSame'⟩ := stands'
  apply spells.andThen spells'
  · intro glued other isExposed
    exact isExposed.map (·.andThen (form' tree')) (whole · tree') (fun _ => forms _ _)
      (fun _ isSame => sames _ _ isSame isSame') fun _ isGrouped => (groups _ _ isGrouped).1
  · intro glued other isExposed
    exact isExposed.map (form tree).andThen (whole tree) (fun _ => forms _ _)
      (fun _ => sames _ _ isSame) fun _ isGrouped => (groups _ _ isGrouped).2

end

end Spells

/-- Drafts of a list of items, and what is exposed in one of them. -/
inductive AllSpell (good : Lexeme → Prop) (style : Style) :
    List Draft → List Spelling → (Prop → List Spelling → Prop) → Prop
  | nil {exposed : Prop → List Spelling → Prop} : AllSpell good style [] [] exposed
  | cons {first : Draft} {rest : List Draft} {spelling : Spelling} {spellings : List Spelling}
      {exposed : Prop → Spelling → Prop} {exposedLater exposed' : Prop → List Spelling → Prop}
      (spells : first.Spells good style spelling exposed)
      (others : AllSpell good style rest spellings exposedLater)
      (here : ∀ glued other, exposed glued other → exposed' glued (other :: spellings))
      (later : ∀ glued others, exposedLater glued others → exposed' glued (spelling :: others)) :
      AllSpell good style (first :: rest) (spelling :: spellings) exposed'

namespace AllSpell

variable {good : Lexeme → Prop} {style : Style} {drafts : List Draft} {spellings : List Spelling}
  {exposed : Prop → List Spelling → Prop}

/-- Of separated drafts one exposes something, and the others stay as they are. -/
theorem separated (all : AllSpell good style drafts spellings exposed) :
    (Draft.separated style.comma drafts).Spells good style (Spelling.separated spellings)
      fun glued other => ∃ others, exposed glued others ∧ others.length = spellings.length ∧
        other = Spelling.separated others := by
  induction all with
  | nil => exact .plain .nil
  | @cons first rest spelling spellings exposed exposedLater exposed' spells others here later
      step =>
      cases others with
      | nil =>
          exact spells.imp (fun _ _ => id) fun glued other isExposed =>
            ⟨other, ⟨[other], here glued other isExposed, rfl, rfl⟩, fun _ _ => id⟩
      | @cons second rest spelling' spellings' =>
          have behind : (Draft.plain style.comma ++
              Draft.separated style.comma (second :: rest)).Spells good style
                ((Spelling.mark .comma).andThen (Spelling.separated (spelling' :: spellings')))
                fun glued other => ∃ others, exposedLater glued others ∧
                  others.length = (spelling' :: spellings').length ∧
                  other = (Spelling.mark .comma).andThen (Spelling.separated others) := by
            apply step.behind _ fun _ _ spell => spell.comma style
            rintro glued _ ⟨others, isExposed, sameLength, rfl⟩
            exact ⟨others, isExposed, sameLength, rfl⟩
          apply spells.andThen behind
          · intro glued other isExposed
            exact ⟨_, here glued other isExposed, rfl, rfl⟩
          · rintro glued _ ⟨others, isExposed, sameLength, rfl⟩
            refine ⟨_, later glued others isExposed, congrArg Nat.succ sameLength, ?_⟩
            obtain ⟨_, _, rfl⟩ := List.exists_cons_of_length_eq_add_one sameLength
            rfl

section

variable {Tree Tree' Whole : Type} {form : Tree → Spelling} {forms : Tree' → List Spelling}
  {formsWhole : Whole → List Spelling} {same grouped : Tree → Prop} {same' grouped' : Tree' → Prop}
  {sameWhole groupedWhole : Whole → Prop}

/-- Something is exposed in the first item or in the others. -/
theorem pair {first : Draft} {spelling : Spelling}
    (spells : first.Spells good style spelling (Exposed form same grouped))
    (all : AllSpell good style drafts spellings (Exposed forms same' grouped'))
    (stands : ∃ tree, spelling = form tree ∧ same tree)
    (stands' : ∃ tree, spellings = forms tree ∧ same' tree) (whole : Tree → Tree' → Whole)
    (isCons : ∀ tree tree', form tree :: forms tree' = formsWhole (whole tree tree'))
    (sames : ∀ tree tree', same tree → same' tree' → sameWhole (whole tree tree'))
    (groups : ∀ tree tree', groupedWhole (whole tree tree') → grouped tree ∧ grouped' tree') :
    AllSpell good style (first :: drafts) (spelling :: spellings)
      (Exposed formsWhole sameWhole groupedWhole) := by
  obtain ⟨tree, rfl, isSame⟩ := stands
  obtain ⟨tree', rfl, isSame'⟩ := stands'
  apply cons spells all
  · intro glued other isExposed
    exact isExposed.map (· :: forms tree') (whole · tree') (fun _ => isCons _ _)
      (fun _ isSame => sames _ _ isSame isSame') fun _ isGrouped => (groups _ _ isGrouped).1
  · intro glued others isExposed
    exact isExposed.map (form tree :: ·) (whole tree) (fun _ => isCons _ _)
      (fun _ => sames _ _ isSame) fun _ isGrouped => (groups _ _ isGrouped).2

/-- What one item exposes is exposed in the separated items. -/
theorem parted (all : AllSpell good style drafts spellings (Exposed forms same' grouped')) :
    (Draft.separated style.comma drafts).Spells good style (Spelling.separated spellings)
      (Exposed (fun tree => Spelling.separated (forms tree)) same' grouped') := by
  apply all.separated.mono
  rintro glued _ ⟨others, isExposed, _, rfl⟩
  exact isExposed.map Spelling.separated id (fun _ => rfl) (fun _ => id) fun _ => id

/-- What one item exposes is exposed in the list. -/
theorem listed (all : AllSpell good style drafts spellings (Exposed forms same' grouped')) :
    (Draft.separated style.comma drafts).Spells good style (Spelling.listed spellings)
      (Exposed (fun tree => Spelling.listed (forms tree)) same' grouped') := by
  apply all.separated.imp fun _ _ => Spelling.listed_of_separated
  rintro glued _ ⟨others, isExposed, _, rfl⟩
  exact ⟨_, isExposed.map Spelling.listed id (fun _ => rfl) (fun _ => id) fun _ => id,
    fun _ _ => Spelling.listed_of_separated⟩

end

end AllSpell

/-- Lines are told apart by their ends and not by what stands between them. -/
theorem Spells.lines {good : Lexeme → Prop} {style : Style} {first : Draft} {rest : List Draft}
    {separator : List Piece} {spelling following : Spelling}
    {exposed exposedLater exposed' : Prop → Spelling → Prop} (blank : lexemes separator = [])
    (spells : first.Spells good style spelling exposed)
    (spellsRest : (Draft.separated separator rest).Spells good style following exposedLater)
    (left : ∀ glued other, exposed glued other → exposed' glued (other.andThen following))
    (right : ∀ glued other, exposedLater glued other → exposed' glued (spelling.andThen other)) :
    (Draft.separated separator (first :: rest)).Spells good style (spelling.andThen following)
      exposed' := by
  cases rest with
  | nil =>
      refine ⟨?_, fun pair isAdded => ?_⟩
      · have spell := spells.spell.andThen spellsRest.spell
        rwa [Draft.separated, pieces_plain, List.append_nil] at spell
      · obtain ⟨inner, glued, other, isGlued, isExposed, spell⟩ := spells.fits pair isAdded
        have spellBoth := spell.andThen spellsRest.spell
        rw [Draft.separated, pieces_plain, List.append_nil] at spellBoth
        exact ⟨inner, glued, _, isGlued, left glued other isExposed, spellBoth⟩
  | cons second rest => exact spells.andThen (spellsRest.skip blank) left right

end Draft

end Piece

end ScriptStrip
