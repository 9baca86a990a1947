import Mathlib
import ScriptStrip.Proofs.NodeSlices
import ScriptStrip.Proofs.Plain
/-
This file prints expressions that no source text was read for. Any expression may stand in any
place of another one, so the printed text is read again only because of the parentheses and the
blanks that are added to it.
-/

namespace ScriptStrip

/-- The parser finds the block, up to its places, in a text whose tokens are plain. -/
def Block.IsProduced (block : Block) : Prop :=
  ∃ source stream found, TokenStream.ofSource source = .ok stream ∧
    stream.AllGood Lexeme.IsPlain ∧ Node.parse .block source = .ok (.block found) ∧
    found.placeless = block.placeless

/-- A key built by hand is an identifier, or a plain string or number. -/
def PropertyKey.Built : PropertyKey → Prop
  | identifier name _ => Text.isIdentifier name = true
  | string content quote _ => (Lexeme.string content quote).IsPlain
  | number digits _ => (Lexeme.number digits).IsPlain

mutual

/-- The expression is put together of plain leaves and of bodies that the parser produces. -/
def Expression.Built : Expression → Prop
  | .number digits _ => (Lexeme.number digits).IsPlain
  | .string content quote _ => (Lexeme.string content quote).IsPlain
  | .boolean .. | .null _ | .undefined _ => True
  | .array items _ => Expression.AllBuilt items
  | .object members _ => Member.AllBuilt members
  | .function definition => definition.Built
  | .group inner _ => inner.Built
  | .reference name _ => (Lexeme.identifier name).IsPlain
  | .property parent name _ => parent.Built ∧ Text.isIdentifier name = true
  | .index parent key _ => parent.Built ∧ key.Built
  | .call callee arguments _ => callee.Built ∧ Expression.AllBuilt arguments
  | .unary _ operand _ => operand.Built
  | .binary left _ right _ => left.Built ∧ right.Built
  | .assign target value _ => target.IsTarget ∧ target.Built ∧ value.Built

/-- Each expression of the list is built by hand. -/
def Expression.AllBuilt : List Expression → Prop
  | [] => True
  | first :: rest => first.Built ∧ Expression.AllBuilt rest

/-- The keys and the values of an object are built by hand. -/
def Member.AllBuilt : List Member → Prop
  | [] => True
  | ⟨key, value, _⟩ :: rest => key.Built ∧ value.Built ∧ Member.AllBuilt rest

/-- A function may have plain names, and its body comes out of a parsed text. -/
def FunctionDef.Built : FunctionDef → Prop
  | ⟨name, parameters, body, _⟩ =>
      (∀ word, name = some word → (Lexeme.identifier word).IsPlain) ∧
        (∀ word ∈ parameters, (Lexeme.identifier word).IsPlain) ∧ body.IsProduced

end

section
variable {good : Lexeme → Prop}

/-- Being formed does not depend on the place of a key. -/
theorem PropertyKey.formed_placeless (key : PropertyKey) :
    key.placeless.Formed good ↔ key.Formed good := by
  cases key <;> exact Iff.rfl

mutual

/-- Being formed does not depend on the places in an expression. -/
theorem Expression.formed_placeless (expression : Expression) :
    expression.placeless.Formed good ↔ expression.Formed good := by
  cases expression with
  | array items span =>
      simp only [Expression.placeless, Expression.Formed]
      exact Expression.allFormed_placeless items
  | object members span =>
      simp only [Expression.placeless, Expression.Formed]
      exact Member.allFormed_placeless members
  | function definition =>
      simp only [Expression.placeless, Expression.Formed]
      exact FunctionDef.formed_placeless definition
  | group inner span =>
      simp only [Expression.placeless, Expression.Formed]
      exact Expression.formed_placeless inner
  | property parent name span =>
      simp [Expression.placeless, Expression.Formed, Expression.formed_placeless parent]
  | index parent key span =>
      simp [Expression.placeless, Expression.Formed, Expression.formed_placeless parent,
        Expression.formed_placeless key]
  | call callee arguments span =>
      simp [Expression.placeless, Expression.Formed, Expression.formed_placeless callee,
        Expression.allFormed_placeless arguments]
  | unary operator operand span =>
      simp [Expression.placeless, Expression.Formed, Expression.formed_placeless operand]
  | binary left operator right span =>
      simp [Expression.placeless, Expression.Formed, Expression.formed_placeless left,
        Expression.formed_placeless right]
  | assign target value span =>
      simp [Expression.placeless, Expression.Formed, Expression.formed_placeless target,
        Expression.formed_placeless value]
  | _ => simp [Expression.placeless, Expression.Formed]

/-- Being formed does not depend on the places in a list of expressions. -/
theorem Expression.allFormed_placeless (items : List Expression) :
    Expression.AllFormed good (Expression.placelessAll items) ↔
      Expression.AllFormed good items := by
  cases items with
  | nil => rw [Expression.placelessAll]
  | cons first rest =>
      simp [Expression.placelessAll, Expression.AllFormed, Expression.formed_placeless first,
        Expression.allFormed_placeless rest]

/-- Being formed does not depend on the places in an object. -/
theorem Member.allFormed_placeless (members : List Member) :
    Member.AllFormed good (Member.placelessAll members) ↔ Member.AllFormed good members := by
  cases members with
  | nil => rw [Member.placelessAll]
  | cons first rest =>
      cases first with
      | mk key value span =>
          simp [Member.placelessAll, Member.AllFormed, PropertyKey.formed_placeless key,
            Expression.formed_placeless value, Member.allFormed_placeless rest]

/-- Being formed does not depend on the places in a function. -/
theorem FunctionDef.formed_placeless (definition : FunctionDef) :
    definition.placeless.Formed good ↔ definition.Formed good := by
  cases definition with
  | mk name parameters body span =>
      simp [FunctionDef.placeless, FunctionDef.Formed, Block.formed_placeless body]

/-- Being formed does not depend on the places in a block. -/
theorem Block.formed_placeless (block : Block) :
    block.placeless.Formed good ↔ block.Formed good := by
  cases block with
  | mk items span =>
      simp [Block.placeless, Block.Formed, Statement.allFormed_placeless items]

/-- Being formed does not depend on the places in a statement. -/
theorem Statement.formed_placeless (statement : Statement) :
    statement.placeless.Formed good ↔ statement.Formed good := by
  cases statement with
  | expression value span =>
      simp [Statement.placeless, Statement.Formed, Expression.formed_placeless value]
  | declaration word items span =>
      simp [Statement.placeless, Statement.Formed, Declarator.allFormed_placeless items,
        Declarator.placelessAll_eq_nil_iff]
  | function definition =>
      have sameName : definition.placeless.name = definition.name := by
        cases definition
        rfl
      simp [Statement.placeless, Statement.Formed, sameName,
        FunctionDef.formed_placeless definition]
  | conditional condition consequent alternate span =>
      simp [Statement.placeless, Statement.Formed, Expression.formed_placeless condition,
        Branch.formed_placeless consequent, Branch.alternateFormed_placeless alternate,
        Branch.placelessOption_eq_none_iff]
  | returning value span =>
      cases value with
      | none => simp [Statement.placeless, Statement.Formed, Expression.placelessOption]
      | some value =>
          simp [Statement.placeless, Statement.Formed, Expression.placelessOption,
            Expression.formed_placeless value]
  | block inner => simp [Statement.placeless, Statement.Formed, Block.formed_placeless inner]
  | empty span => simp [Statement.placeless, Statement.Formed]

/-- Being formed does not depend on the places in a list of statements. -/
theorem Statement.allFormed_placeless (items : List Statement) :
    Statement.AllFormed good (Statement.placelessAll items) ↔ Statement.AllFormed good items := by
  cases items with
  | nil => rw [Statement.placelessAll]
  | cons first rest =>
      simp [Statement.placelessAll, Statement.AllFormed, Statement.formed_placeless first,
        Statement.allFormed_placeless rest]

/-- Being formed does not depend on the places in a declaration. -/
theorem Declarator.allFormed_placeless (items : List Declarator) :
    Declarator.AllFormed good (Declarator.placelessAll items) ↔
      Declarator.AllFormed good items := by
  cases items with
  | nil => rw [Declarator.placelessAll]
  | cons first rest =>
      cases first with
      | mk name value span =>
          cases value with
          | none =>
              simp [Declarator.placelessAll, Declarator.AllFormed, Expression.placelessOption,
                Declarator.allFormed_placeless rest]
          | some value =>
              simp [Declarator.placelessAll, Declarator.AllFormed, Expression.placelessOption,
                Expression.formed_placeless value, Declarator.allFormed_placeless rest]

/-- Being formed does not depend on the places in a branch. -/
theorem Branch.formed_placeless (branch : Branch) :
    branch.placeless.Formed good ↔ branch.Formed good := by
  cases branch with
  | braced block =>
      simp [Branch.placeless, Branch.Formed, Block.formed_placeless block]
  | single statement =>
      have sameKind : (∀ inner, statement.placeless ≠ .block inner) ↔
          ∀ inner, statement ≠ .block inner := by
        cases statement <;> simp [Statement.placeless]
      simp only [Branch.placeless, Branch.Formed]
      rw [sameKind, Statement.formed_placeless statement]

/-- Being formed does not depend on the places in a second branch. -/
theorem Branch.alternateFormed_placeless (branch : Option Branch) :
    Branch.AlternateFormed good (Branch.placelessOption branch) ↔
      Branch.AlternateFormed good branch := by
  cases branch with
  | none => rw [Branch.placelessOption]
  | some branch =>
      simp [Branch.placelessOption, Branch.AlternateFormed, Branch.formed_placeless branch]

end

end

/-- What the parser produces can be printed in every layout. -/
theorem Block.IsProduced.formed {block : Block} (produced : block.IsProduced) (style : Style) :
    block.Formed style.CanWrite := by
  obtain ⟨source, stream, found, scanned, plain, parsed, same⟩ := produced
  obtain ⟨stream', rest, scanned', reads, _⟩ := Parser.readAll_eq_ok_iff.mp parsed
  obtain rfl : stream = stream' := Except.ok.inj (scanned.symm.trans scanned')
  obtain ⟨found', readsBlock, isFound⟩ := Parser.reads_map_iff.mp reads
  obtain rfl : found' = found := Node.block.inj isFound.symm
  obtain ⟨wellShaped, spelled⟩ :=
    Grammar.Sound.block (Grammar.sound_within _) (Parser.reads_reader_iff.mp readsBlock)
  have canWrite : stream.AllGood style.CanWrite := fun token inside =>
    (plain token inside).canWrite style
  have formed := Spelling.formed_ofBlock canWrite style.tellsNames_canWrite found' wellShaped
    ⟨stream, rest, spelled, List.suffix_rfl⟩
  rwa [← Block.formed_placeless, same, Block.formed_placeless] at formed

/-- A key built by hand is formed of tokens that can be written. -/
theorem PropertyKey.Built.formed {key : PropertyKey} (built : key.Built) (style : Style) :
    key.Formed style.CanWrite := by
  cases key with
  | identifier name span => exact (Lexeme.isPlain_ofWord built).canWrite style
  | string content quote span =>
      have isPlain : (Lexeme.string content quote).IsPlain := built
      exact isPlain.canWrite style
  | number digits span =>
      have isPlain : (Lexeme.number digits).IsPlain := built
      exact isPlain.canWrite style

mutual

/-- An expression built by hand is formed of tokens that can be written. -/
theorem Expression.formed_of_built (style : Style) (expression : Expression)
    (built : expression.Built) : expression.Formed style.CanWrite := by
  cases expression with
  | number digits span => exact built.canWrite style
  | string content quote span => exact built.canWrite style
  | boolean value span => exact trivial
  | null span => exact trivial
  | undefined span => exact trivial
  | array items span => exact Expression.allFormed_of_built style items built
  | object members span => exact Member.allFormed_of_built style members built
  | function definition => exact definition.formed_of_built style built
  | group inner span => exact inner.formed_of_built style built
  | reference name span => exact built.canWrite style
  | property parent name span =>
      exact ⟨parent.formed_of_built style built.1, (Lexeme.isPlain_ofWord built.2).canWrite style⟩
  | index parent key span =>
      exact ⟨parent.formed_of_built style built.1, key.formed_of_built style built.2⟩
  | call callee arguments span =>
      exact ⟨callee.formed_of_built style built.1,
        Expression.allFormed_of_built style arguments built.2⟩
  | unary operator operand span => exact operand.formed_of_built style built
  | binary left operator right span =>
      exact ⟨left.formed_of_built style built.1, right.formed_of_built style built.2⟩
  | assign target value span =>
      exact ⟨built.1, target.formed_of_built style built.2.1, value.formed_of_built style built.2.2⟩

/-- Expressions built by hand are formed of tokens that can be written. -/
theorem Expression.allFormed_of_built (style : Style) (items : List Expression)
    (built : Expression.AllBuilt items) : Expression.AllFormed style.CanWrite items := by
  cases items with
  | nil => exact trivial
  | cons first rest =>
      exact ⟨first.formed_of_built style built.1, Expression.allFormed_of_built style rest built.2⟩

/-- Members built by hand are formed of tokens that can be written. -/
theorem Member.allFormed_of_built (style : Style) (members : List Member)
    (built : Member.AllBuilt members) : Member.AllFormed style.CanWrite members := by
  cases members with
  | nil => exact trivial
  | cons first rest =>
      cases first with
      | mk key value span =>
          exact ⟨built.1.formed style, value.formed_of_built style built.2.1,
            Member.allFormed_of_built style rest built.2.2⟩

/-- A function built by hand is formed of tokens that can be written. -/
theorem FunctionDef.formed_of_built (style : Style) (definition : FunctionDef)
    (built : definition.Built) : definition.Formed style.CanWrite := by
  cases definition with
  | mk name parameters body span =>
      exact ⟨fun word isName => (built.1 word isName).canWrite style,
        fun word inside => (built.2.1 word inside).canWrite style, built.2.2.formed style⟩

end

namespace Expression

/-- The printed text is read as an expression that means the same. -/
def ReadsBack (style : Style) (expression : Expression) : Prop :=
  ∃ again, Node.parse .expression (expression.print style) = .ok (.expression again) ∧
    again.erased.same expression.erased = true

/-- Whatever is formed of tokens that can be written is read back from its text. -/
theorem readsBack_of_formed {style : Style} (blank : style.IndentsByBlanks)
    {expression : Expression} (formed : expression.Formed style.CanWrite) :
    expression.ReadsBack style := by
  have written := expression.written_of_formed formed
  have spaced := Piece.spaced_expression blank 0 expression written []
    (style.endsAll_nil.endsBefore expression)
  obtain ⟨stream, rest, scanned, printed, atEnd⟩ := Scan.stream_of_spaced spaced 0 false
  have spelled := Piece.spell_expression style 0 style.tellsNames_canWrite expression written
    stream rest (Spelling.ofPieces_false printed)
  have scannedText : TokenStream.ofSource (expression.print style) = .ok stream := by
    rw [TokenStream.ofSource, print, Piece.toList_render]
    exact scanned
  have closes : rest.front.ClosesStatements := .inr atEnd
  have recovers := Node.recovers_reader ((Grammar.complete_within (stream.size + 1)).assignment
    (by rw [Grammar.levels_within]; exact Nat.le_succ _)
    ⟨expression.wellShaped_regrouped formed, spelled⟩ closes.not_continuesExpression)
  obtain ⟨again, parsed, same⟩ :=
    Node.parse_of_recovers .expression .expression rfl scannedText recovers atEnd
  refine ⟨again, parsed, ?_⟩
  apply same_of_placeless
  rw [← erased_placeless, same, erased_placeless, erased_regrouped]

/-- An expression that is put together of valid parts reads back from both layouts, whatever
stands in which place. -/
theorem readsBack_of_built {expression : Expression} (built : expression.Built) :
    expression.ReadsBack .standard ∧ expression.ReadsBack .minified :=
  ⟨readsBack_of_formed Style.indentsByBlanks_standard (expression.formed_of_built .standard built),
    readsBack_of_formed Style.indentsByBlanks_minified (expression.formed_of_built .minified built)⟩

/-- A function that is called, a number in front of a dot and signs behind signs. -/
theorem readsBack_of_built_call :
    let body : Block := ⟨[.returning (some (.reference "b" .null)) .null], .null⟩
    let expression : Expression := .binary
      (.call (.function ⟨none, ["b"], body, .null⟩) [.string "c" .double .null] .null) .multiply
      (.binary (.unary .negate (.unary .negate (.property (.number "1" .null) "if" .null) .null)
        .null) .add (.assign (.reference "d" .null) (.number "2e3" .null) .null) .null) .null
    expression.Built ∧ expression.ReadsBack .standard ∧ expression.ReadsBack .minified := by
  intro body expression
  have produced : body.IsProduced := by
    have scanned : ∃ stream, TokenStream.ofSource "{return b;}" = .ok stream ∧
        stream.ahead.map Token.lexeme = [.punctuator .openBrace, .keyword .returnKw,
          .identifier "b", .punctuator .semicolon, .punctuator .closeBrace] := ⟨_, by cbv, rfl⟩
    obtain ⟨stream, scanned, lexemes⟩ := scanned
    refine ⟨"{return b;}", stream, ⟨[.returning (some (.reference "b" ⟨8, 9⟩)) ⟨1, 9⟩], ⟨0, 11⟩⟩,
      scanned, ?_, by cbv, rfl⟩
    intro token inside
    have isLexeme : token.lexeme ∈ stream.ahead.map Token.lexeme := List.mem_map_of_mem inside
    rw [lexemes] at isLexeme
    simp only [List.mem_cons, List.not_mem_nil, or_false] at isLexeme
    rcases isLexeme with isLexeme | isLexeme | isLexeme | isLexeme | isLexeme <;> rw [isLexeme]
    all_goals first | exact trivial | exact ⟨by decide, by decide⟩
  have one : (Lexeme.number "1").IsPlain :=
    .plain (List.cons_ne_nil '1' []) (List.forall_mem_singleton.mpr rfl) .nothing
  have thousands : (Lexeme.number "2e3").IsPlain :=
    .scaled (List.cons_ne_nil '2' []) (List.forall_mem_singleton.mpr rfl) .nothing
      (Bool.or_eq_true_iff.mpr (.inl (beq_self_eq_true 'e'))) (.inl rfl)
      (List.cons_ne_nil '3' []) (List.forall_mem_singleton.mpr rfl)
  have built : expression.Built := by
    refine ⟨⟨⟨by simp, ?_, produced⟩, by cbv, trivial⟩, ⟨one, by decide⟩, .reference, ?_, thousands⟩
    · intro word inside
      obtain rfl := List.mem_singleton.mp inside
      exact ⟨by decide, by decide⟩
    · exact ⟨by decide, by decide⟩
  exact ⟨built, readsBack_of_built built⟩

end Expression

end ScriptStrip
