import ScriptStrip.Proofs.Legible
import ScriptStrip.Proofs.SpellingLaws
/-
This file says which trees can be printed. They have the shape of a script wherever parentheses
cannot help, and their words, numbers and strings can be written. Every tree that is read from a
text is of this kind.
-/

namespace ScriptStrip

/-- The token of a key is good. -/
def PropertyKey.Formed (good : Lexeme → Prop) : PropertyKey → Prop
  | identifier name _ => good (.ofWord name)
  | string content quote _ => good (.string content quote)
  | number digits _ => good (.number digits)

mutual

/-- The words, numbers and strings of the expression are good, and so is its shape, whatever it
takes to group it. -/
def Expression.Formed (good : Lexeme → Prop) : Expression → Prop
  | .number digits _ => good (.number digits)
  | .string content quote _ => good (.string content quote)
  | .boolean .. | .null _ | .undefined _ => True
  | .array items _ => Expression.AllFormed good items
  | .object members _ => Member.AllFormed good members
  | .function definition => definition.Formed good
  | .group inner _ => inner.Formed good
  | .reference name _ => good (.identifier name)
  | .property parent name _ => parent.Formed good ∧ good (.ofWord name)
  | .index parent key _ => parent.Formed good ∧ key.Formed good
  | .call callee arguments _ => callee.Formed good ∧ Expression.AllFormed good arguments
  | .unary _ operand _ => operand.Formed good
  | .binary left _ right _ => left.Formed good ∧ right.Formed good
  | .assign target value _ =>
      target.IsTarget ∧ target.Formed good ∧ value.Formed good

/-- Each expression of the list is formed. -/
def Expression.AllFormed (good : Lexeme → Prop) : List Expression → Prop
  | [] => True
  | first :: rest => first.Formed good ∧ Expression.AllFormed good rest

/-- The keys of an object are good and its values are formed. -/
def Member.AllFormed (good : Lexeme → Prop) : List Member → Prop
  | [] => True
  | ⟨key, value, _⟩ :: rest => key.Formed good ∧ value.Formed good ∧ Member.AllFormed good rest

/-- The names of a function are good and its body is formed. -/
def FunctionDef.Formed (good : Lexeme → Prop) : FunctionDef → Prop
  | ⟨name, parameters, body, _⟩ =>
      (∀ word, name = some word → good (.identifier word)) ∧
        (∀ word ∈ parameters, good (.identifier word)) ∧ body.Formed good

/-- The statements of a block are formed. -/
def Block.Formed (good : Lexeme → Prop) : Block → Prop
  | ⟨items, _⟩ => Statement.AllFormed good items

/-- A statement has the shape of its grammar, and its leaves are good. -/
def Statement.Formed (good : Lexeme → Prop) : Statement → Prop
  | .expression value _ => value.Formed good
  | .declaration _ items _ => items ≠ [] ∧ Declarator.AllFormed good items
  | .function definition => definition.name ≠ none ∧ definition.Formed good
  | .conditional condition consequent alternate _ =>
      condition.Formed good ∧ consequent.Formed good ∧
        (alternate ≠ none → consequent.endsOpen = false) ∧ Branch.AlternateFormed good alternate
  | .returning none _ => True
  | .returning (some value) _ => value.Formed good
  | .block inner => inner.Formed good
  | .empty _ => True

/-- Each statement of the list is formed. -/
def Statement.AllFormed (good : Lexeme → Prop) : List Statement → Prop
  | [] => True
  | first :: rest => first.Formed good ∧ Statement.AllFormed good rest

/-- The declared names are good and the initial values are formed. -/
def Declarator.AllFormed (good : Lexeme → Prop) : List Declarator → Prop
  | [] => True
  | ⟨name, none, _⟩ :: rest => good (.identifier name) ∧ Declarator.AllFormed good rest
  | ⟨name, some value, _⟩ :: rest =>
      good (.identifier name) ∧ value.Formed good ∧ Declarator.AllFormed good rest

/-- A block as a branch is a braced one. -/
def Branch.Formed (good : Lexeme → Prop) : Branch → Prop
  | .braced block => block.Formed good
  | .single statement => (∀ inner, statement ≠ .block inner) ∧ statement.Formed good

/-- A missing branch has nothing to be formed. -/
def Branch.AlternateFormed (good : Lexeme → Prop) : Option Branch → Prop
  | none => True
  | some branch => branch.Formed good

end

/-- The statements of a script are formed. -/
def Script.Formed (good : Lexeme → Prop) (script : Script) : Prop :=
  Statement.AllFormed good script.items

/-- All tokens before the end of the stream are good. -/
def TokenStream.AllGood (good : Lexeme → Prop) (stream : TokenStream) : Prop :=
  ∀ token ∈ stream.ahead, good token.lexeme

namespace Spelling

/-- The tokens of the spelling lie somewhere in the stream. -/
def PartOf (stream : TokenStream) (spelling : Spelling) : Prop :=
  ∃ before after, spelling before after ∧ before.ahead <:+ stream.ahead

variable {stream : TokenStream} {good : Lexeme → Prop}

/-- A part of a sequence is the first item, or a part of the others. -/
theorem PartOf.of_inOrder {first second : Spelling} {rest : List Spelling}
    (bounded : first.Bounded) (part : (inOrder (first :: second :: rest)).PartOf stream) :
    first.PartOf stream ∧ (inOrder (second :: rest)).PartOf stream := by
  obtain ⟨before, after, ⟨middle, spelled, spelledRest⟩, suffix⟩ := part
  have further := (bounded before middle spelled).trans suffix
  exact ⟨⟨before, middle, spelled, suffix⟩, ⟨middle, after, spelledRest, further⟩⟩

/-- What stands between two marks is a part of the stream. -/
theorem PartOf.of_enclosed {opening closing : Punctuator} {inner : Spelling}
    (bounded : inner.Bounded) (part : (enclosed opening closing inner).PartOf stream) :
    inner.PartOf stream :=
  ((part.of_inOrder (advances_mark opening).bounded).2.of_inOrder bounded).1

/-- Each of several separated items is a part of the stream. -/
theorem PartOf.of_separated {items : List Spelling} (bounded : ∀ item ∈ items, item.Bounded)
    (part : (separated items).PartOf stream) : ∀ item ∈ items, item.PartOf stream := by
  fun_induction separated items with
  | case1 => simp
  | case2 last => simpa using part
  | case3 first rest other inductionHypothesis =>
      rw [List.forall_mem_cons] at bounded ⊢
      obtain ⟨ofFirst, further⟩ := part.of_inOrder bounded.1
      exact ⟨ofFirst,
        inductionHypothesis bounded.2 (further.of_inOrder (advances_mark .comma).bounded).2⟩

/-- Each item of a list is a part of the stream. -/
theorem PartOf.of_listed {items : List Spelling} (bounded : ∀ item ∈ items, item.Bounded)
    (part : (listed items).PartOf stream) : ∀ item ∈ items, item.PartOf stream := by
  fun_induction listed items with
  | case1 => simp
  | case2 last =>
      obtain ⟨before, after, ⟨middle, spelled, _⟩, suffix⟩ := part
      simpa using ⟨before, middle, spelled, suffix⟩
  | case3 first rest other inductionHypothesis =>
      rw [List.forall_mem_cons] at bounded ⊢
      obtain ⟨ofFirst, further⟩ := part.of_inOrder bounded.1
      exact ⟨ofFirst,
        inductionHypothesis bounded.2 (further.of_inOrder (advances_mark .comma).bounded).2⟩

/-- A token that is part of a good stream is good. -/
theorem PartOf.of_one {wanted : Lexeme → Prop} (inside : ¬ wanted .endOfSource)
    (part : (one wanted).PartOf stream) (allGood : stream.AllGood good) :
    ∃ lexeme, wanted lexeme ∧ good lexeme := by
  obtain ⟨before, after, ⟨found, _⟩, suffix⟩ := part
  refine ⟨before.front.lexeme, found, ?_⟩
  have nonempty : before.ahead ≠ [] := by
    rw [Ne, ← before.front_lexeme_eq_end_iff]
    intro atEnd
    rw [atEnd] at found
    exact inside found
  obtain ⟨first, rest, shape⟩ := List.exists_cons_of_ne_nil nonempty
  have isFirst : before.front = first := by
    rw [TokenStream.front, shape]
    rfl
  rw [isFirst]
  exact allGood first (suffix.subset (by simp [shape]))

/-- A fixed token that is part of a good stream is good. -/
theorem PartOf.good_of_lexeme {lexeme : Lexeme} (inside : lexeme ≠ .endOfSource)
    (part : (one (· = lexeme)).PartOf stream) (allGood : stream.AllGood good) : good lexeme := by
  obtain ⟨_, rfl, isGood⟩ := part.of_one (fun same => inside same.symm) allGood
  exact isGood

end Spelling

/-- The names among the good lexemes are not keywords. -/
def Lexeme.TellsNames (good : Lexeme → Prop) : Prop :=
  ∀ name, good (.identifier name) → Lexeme.ofWord name = .identifier name

/-- A word is good as a name if its token is. -/
theorem Lexeme.IsWord.good_ofWord {good : Lexeme → Prop} {lexeme : Lexeme} {name : String}
    (isWord : lexeme.IsWord name) (isGood : good lexeme) (names : Lexeme.TellsNames good) :
    good (.ofWord name) := by
  rcases isWord with rfl | ⟨word, rfl, rfl⟩
  · rwa [names name isGood]
  · rwa [Lexeme.ofWord_keyword]

/-- A key that is spelled by good tokens is formed. -/
theorem PropertyKey.formed_of_partOf {good : Lexeme → Prop} {stream : TokenStream}
    (allGood : stream.AllGood good) (names : Lexeme.TellsNames good) {key : PropertyKey}
    (part : (Spelling.one key.IsWrittenAs).PartOf stream) : key.Formed good := by
  have inside : ¬ key.IsWrittenAs .endOfSource := by
    cases key <;> simp [PropertyKey.IsWrittenAs, Lexeme.IsWord]
  obtain ⟨lexeme, isKey, isGood⟩ := part.of_one inside allGood
  cases key with
  | identifier name span => exact isKey.good_ofWord isGood names
  | string content quote span =>
      obtain rfl : lexeme = .string content quote := isKey
      exact isGood
  | number digits span =>
      obtain rfl : lexeme = .number digits := isKey
      exact isGood

namespace Spelling

mutual

/-- An expression that is spelled by good tokens is formed. -/
theorem formed_ofExpression {good : Lexeme → Prop} {stream : TokenStream}
    (allGood : stream.AllGood good) (names : Lexeme.TellsNames good) (expression : Expression)
    (wellShaped : expression.WellShaped) (part : (ofExpression expression).PartOf stream) :
    expression.Formed good := by
  cases expression with
  | number digits span => exact part.good_of_lexeme (by simp) allGood
  | string content quote span => exact part.good_of_lexeme (by simp) allGood
  | boolean value span => exact trivial
  | null span => exact trivial
  | undefined span => exact trivial
  | array items span =>
      have bounded := bounded_ofExpressions items
      exact formed_ofExpressions allGood names items wellShaped
        ((part.of_enclosed (bounded_listed bounded)).of_listed bounded)
  | object members span =>
      have bounded := bounded_ofMembers members
      exact formed_ofMembers allGood names members wellShaped
        ((part.of_enclosed (bounded_listed bounded)).of_listed bounded)
  | function definition => exact formed_ofFunction allGood names definition wellShaped part
  | group inner span =>
      exact formed_ofExpression allGood names inner wellShaped
        (part.of_enclosed (advances_ofExpression inner).bounded)
  | reference name span => exact part.good_of_lexeme (by simp) allGood
  | property parent name span =>
      obtain ⟨ofParent, further⟩ := part.of_inOrder (advances_ofExpression parent).bounded
      obtain ⟨_, ofName⟩ := further.of_inOrder (advances_mark .dot).bounded
      obtain ⟨lexeme, isWord, isGood⟩ := ofName.of_one (by simp [Lexeme.IsWord]) allGood
      exact ⟨formed_ofExpression allGood names parent wellShaped.2 ofParent,
        isWord.good_ofWord isGood names⟩
  | index parent key span =>
      obtain ⟨ofParent, brackets⟩ := part.of_inOrder (advances_ofExpression parent).bounded
      have ofKey := PartOf.of_enclosed (advances_ofExpression key).bounded brackets
      exact ⟨formed_ofExpression allGood names parent wellShaped.2.1 ofParent,
        formed_ofExpression allGood names key wellShaped.2.2 ofKey⟩
  | call callee arguments span =>
      have bounded := bounded_ofExpressions arguments
      obtain ⟨ofCallee, parentheses⟩ := part.of_inOrder (advances_ofExpression callee).bounded
      have inner := PartOf.of_enclosed (bounded_listed bounded) parentheses
      exact ⟨formed_ofExpression allGood names callee wellShaped.2.1 ofCallee,
        formed_ofExpressions allGood names arguments wellShaped.2.2 (inner.of_listed bounded)⟩
  | unary operator operand span =>
      obtain ⟨_, ofOperand⟩ := part.of_inOrder (advances_unaryOperator operator).bounded
      exact formed_ofExpression allGood names operand wellShaped.2.2 ofOperand
  | binary left operator right span =>
      obtain ⟨ofLeft, further⟩ := part.of_inOrder (advances_ofExpression left).bounded
      obtain ⟨_, ofRight⟩ := further.of_inOrder (advances_binaryOperator operator).bounded
      exact ⟨formed_ofExpression allGood names left wellShaped.2.2.1 ofLeft,
        formed_ofExpression allGood names right wellShaped.2.2.2 ofRight⟩
  | assign target value span =>
      obtain ⟨ofTarget, further⟩ := part.of_inOrder (advances_ofExpression target).bounded
      obtain ⟨_, ofValue⟩ := further.of_inOrder (advances_mark .assign).bounded
      exact ⟨wellShaped.1, formed_ofExpression allGood names target wellShaped.2.1 ofTarget,
        formed_ofExpression allGood names value wellShaped.2.2 ofValue⟩

/-- Expressions that are spelled by good tokens are formed. -/
theorem formed_ofExpressions {good : Lexeme → Prop} {stream : TokenStream}
    (allGood : stream.AllGood good) (names : Lexeme.TellsNames good) (items : List Expression)
    (wellShaped : Expression.AllWellShaped items)
    (parts : ∀ spelling ∈ ofExpressions items, spelling.PartOf stream) :
    Expression.AllFormed good items := by
  cases items with
  | nil => exact trivial
  | cons first rest =>
      rw [ofExpressions, List.forall_mem_cons] at parts
      exact ⟨formed_ofExpression allGood names first wellShaped.1 parts.1,
        formed_ofExpressions allGood names rest wellShaped.2 parts.2⟩

/-- Members that are spelled by good tokens are formed. -/
theorem formed_ofMembers {good : Lexeme → Prop} {stream : TokenStream}
    (allGood : stream.AllGood good) (names : Lexeme.TellsNames good) (members : List Member)
    (wellShaped : Member.AllWellShaped members)
    (parts : ∀ spelling ∈ ofMembers members, spelling.PartOf stream) :
    Member.AllFormed good members := by
  cases members with
  | nil => exact trivial
  | cons first rest =>
      cases first with
      | mk key value span =>
          rw [ofMembers, List.forall_mem_cons] at parts
          obtain ⟨ofKey, further⟩ := parts.1.of_inOrder (advances_key key).bounded
          obtain ⟨_, ofValue⟩ := further.of_inOrder (advances_mark .colon).bounded
          exact ⟨PropertyKey.formed_of_partOf allGood names ofKey,
            formed_ofExpression allGood names value wellShaped.1 ofValue,
            formed_ofMembers allGood names rest wellShaped.2 parts.2⟩

/-- A function that is spelled by good tokens is formed. -/
theorem formed_ofFunction {good : Lexeme → Prop} {stream : TokenStream}
    (allGood : stream.AllGood good) (names : Lexeme.TellsNames good) (definition : FunctionDef)
    (wellShaped : definition.WellShaped) (part : (ofFunction definition).PartOf stream) :
    definition.Formed good := by
  cases definition with
  | mk name parameters body span =>
      obtain ⟨_, further⟩ := part.of_inOrder (advances_keyword .functionKw).bounded
      obtain ⟨ofName, further⟩ := further.of_inOrder (bounded_name name)
      obtain ⟨parentheses, ofBody⟩ := further.of_inOrder (advances_parameters parameters).bounded
      have bounded := bounded_parameters parameters
      have ofParameters := (PartOf.of_enclosed (bounded_listed bounded) parentheses).of_listed
        bounded
      refine ⟨?_, fun word inside => ?_, formed_ofBlock allGood names body wellShaped ofBody⟩
      · rintro word rfl
        exact ofName.good_of_lexeme (by simp) allGood
      · have ofWord := ofParameters _ (List.mem_map_of_mem inside)
        exact ofWord.good_of_lexeme (by simp) allGood

/-- A block that is spelled by good tokens is formed. -/
theorem formed_ofBlock {good : Lexeme → Prop} {stream : TokenStream}
    (allGood : stream.AllGood good) (names : Lexeme.TellsNames good) (block : Block)
    (wellShaped : block.WellShaped) (part : (ofBlock block).PartOf stream) :
    block.Formed good := by
  cases block with
  | mk items span =>
      exact formed_ofStatements allGood names items wellShaped
        (part.of_enclosed (bounded_ofStatements items))

/-- A statement that is spelled by good tokens is formed. -/
theorem formed_ofStatement {good : Lexeme → Prop} {stream : TokenStream}
    (allGood : stream.AllGood good) (names : Lexeme.TellsNames good) (statement : Statement)
    (wellShaped : statement.WellShaped) (part : (ofStatement statement).PartOf stream) :
    statement.Formed good := by
  cases statement with
  | expression value span => exact formed_ofExpression allGood names value wellShaped.2 part
  | declaration word items span =>
      have bounded := bounded_ofDeclarators items
      obtain ⟨_, ofItems⟩ := part.of_inOrder (advances_keyword word.keyword).bounded
      exact ⟨wellShaped.1, formed_ofDeclarators allGood names items wellShaped.2
        (PartOf.of_separated bounded ofItems)⟩
  | function definition =>
      exact ⟨wellShaped.1, formed_ofFunction allGood names definition wellShaped.2 part⟩
  | conditional condition consequent alternate span =>
      obtain ⟨wellShapedCondition, wellShapedBranch, closed, wellShapedAlternate⟩ := wellShaped
      have ofExpression := (advances_ofExpression condition).bounded
      obtain ⟨_, further⟩ := part.of_inOrder (advances_keyword .ifKw).bounded
      obtain ⟨parentheses, further⟩ := further.of_inOrder (advances_enclosed ofExpression).bounded
      obtain ⟨ofConsequent, ofLast⟩ := further.of_inOrder (advances_ofBranch consequent).bounded
      exact ⟨formed_ofExpression allGood names condition wellShapedCondition
          (parentheses.of_enclosed ofExpression),
        formed_ofBranch allGood names consequent wellShapedBranch ofConsequent, closed,
        formed_ofAlternate allGood names alternate wellShapedAlternate ofLast⟩
  | returning value span =>
      cases value with
      | none => exact trivial
      | some value =>
          obtain ⟨_, sameLine⟩ := part.of_inOrder (advances_keyword .returnKw).bounded
          obtain ⟨before, after, ⟨_, spelled⟩, suffix⟩ := sameLine
          exact formed_ofExpression allGood names value wellShaped ⟨before, after, spelled, suffix⟩
  | block inner => exact formed_ofBlock allGood names inner wellShaped part
  | empty span => exact trivial

/-- Statements that are spelled by good tokens are formed. -/
theorem formed_ofStatements {good : Lexeme → Prop} {stream : TokenStream}
    (allGood : stream.AllGood good) (names : Lexeme.TellsNames good) (items : List Statement)
    (wellShaped : Statement.AllWellShaped items) (part : (ofStatements items).PartOf stream) :
    Statement.AllFormed good items := by
  cases items with
  | nil => exact trivial
  | cons first rest =>
      obtain ⟨ofFirst, further⟩ := part.of_inOrder (advances_ofStatement first).bounded
      obtain ⟨_, ofRest⟩ := further.of_inOrder (bounded_ending first)
      exact ⟨formed_ofStatement allGood names first wellShaped.1 ofFirst,
        formed_ofStatements allGood names rest wellShaped.2 ofRest⟩

/-- Declared names that are spelled by good tokens are formed. -/
theorem formed_ofDeclarators {good : Lexeme → Prop} {stream : TokenStream}
    (allGood : stream.AllGood good) (names : Lexeme.TellsNames good) (items : List Declarator)
    (wellShaped : Declarator.AllWellShaped items)
    (parts : ∀ spelling ∈ ofDeclarators items, spelling.PartOf stream) :
    Declarator.AllFormed good items := by
  cases items with
  | nil => exact trivial
  | cons first rest =>
      cases first with
      | mk name value span =>
          rw [ofDeclarators_cons, List.forall_mem_cons] at parts
          cases value with
          | none =>
              exact ⟨parts.1.good_of_lexeme (by simp) allGood,
                formed_ofDeclarators allGood names rest wellShaped parts.2⟩
          | some value =>
              obtain ⟨ofName, further⟩ := parts.1.of_inOrder (advances_identifier name).bounded
              obtain ⟨_, ofValue⟩ := further.of_inOrder (advances_mark .assign).bounded
              exact ⟨ofName.good_of_lexeme (by simp) allGood,
                formed_ofExpression allGood names value wellShaped.1 ofValue,
                formed_ofDeclarators allGood names rest wellShaped.2 parts.2⟩

/-- A branch that is spelled by good tokens is formed. -/
theorem formed_ofBranch {good : Lexeme → Prop} {stream : TokenStream}
    (allGood : stream.AllGood good) (names : Lexeme.TellsNames good) (branch : Branch)
    (wellShaped : branch.WellShaped) (part : (ofBranch branch).PartOf stream) :
    branch.Formed good := by
  cases branch with
  | braced block => exact formed_ofBlock allGood names block wellShaped part
  | single statement =>
      obtain ⟨ofStatement, _⟩ := part.of_inOrder (advances_ofStatement statement).bounded
      exact ⟨wellShaped.1, formed_ofStatement allGood names statement wellShaped.2 ofStatement⟩

/-- A second branch that is spelled by good tokens is formed. -/
theorem formed_ofAlternate {good : Lexeme → Prop} {stream : TokenStream}
    (allGood : stream.AllGood good) (names : Lexeme.TellsNames good) (branch : Option Branch)
    (wellShaped : Branch.AlternateWellShaped branch) (part : (ofAlternate branch).PartOf stream) :
    Branch.AlternateFormed good branch := by
  cases branch with
  | none => exact trivial
  | some branch =>
      obtain ⟨_, ofBranch⟩ := part.of_inOrder (advances_keyword .elseKw).bounded
      exact formed_ofBranch allGood names branch wellShaped ofBranch

end

end Spelling

/-- A script is formed of the tokens that spell it. -/
theorem Script.SpelledBy.formed {good : Lexeme → Prop} {stream : TokenStream} {script : Script}
    (spelled : script.SpelledBy stream) (wellShaped : script.WellShaped)
    (allGood : stream.AllGood good) (names : Lexeme.TellsNames good) : script.Formed good := by
  obtain ⟨rest, spelledItems, _⟩ := spelled
  exact Spelling.formed_ofStatements allGood names script.items wellShaped
    ⟨stream, rest, spelledItems, List.suffix_rfl⟩

end ScriptStrip
