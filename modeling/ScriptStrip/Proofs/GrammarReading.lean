import Mathlib.Tactic.Simproc.ExistsAndEq
import ScriptStrip.Proofs.SpellingLaws
/-
This file takes one step of each reader of the grammar. What a reader does next is decided by its
front token.
-/

namespace ScriptStrip

/-- The front token does not start the value of a `return`. -/
def Grammar.EndsReturn (token : Token) : Prop :=
  token.afterLineBreak = true ∨ token.lexeme = .punctuator .semicolon ∨
    token.lexeme = .punctuator .closeBrace ∨ token.lexeme = .endOfSource

/-- Nothing that starts with the token can be read as more of the statement. -/
structure Statement.EndsBefore (token : Token) (statement : Statement) : Prop where
  notContinued : ¬ statement.ContinuedBy token.lexeme
  notElse : statement.endsOpen = true → token.lexeme ≠ .keyword .elseKw
  endsReturn : ∀ span, statement = .returning none span → Grammar.EndsReturn token

/-- What is done about a semicolon behind the statement. -/
def Statement.Closes (statement : Statement) (before after : TokenStream) : Prop :=
  statement.needsSemicolon = true ∧ Parser.Reads Parser.semicolon before () after ∨
    statement.needsSemicolon = false ∧ after = before

namespace Statement

variable {statement : Statement} {before after : TokenStream}

/-- A semicolon continues no statement. -/
theorem not_continuedBy_semicolon : ¬ statement.ContinuedBy (.punctuator .semicolon) := by
  have notOperator : ∀ operator : BinaryOperator,
      Lexeme.punctuator .semicolon ≠ operator.lexeme := by
    intro operator
    cases operator <;> simp [BinaryOperator.lexeme, BinaryOperator.mark]
  have notExpression : ¬ (Lexeme.punctuator .semicolon).ContinuesExpression := by
    simp [Lexeme.ContinuesExpression, Lexeme.ContinuesAccess, notOperator]
  cases statement with
  | expression value span => exact notExpression
  | declaration word items span =>
      rintro (same | ⟨⟨name, _ | value, span⟩, _, continued⟩)
      · cases same
      · cases continued
      · exact notExpression continued
  | returning value span =>
      cases value with
      | none => exact id
      | some value => exact notExpression
  | _ => exact id

/-- A statement that is closed and may end here is ended. -/
theorem ending_of_closes (closes : statement.Closes before after)
    (ends : statement.EndsBefore before.front) : statement.ending before after := by
  unfold ending
  rcases closes with ⟨needs, reads⟩ | ⟨needs, rfl⟩
  · rw [if_pos needs]
    rcases Parser.reads_semicolon_iff.mp reads with isMark | ⟨other, rfl, free⟩
    · exact .inl isMark
    · exact .inr ⟨rfl, other, free, ends.notContinued⟩
  · rw [if_neg (by simp [needs])]
    exact rfl

/-- A statement that is ended is closed. -/
theorem closes_of_ending (ended : statement.ending before after) :
    statement.Closes before after := by
  unfold ending at ended
  by_cases needs : statement.needsSemicolon = true
  · rw [if_pos needs] at ended
    refine .inl ⟨needs, Parser.reads_semicolon_iff.mpr ?_⟩
    rcases ended with isMark | ⟨same, other, free, notContinued⟩
    · exact .inl isMark
    · exact .inr ⟨other, same, free⟩
  · rw [if_neg needs] at ended
    exact .inr ⟨by simpa using needs, ended⟩

/-- A statement that wants a semicolon stops where the semicolon is or can be left out. -/
theorem endsBefore_of_ending (needs : statement.needsSemicolon = true)
    (ended : statement.ending before after) : statement.EndsBefore before.front := by
  have notOpen : statement.endsOpen = false := by
    cases statement <;> first | rfl | cases needs
  unfold ending at ended
  rw [if_pos needs] at ended
  rcases ended with ⟨isMark, _⟩ | ⟨_, _, free, notContinued⟩
  · refine ⟨?_, by simp [notOpen], fun _ _ => .inr (.inl isMark)⟩
    rw [isMark]
    exact not_continuedBy_semicolon
  · refine ⟨notContinued, by simp [notOpen], fun _ _ => ?_⟩
    rcases free with breaks | isBrace | atEnd
    · exact .inl breaks
    · exact .inr (.inr (.inl isBrace))
    · exact .inr (.inr (.inr atEnd))

end Statement

namespace Grammar
open ScriptStrip.Parser

variable {below : Grammar} {levels : Nat} {before after : TokenStream}

@[simp] theorem levels_within (levels : Nat) : (within levels).levels = levels := by
  cases levels <;> rfl

/-- A list is closed at once, or it has an item and then a comma or the closing mark. -/
theorem reads_itemsUntil_succ_iff {Item : Type} {close : Punctuator} {item : Parser Item}
    {items : List Item} {stop : Span} :
    Reads (itemsUntil close item (levels + 1)) before (items, stop) after ↔
      before.front.lexeme = .punctuator close ∧ items = [] ∧ stop = before.front.span ∧
          after = before.advance ∨
        before.front.lexeme ≠ .punctuator close ∧
          ∃ first middle, Reads item before first middle ∧
            (middle.front.lexeme = .punctuator .comma ∧
                (∃ rest, Reads (itemsUntil close item levels) middle.advance (rest, stop) after ∧
                  items = first :: rest) ∨
              middle.front.lexeme ≠ .punctuator .comma ∧ middle.front.lexeme = .punctuator close ∧
                after = middle.advance ∧ items = [first] ∧ stop = middle.front.span) := by
  simp [itemsUntil, reads_accept?_iff, reads_bind_iff, reads_ite_iff, and_assoc, or_and_right,
    exists_or]

/-- A member is read as a key, a colon and a value. -/
theorem reads_member_iff {member : Member} :
    Reads below.member before member after ↔
      member.key.IsWrittenAs before.front.lexeme ∧ member.key.span = before.front.span ∧
        before.advance.front.lexeme = .punctuator .colon ∧
        Reads below.expression before.advance.advance member.value after ∧
        member.span = member.key.span.union member.value.span := by
  obtain ⟨key, value, span⟩ := member
  simp [Grammar.member, reads_bind_iff, and_assoc]

/-- Statements are read until a brace or the end is in front. -/
theorem reads_statements_succ_iff {statement : Parser Statement} {items : List Statement} :
    Reads (statements statement (levels + 1)) before items after ↔
      (before.front.lexeme = .punctuator .closeBrace ∨ before.front.lexeme = .endOfSource) ∧
          items = [] ∧ after = before ∨
        ¬ (before.front.lexeme = .punctuator .closeBrace ∨ before.front.lexeme = .endOfSource) ∧
          ∃ first middle, Reads statement before first middle ∧
            ∃ behind, first.Closes middle behind ∧
              ∃ rest, Reads (statements statement levels) behind rest after ∧
                items = first :: rest := by
  simp [statements, reads_ite_iff, reads_bind_iff, and_assoc, Statement.Closes, or_and_right,
    exists_or]

/-- A block is read as statements between braces. -/
theorem reads_block_iff {block : Block} :
    Reads below.block before block after ↔
      before.front.lexeme = .punctuator .openBrace ∧
        ∃ middle, Reads (statements below.statement below.levels) before.advance block.items middle ∧
          middle.front.lexeme = .punctuator .closeBrace ∧ after = middle.advance ∧
          block.span = before.front.span.union middle.front.span := by
  obtain ⟨items, span⟩ := block
  simp [Grammar.block, reads_bind_iff, and_assoc]

/-- A name is read as it is spelled. -/
theorem reads_name_iff {place name : String} :
    Reads (Prod.fst <$> identifier place) before name after ↔
      Spelling.identifier name before after := by
  rw [reads_map_iff, Spelling.identifier_iff]
  constructor
  · rintro ⟨_, reads, rfl⟩
    obtain ⟨isName, _, rfl⟩ := reads_identifier_iff.mp reads
    exact ⟨isName, rfl⟩
  · rintro ⟨isName, rfl⟩
    exact ⟨(name, before.front.span), reads_identifier_iff.mpr ⟨isName, rfl, rfl⟩, rfl⟩

/-- What is read of a function behind its name. -/
def functionTail (below : Grammar) (start : Span) (name : Option String) : Parser FunctionDef := do
  let _ ← expect (.punctuator .openParenthesis)
  let (parameters, _) ← itemsUntil .closeParenthesis
    (Prod.fst <$> identifier "function parameter") below.levels
  let body ← block below
  return ⟨name, parameters, body, start.union body.span⟩

/-- A function is read as its keyword, its name, its parameters and its body. -/
theorem reads_functionDef_iff {definition : FunctionDef} {named : Bool} :
    Reads (below.functionDef named) before definition after ↔
      before.front.lexeme = .keyword .functionKw ∧ (named = true → definition.name ≠ none) ∧
        ∃ behind,
          (definition.name.map Spelling.identifier).getD Spelling.nothing before.advance behind ∧
          behind.front.lexeme = .punctuator .openParenthesis ∧
          ∃ stop middle, Reads (itemsUntil .closeParenthesis
              (Prod.fst <$> identifier "function parameter") below.levels)
              behind.advance (definition.parameters, stop) middle ∧
            Reads below.block middle definition.body after ∧
            definition.span = before.front.span.union definition.body.span := by
  obtain ⟨name, parameters, body, span⟩ := definition
  simp only [functionDef, reads_bind_iff, reads_peek_iff, reads_expect_iff, and_assoc,
    exists_and_left, exists_eq_left]
  -- An opening parenthesis where the name could stand shows that there is none.
  cases named <;> cases name <;> cases nameFront : before.advance.front.lexeme <;>
    simp [reads_bind_iff, nameFront, and_assoc] <;> grind

/-- A variable of a declaration is read with its value, if it is given one. -/
def ReadsDeclarator (below : Grammar) (before : TokenStream) (item : Declarator)
    (after : TokenStream) : Prop :=
  before.front.lexeme = .identifier item.name ∧
    (before.advance.front.lexeme = .punctuator .assign ∧
        (∃ value, Reads below.expression before.advance.advance value after ∧
          item.value = some value ∧ item.span = before.front.span.union value.span) ∨
      before.advance.front.lexeme ≠ .punctuator .assign ∧ item.value = none ∧
        item.span = before.front.span ∧ after = before.advance)

/-- Behind a variable of a declaration, a comma announces another one. -/
def ReadsFurther (below : Grammar) (levels : Nat) (first : Declarator) (before : TokenStream)
    (items : List Declarator) (after : TokenStream) : Prop :=
  before.front.lexeme = .punctuator .comma ∧
      (∃ rest, Reads (below.declarators levels) before.advance rest after ∧
        items = first :: rest) ∨
    before.front.lexeme ≠ .punctuator .comma ∧ items = [first] ∧ after = before

/-- What is read of a declaration behind one of its variables. -/
def declaratorsTail (below : Grammar) (levels : Nat) (first : Declarator) :
    Parser (List Declarator) := do
  if (← accept? (.punctuator .comma)).isSome then
    return first :: (← below.declarators levels)
  else return [first]

/-- Declared names are read one by one as long as commas follow. -/
theorem reads_declarators_succ_iff {items : List Declarator} :
    Reads (below.declarators (levels + 1)) before items after ↔
      ∃ first middle, below.ReadsDeclarator before first middle ∧
        below.ReadsFurther levels first middle items after := by
  have expanded : Reads (below.declarators (levels + 1)) before items after ↔
      ∃ name, before.front.lexeme = .identifier name ∧
        (before.advance.front.lexeme = .punctuator .assign ∧
            (∃ value middle, Reads below.expression before.advance.advance value middle ∧
              below.ReadsFurther levels
                ⟨name, some value, before.front.span.union value.span⟩ middle items after) ∨
          before.advance.front.lexeme ≠ .punctuator .assign ∧
            below.ReadsFurther levels ⟨name, none, before.front.span⟩ before.advance items
              after) := by
    simp [declarators, reads_accept?_iff, reads_bind_iff, reads_ite_iff, and_assoc, or_and_right,
      exists_or, ReadsFurther]
  rw [expanded]
  constructor
  · rintro ⟨name, isName, ⟨isMark, value, middle, reads, further⟩ | ⟨notMark, further⟩⟩
    · exact ⟨_, middle, ⟨isName, .inl ⟨isMark, value, reads, rfl, rfl⟩⟩, further⟩
    · exact ⟨_, before.advance, ⟨isName, .inr ⟨notMark, rfl, rfl, rfl⟩⟩, further⟩
  · rintro ⟨⟨name, value, span⟩, middle, ⟨isName, ofValue⟩, further⟩
    rcases ofValue with ⟨isMark, value, reads, rfl, rfl⟩ | ⟨notMark, rfl, rfl, rfl⟩
    · exact ⟨name, isName, .inl ⟨isMark, value, middle, reads, further⟩⟩
    · exact ⟨name, isName, .inr ⟨notMark, further⟩⟩

/-- A declaration is read as its keyword and its names. -/
theorem reads_declaration_iff {statement : Statement} :
    Reads below.declaration before statement after ↔
      ∃ word, before.front.lexeme = .keyword (DeclarationWord.keyword word) ∧
        ∃ items, Reads (below.declarators below.levels) before.advance items after ∧
          statement = .declaration word items
            (match items.getLast? with
              | some last => before.front.span.union last.span
              | none => before.front.span) := by
  simp only [declaration, reads_next_bind_iff, ← DeclarationWord.ofLexeme?_eq_some_iff]
  cases known : DeclarationWord.ofLexeme? before.front.lexeme with
  | none => simp
  | some word =>
      constructor
      · intro reads
        obtain ⟨items, middle, readsItems, same⟩ := reads_bind_iff.mp reads
        obtain ⟨rfl, rfl⟩ := reads_pure_iff.mp same
        exact ⟨word, rfl, items, readsItems, rfl⟩
      · rintro ⟨_, ⟨⟩, items, readsItems, rfl⟩
        exact reads_bind_iff.mpr ⟨items, after, readsItems, reads_pure_iff.mpr ⟨rfl, rfl⟩⟩

/-- A statement that needs a semicolon is read with what closes it. -/
theorem reads_closing_iff {Value : Type} {statement : Statement} {value returned : Value} :
    Reads (do
        if statement.needsSemicolon then semicolon
        return value) before returned after ↔
      statement.Closes before after ∧ returned = value := by
  by_cases needs : statement.needsSemicolon = true
  · simp [needs, Statement.Closes, and_comm]
  · simp [needs, Statement.Closes, and_comm]

/-- A branch is a block, or a statement with what closes it. -/
theorem reads_branch_iff {statement : Parser Statement} {found : Branch} :
    Reads (branch statement) before found after ↔
      (∃ inner, Reads statement before (.block inner) after ∧ found = .braced inner) ∨
        ∃ single middle, Reads statement before single middle ∧
          (∀ inner, single ≠ .block inner) ∧ single.Closes middle after ∧
          found = .single single := by
  simp only [branch, reads_bind_iff]
  constructor
  · rintro ⟨single, middle, reads, readsRest⟩
    split at readsRest
    · rename_i inner
      obtain ⟨rfl, rfl⟩ := reads_pure_iff.mp readsRest
      exact .inl ⟨inner, reads, rfl⟩
    · rename_i other
      rw [reads_closing_iff] at readsRest
      exact .inr ⟨single, middle, reads, other, readsRest⟩
  · rintro (⟨inner, reads, rfl⟩ | ⟨single, middle, reads, other, closes⟩)
    · exact ⟨_, _, reads, reads_pure_iff.mpr ⟨rfl, rfl⟩⟩
    · refine ⟨single, middle, reads, ?_⟩
      split
      · exact absurd rfl (other _)
      · rwa [reads_closing_iff]

/-- A conditional is read as its condition and one or two branches. -/
theorem reads_conditional_iff {statement : Statement} :
    Reads below.conditional before statement after ↔
      before.front.lexeme = .keyword .ifKw ∧
        before.advance.front.lexeme = .punctuator .openParenthesis ∧
        ∃ condition middle, Reads below.expression before.advance.advance condition middle ∧
          middle.front.lexeme = .punctuator .closeParenthesis ∧
          ∃ consequent behind, Reads (branch below.statement) middle.advance consequent behind ∧
            (behind.front.lexeme = .keyword .elseKw ∧
                (∃ alternate, Reads (branch below.statement) behind.advance alternate after ∧
                  statement = .conditional condition consequent (some alternate)
                    (before.front.span.union alternate.span)) ∨
              behind.front.lexeme ≠ .keyword .elseKw ∧
                statement = .conditional condition consequent none
                  (before.front.span.union consequent.span) ∧ after = behind) := by
  simp [conditional, reads_accept?_iff, reads_bind_iff, reads_ite_iff, and_assoc, or_and_right,
    exists_or]

/-- A return statement is read without a value where the line or the block ends. -/
theorem reads_returning_iff {statement : Statement} :
    Reads below.returning before statement after ↔
      EndsReturn before.advance.front ∧ statement = .returning none before.front.span ∧
          after = before.advance ∨
        ¬ EndsReturn before.advance.front ∧
          ∃ value, Reads below.expression before.advance value after ∧
            statement = .returning (some value) (before.front.span.union value.span) := by
  simp [returning, reads_bind_iff, reads_ite_iff, EndsReturn]

variable {head expression left : Expression} {minimum : Precedence}

/-- Behind a dot the name of a property is read. -/
theorem reads_accesses_dot_iff (isDot : before.front.lexeme = .punctuator .dot) :
    Reads (below.accesses (levels + 1) head) before expression after ↔
      ∃ name, before.advance.front.lexeme.IsWord name ∧
        Reads (below.accesses levels
          (.property head name (head.span.union before.advance.front.span)))
          before.advance.advance expression after := by
  simp [accesses, isDot, reads_bind_iff, and_assoc]

/-- Behind a bracket a computed key is read. -/
theorem reads_accesses_bracket_iff (isBracket : before.front.lexeme = .punctuator .openBracket) :
    Reads (below.accesses (levels + 1) head) before expression after ↔
      ∃ key middle, Reads below.expression before.advance key middle ∧
        middle.front.lexeme = .punctuator .closeBracket ∧
        Reads (below.accesses levels (.index head key (head.span.union middle.front.span)))
          middle.advance expression after := by
  simp [accesses, isBracket, reads_bind_iff, and_assoc]

/-- Behind a parenthesis arguments are read. -/
theorem reads_accesses_parenthesis_iff
    (isParenthesis : before.front.lexeme = .punctuator .openParenthesis) :
    Reads (below.accesses (levels + 1) head) before expression after ↔
      ∃ arguments stop middle,
        Reads (itemsUntil .closeParenthesis below.expression below.levels) before.advance
          (arguments, stop) middle ∧
        Reads (below.accesses levels (.call head arguments (head.span.union stop))) middle
          expression after := by
  simp [accesses, isParenthesis, reads_bind_iff, and_assoc]

/-- Any other token ends the accesses. -/
theorem reads_accesses_of_not_continues (ends : ¬ before.front.lexeme.ContinuesAccess) :
    Reads (below.accesses (levels + 1) head) before expression after ↔
      expression = head ∧ after = before := by
  simp only [Lexeme.ContinuesAccess, not_or] at ends
  rw [accesses, reads_peek_bind_iff]
  split
  · rename_i isDot
    exact absurd isDot ends.1
  · rename_i isBracket
    exact absurd isBracket ends.2.1
  · rename_i isParenthesis
    exact absurd isParenthesis ends.2.2
  · simp

/-- Accesses are read behind a primary expression. -/
theorem reads_access_iff :
    Reads below.access before expression after ↔
      ∃ head middle, Reads below.primary before head middle ∧
        Reads (below.accesses below.levels head) middle expression after := by
  simp [access, reads_bind_iff]

/-- Behind a unary operator another unary expression is read. -/
theorem reads_unaryExpression_of_operator {operator : UnaryOperator}
    (isOperator : before.front.lexeme = operator.lexeme) :
    Reads below.unaryExpression before expression after ↔
      ∃ operand, Reads below.unary before.advance operand after ∧
        expression = unaryOf operator operand (before.front.span.union operand.span) := by
  rw [← UnaryOperator.ofLexeme?_eq_some_iff] at isOperator
  simp [unaryExpression, isOperator, reads_bind_iff]

/-- Without a unary operator an access is read. -/
theorem reads_unaryExpression_of_none (other : UnaryOperator.ofLexeme? before.front.lexeme = none) :
    Reads below.unaryExpression before expression after ↔
      Reads below.access before expression after := by
  simp [unaryExpression, other]

/-- A tight enough operator is read with its right operand. -/
theorem reads_operations_of_operator {operator : BinaryOperator}
    (isOperator : before.front.lexeme = operator.lexeme) (tight : minimum ≤ operator.precedence) :
    Reads (below.operations (levels + 1) minimum left) before expression after ↔
      ∃ operand middle, Reads below.unaryExpression before.advance operand middle ∧
        ∃ right behind,
          Reads (below.operations levels (operator.precedence + 1) operand) middle right behind ∧
          Reads (below.operations levels minimum
            (.binary left operator right (left.span.union right.span))) behind expression after := by
  rw [← BinaryOperator.ofLexeme?_eq_some_iff] at isOperator
  simp [operations, isOperator, Nat.not_lt.mpr tight, reads_bind_iff]

/-- A looser operator, or none, ends the operations. -/
theorem reads_operations_of_looser
    (loose : ∀ operator : BinaryOperator, before.front.lexeme = operator.lexeme →
      operator.precedence < minimum) :
    Reads (below.operations (levels + 1) minimum left) before expression after ↔
      expression = left ∧ after = before := by
  rw [operations, reads_peek_bind_iff]
  split
  · simp
  · rename_i operator isOperator
    simp [loose operator (BinaryOperator.ofLexeme?_eq_some_iff.mp isOperator)]

/-- Operations are read behind a unary expression. -/
theorem reads_binaryExpression_iff :
    Reads (below.binaryExpression minimum) before expression after ↔
      ∃ left middle, Reads below.unaryExpression before left middle ∧
        Reads (below.operations below.levels minimum left) middle expression after := by
  simp [binaryExpression, reads_bind_iff]

/-- An assignment is read where the mark follows a target. -/
theorem reads_assignment_iff :
    Reads below.assignment before expression after ↔
      ∃ target middle, Reads (below.binaryExpression .logicalOr) before target middle ∧
        (middle.front.lexeme = .punctuator .assign ∧ isTarget target = true ∧
            (∃ value, Reads below.expression middle.advance value after ∧
              expression = .assign target value (target.span.union value.span)) ∨
          middle.front.lexeme ≠ .punctuator .assign ∧ expression = target ∧ after = middle) := by
  simp only [assignment, reads_bind_iff, reads_peek_iff, reads_next_iff, reads_ite_iff,
    reads_pure_iff, and_assoc, exists_and_left, exists_eq_left, not_reads_refuse, and_false,
    or_false, existsAndEq, and_true]

end Grammar

namespace Parser

variable {before after : TokenStream}

/-- A reader reads as its part does with one level more than there are tokens. -/
theorem reads_reader_iff {Value : Type} {part : Grammar → Parser Value} {value : Value} :
    Reads (Grammar.reader part) before value after ↔
      Reads (part (Grammar.within (before.size + 1))) before value after := by
  simp only [Grammar.reader, reads_bind_iff, reads_get_iff, and_assoc, exists_and_left,
    exists_eq_left]

/-- Reading a script takes the statements up to the end of the source. -/
theorem reads_script_iff {script : Script} :
    Reads Parser.script before script after ↔
      Reads (Grammar.statements (Grammar.within (before.size + 1)).anyStatement (before.size + 1))
          before script.items after ∧
        after.front.lexeme = .endOfSource ∧ script.span = ⟨0, after.front.span.stop⟩ := by
  obtain ⟨items, span⟩ := script
  simp [Parser.script, reads_bind_iff, reads_reader_iff, and_assoc, Grammar.within]

/-- A text is accepted if its tokens are read up to their end. -/
theorem readAll_eq_ok_iff {Value : Type} {reader : Parser Value} {source : String}
    {value : Value} : reader.readAll source = .ok value ↔
      ∃ stream rest, TokenStream.ofSource source = .ok stream ∧ Reads reader stream value rest ∧
        rest.front.lexeme = .endOfSource := by
  have reads_iff (stream rest : TokenStream) (value : Value) :
      Reads (do let value ← reader; finish; return value) stream value rest ↔
        Reads reader stream value rest ∧ rest.front.lexeme = .endOfSource := by
    simp [reads_bind_iff]
  cases scanned : TokenStream.ofSource source with
  | error error => simp [readAll, scanned, bind, Except.bind]
  | ok stream =>
      rw [readAll, scanned]
      constructor
      · intro accepted
        dsimp only [bind, Except.bind] at accepted
        split at accepted
        · rename_i value' rest ran
          cases accepted
          exact ⟨stream, rest, rfl, (reads_iff stream rest value).mp ran⟩
        · cases accepted
      · rintro ⟨_, rest, ⟨⟩, reads⟩
        have ran := (reads_iff stream rest value).mpr reads
        rw [Reads] at ran
        dsimp only [Bind.bind, Except.bind] at ran ⊢
        rw [ran]

end Parser

/-- A text is read as a script if its tokens are, to the end. -/
theorem Script.parse_eq_ok_iff {source : String} {script : Script} :
    parse source = .ok script ↔ ∃ stream rest, TokenStream.ofSource source = .ok stream ∧
      Parser.Reads Parser.script stream script rest := by
  rw [parse, Parser.readAll_eq_ok_iff]
  constructor
  · rintro ⟨stream, rest, scanned, reads, _⟩
    exact ⟨stream, rest, scanned, reads⟩
  · rintro ⟨stream, rest, scanned, reads⟩
    exact ⟨stream, rest, scanned, reads, (Parser.reads_script_iff.mp reads).2.1⟩

end ScriptStrip
