import ScriptStrip.Tree.Print
/-
This file lists the tokens of a tree, and with them the places at which the source may have a
token or not.
-/

namespace ScriptStrip

/-- A place for a token of the source. -/
inductive Place where
  | token (lexeme : Lexeme)
  /-- A comma behind the last item of a list. It says nothing. -/
  | lastComma
  /-- The semicolon behind a statement. It may be left out where the line or the block ends. -/
  | semicolon
deriving DecidableEq, Repr

namespace Place

/-- A mark has its own place. -/
def ofMark (mark : Punctuator) : Place := token (.punctuator mark)

/-- A keyword has its own place. -/
def ofKeyword (word : Keyword) : Place := token (.keyword word)

/-- A name has its own place. -/
def ofWord (word : String) : Place := token (.ofWord word)

/-- Places are put between two marks. -/
def enclosed (opening closing : Punctuator) (inner : List Place) : List Place :=
  ofMark opening :: inner ++ [ofMark closing]

/-- Items with commas between them. -/
def separated : List (List Place) → List Place
  | [] => []
  | [last] => last
  | first :: rest => first ++ ofMark .comma :: separated rest

/-- Items with commas between them and with room for a comma behind the last one. -/
def listed : List (List Place) → List Place
  | [] => []
  | [last] => last ++ [lastComma]
  | first :: rest => first ++ ofMark .comma :: listed rest

end Place

/-- A key has one place. -/
def PropertyKey.outline : PropertyKey → Place
  | identifier name _ => .ofWord name
  | string content quote _ => .token (.string content quote)
  | number digits _ => .token (.number digits)

/-- The place for the semicolon behind the statement. -/
def Statement.closing (statement : Statement) : List Place :=
  if statement.needsSemicolon then [.semicolon] else []

mutual

/-- An expression has the places of its tokens, without parentheses but those it contains as
groups. -/
def Expression.outline : Expression → List Place
  | .number digits _ => [.token (.number digits)]
  | .string content quote _ => [.token (.string content quote)]
  | .boolean true _ => [.ofKeyword .trueKw]
  | .boolean false _ => [.ofKeyword .falseKw]
  | .null _ => [.ofKeyword .nullKw]
  | .undefined _ => [.ofKeyword .voidKw, .token (.number "0")]
  | .array items _ =>
      Place.enclosed .openBracket .closeBracket (Place.listed (Expression.outlines items))
  | .object members _ =>
      Place.enclosed .openBrace .closeBrace (Place.listed (Member.outlines members))
  | .function definition => definition.outline
  | .group inner _ => Place.enclosed .openParenthesis .closeParenthesis inner.outline
  | .reference name _ => [.ofWord name]
  | .property parent name _ => parent.outline ++ [.ofMark .dot, .ofWord name]
  | .index parent key _ =>
      parent.outline ++ Place.enclosed .openBracket .closeBracket key.outline
  | .call callee arguments _ =>
      callee.outline ++
        Place.enclosed .openParenthesis .closeParenthesis (Place.listed (Expression.outlines arguments))
  | .unary operator operand _ => .token operator.lexeme :: operand.outline
  | .binary left operator right _ => left.outline ++ .token operator.lexeme :: right.outline
  | .assign target value _ => target.outline ++ .ofMark .assign :: value.outline

/-- Each expression of a list has an outline of its own. -/
def Expression.outlines : List Expression → List (List Place)
  | [] => []
  | first :: rest => first.outline :: Expression.outlines rest

/-- Each member of an object has an outline of its own. -/
def Member.outlines : List Member → List (List Place)
  | [] => []
  | ⟨key, value, _⟩ :: rest => (key.outline :: .ofMark .colon :: value.outline) :: Member.outlines rest

/-- A function has places for its name, its parameters and its body. -/
def FunctionDef.outline : FunctionDef → List Place
  | ⟨name, parameters, body, _⟩ =>
      .ofKeyword .functionKw :: (name.map Place.ofWord).toList ++
        Place.enclosed .openParenthesis .closeParenthesis
          (Place.listed (parameters.map fun parameter => [.ofWord parameter])) ++
        body.outline

/-- A block has the places of its statements between braces. -/
def Block.outline : Block → List Place
  | ⟨items, _⟩ => Place.enclosed .openBrace .closeBrace (Statement.outlines items)

/-- The semicolon behind the statement is left to the owner. -/
def Statement.outline : Statement → List Place
  | .expression value _ => value.outline
  | .declaration word items _ => .ofKeyword word.keyword :: Place.separated (Declarator.outlines items)
  | .function definition => definition.outline
  | .conditional condition consequent alternate _ =>
      .ofKeyword .ifKw :: Place.enclosed .openParenthesis .closeParenthesis condition.outline ++
        consequent.outline ++ Branch.alternateOutline alternate
  | .returning none _ => [.ofKeyword .returnKw]
  | .returning (some value) _ => .ofKeyword .returnKw :: value.outline
  | .block inner => inner.outline
  | .empty _ => [.ofMark .semicolon]

/-- The outlines of statements follow each other, each with its semicolon. -/
def Statement.outlines : List Statement → List Place
  | [] => []
  | first :: rest => first.outline ++ first.closing ++ Statement.outlines rest

/-- Each declared name has an outline of its own. -/
def Declarator.outlines : List Declarator → List (List Place)
  | [] => []
  | ⟨name, none, _⟩ :: rest => [.ofWord name] :: Declarator.outlines rest
  | ⟨name, some value, _⟩ :: rest =>
      (.ofWord name :: .ofMark .assign :: value.outline) :: Declarator.outlines rest

/-- A branch has the places of its block or of its statement. -/
def Branch.outline : Branch → List Place
  | .braced block => block.outline
  | .single statement => statement.outline ++ statement.closing

/-- A second branch follows its keyword. -/
def Branch.alternateOutline : Option Branch → List Place
  | none => []
  | some branch => .ofKeyword .elseKw :: branch.outline

end

/-- A script has the places of its statements. -/
def Script.outline (script : Script) : List Place := Statement.outlines script.items

end ScriptStrip
