import ScriptStrip.Tree.Basic
/-
This file compares trees by structure. Neither spans nor the kind of quotes matter.
-/

namespace ScriptStrip

/-- Two keys are the same if they are of one kind and have the same name, content or digits. -/
def PropertyKey.same : PropertyKey → PropertyKey → Bool
  | identifier name _, identifier name' _ => name == name'
  | string content _ _, string content' _ _ => content == content'
  | number digits _, number digits' _ => digits == digits'
  | _, _ => false

mutual

/-- Two expressions are the same if they differ in nothing but places and quotes. -/
def Expression.same : Expression → Expression → Bool
  | .number digits _, .number digits' _ => digits == digits'
  | .string content _ _, .string content' _ _ => content == content'
  | .boolean value _, .boolean value' _ => value == value'
  | .null _, .null _ => true
  | .undefined _, .undefined _ => true
  | .array items _, .array items' _ => Expression.sameList items items'
  | .object members _, .object members' _ => Member.sameList members members'
  | .function definition, .function definition' => definition.same definition'
  | .group inner _, .group inner' _ => inner.same inner'
  | .reference name _, .reference name' _ => name == name'
  | .property parent name _, .property parent' name' _ => parent.same parent' && name == name'
  | .index parent key _, .index parent' key' _ => parent.same parent' && key.same key'
  | .call callee arguments _, .call callee' arguments' _ =>
      callee.same callee' && Expression.sameList arguments arguments'
  | .unary operator operand _, .unary operator' operand' _ =>
      operator == operator' && operand.same operand'
  | .binary left operator right _, .binary left' operator' right' _ =>
      left.same left' && operator == operator' && right.same right'
  | .assign target value _, .assign target' value' _ => target.same target' && value.same value'
  | _, _ => false

/-- Two lists of expressions are compared item by item. -/
def Expression.sameList : List Expression → List Expression → Bool
  | [], [] => true
  | first :: rest, first' :: rest' => first.same first' && Expression.sameList rest rest'
  | _, _ => false

/-- An absent expression is the same as an absent one only. -/
def Expression.sameOption : Option Expression → Option Expression → Bool
  | none, none => true
  | some value, some value' => value.same value'
  | _, _ => false

/-- The members of two objects agree in their key and in their value. -/
def Member.same : Member → Member → Bool
  | ⟨key, value, _⟩, ⟨key', value', _⟩ => key.same key' && value.same value'

/-- Two lists of members are compared member by member. -/
def Member.sameList : List Member → List Member → Bool
  | [], [] => true
  | first :: rest, first' :: rest' => first.same first' && Member.sameList rest rest'
  | _, _ => false

/-- Two functions agree in their name, their parameters and their body. -/
def FunctionDef.same : FunctionDef → FunctionDef → Bool
  | ⟨name, parameters, body, _⟩, ⟨name', parameters', body', _⟩ =>
      name == name' && parameters == parameters' && body.same body'

/-- Two blocks are the same if their statements are. -/
def Block.same : Block → Block → Bool
  | ⟨items, _⟩, ⟨items', _⟩ => Statement.sameList items items'

/-- Two statements are the same if they are of one kind and their parts are the same. -/
def Statement.same : Statement → Statement → Bool
  | .expression value _, .expression value' _ => value.same value'
  | .declaration word items _, .declaration word' items' _ =>
      word == word' && Declarator.sameList items items'
  | .function definition, .function definition' => definition.same definition'
  | .conditional condition consequent alternate _,
      .conditional condition' consequent' alternate' _ =>
      condition.same condition' && consequent.same consequent' &&
        Branch.sameOption alternate alternate'
  | .returning value _, .returning value' _ => Expression.sameOption value value'
  | .block inner, .block inner' => inner.same inner'
  | .empty _, .empty _ => true
  | _, _ => false

/-- Two lists of statements are compared one by one. -/
def Statement.sameList : List Statement → List Statement → Bool
  | [], [] => true
  | first :: rest, first' :: rest' => first.same first' && Statement.sameList rest rest'
  | _, _ => false

/-- Two declared names agree in the name and in the initial value. -/
def Declarator.same : Declarator → Declarator → Bool
  | ⟨name, value, _⟩, ⟨name', value', _⟩ => name == name' && Expression.sameOption value value'

/-- Two lists of declared names are compared one by one. -/
def Declarator.sameList : List Declarator → List Declarator → Bool
  | [], [] => true
  | first :: rest, first' :: rest' => first.same first' && Declarator.sameList rest rest'
  | _, _ => false

/-- A braced branch is never the same as a single statement. -/
def Branch.same : Branch → Branch → Bool
  | .braced block, .braced block' => block.same block'
  | .single statement, .single statement' => statement.same statement'
  | _, _ => false

/-- A missing branch is the same as a missing one only. -/
def Branch.sameOption : Option Branch → Option Branch → Bool
  | none, none => true
  | some branch, some branch' => branch.same branch'
  | _, _ => false

end

/-- Two scripts are the same if their statements are. -/
def Script.same (script script' : Script) : Bool := Statement.sameList script.items script'.items

end ScriptStrip
