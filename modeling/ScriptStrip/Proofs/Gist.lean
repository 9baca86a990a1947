import ScriptStrip.Tree.Same
/-
This file keeps of a tree what a comparison of structures looks at. Two trees have the same
structure if and only if this is all the same, so the comparison is an equivalence.
-/

namespace ScriptStrip

/-- What the comparison sees of a key is its name, its content or its digits. -/
def PropertyKey.gist : PropertyKey → PropertyKey
  | identifier name _ => identifier name .null
  | string content _ _ => string content .double .null
  | number digits _ => number digits .null

mutual

/-- The expression without its places and with one kind of quotes. -/
def Expression.gist : Expression → Expression
  | .number digits _ => .number digits .null
  | .string content _ _ => .string content .double .null
  | .boolean value _ => .boolean value .null
  | .null _ => .null .null
  | .undefined _ => .undefined .null
  | .array items _ => .array (Expression.gistAll items) .null
  | .object members _ => .object (Member.gistAll members) .null
  | .function definition => .function definition.gist
  | .group inner _ => .group inner.gist .null
  | .reference name _ => .reference name .null
  | .property parent name _ => .property parent.gist name .null
  | .index parent key _ => .index parent.gist key.gist .null
  | .call callee arguments _ => .call callee.gist (Expression.gistAll arguments) .null
  | .unary operator operand _ => .unary operator operand.gist .null
  | .binary left operator right _ => .binary left.gist operator right.gist .null
  | .assign target value _ => .assign target.gist value.gist .null

/-- The gist of a list of expressions is taken item by item. -/
def Expression.gistAll : List Expression → List Expression
  | [] => []
  | first :: rest => first.gist :: Expression.gistAll rest

/-- An absent expression has no gist. -/
def Expression.gistOption : Option Expression → Option Expression
  | none => none
  | some value => some value.gist

/-- The members of an object keep their keys and values. -/
def Member.gistAll : List Member → List Member
  | [] => []
  | ⟨key, value, _⟩ :: rest => ⟨key.gist, value.gist, .null⟩ :: Member.gistAll rest

/-- A function keeps its name, its parameters and its body. -/
def FunctionDef.gist : FunctionDef → FunctionDef
  | ⟨name, parameters, body, _⟩ => ⟨name, parameters, body.gist, .null⟩

/-- A block keeps its statements. -/
def Block.gist : Block → Block
  | ⟨items, _⟩ => ⟨Statement.gistAll items, .null⟩

/-- A statement keeps its kind and its parts. -/
def Statement.gist : Statement → Statement
  | .expression value _ => .expression value.gist .null
  | .declaration word items _ => .declaration word (Declarator.gistAll items) .null
  | .function definition => .function definition.gist
  | .conditional condition consequent alternate _ =>
      .conditional condition.gist consequent.gist (Branch.gistOption alternate) .null
  | .returning value _ => .returning (Expression.gistOption value) .null
  | .block inner => .block inner.gist
  | .empty _ => .empty .null

/-- The gist of a list of statements is taken one by one. -/
def Statement.gistAll : List Statement → List Statement
  | [] => []
  | first :: rest => first.gist :: Statement.gistAll rest

/-- Declared names keep their initial values. -/
def Declarator.gistAll : List Declarator → List Declarator
  | [] => []
  | ⟨name, value, _⟩ :: rest =>
      ⟨name, Expression.gistOption value, .null⟩ :: Declarator.gistAll rest

/-- A branch stays braced or single. -/
def Branch.gist : Branch → Branch
  | .braced block => .braced block.gist
  | .single statement => .single statement.gist

/-- A missing branch has no gist. -/
def Branch.gistOption : Option Branch → Option Branch
  | none => none
  | some branch => some branch.gist

end

/-- A script keeps its statements. -/
def Script.gist (script : Script) : Script := ⟨Statement.gistAll script.items, .null⟩

/-- Two keys are the same exactly if they have the same gist. -/
theorem PropertyKey.same_iff_gist {key other : PropertyKey} :
    key.same other = true ↔ key.gist = other.gist := by
  cases key <;> cases other <;> simp [PropertyKey.same, PropertyKey.gist]

mutual

/-- Two expressions are the same exactly if they have the same gist. -/
theorem Expression.same_iff_gist (expression other : Expression) :
    expression.same other = true ↔ expression.gist = other.gist := by
  cases expression with
  | array items span =>
      cases other <;>
        simp [Expression.same, Expression.gist, Expression.sameList_iff_gist items]
  | object members span =>
      cases other <;> simp [Expression.same, Expression.gist, Member.sameList_iff_gist members]
  | function definition =>
      cases other <;> simp [Expression.same, Expression.gist, FunctionDef.same_iff_gist definition]
  | group inner span =>
      cases other <;> simp [Expression.same, Expression.gist, Expression.same_iff_gist inner]
  | property parent name span =>
      cases other <;> simp [Expression.same, Expression.gist, Expression.same_iff_gist parent]
  | index parent key span =>
      cases other <;>
        simp [Expression.same, Expression.gist, Expression.same_iff_gist parent,
          Expression.same_iff_gist key]
  | call callee arguments span =>
      cases other <;>
        simp [Expression.same, Expression.gist, Expression.same_iff_gist callee,
          Expression.sameList_iff_gist arguments]
  | unary operator operand span =>
      cases other <;> simp [Expression.same, Expression.gist, Expression.same_iff_gist operand]
  | binary left operator right span =>
      cases other <;>
        simp [Expression.same, Expression.gist, Expression.same_iff_gist left,
          Expression.same_iff_gist right, and_assoc]
  | assign target value span =>
      cases other <;>
        simp [Expression.same, Expression.gist, Expression.same_iff_gist target,
          Expression.same_iff_gist value]
  | _ => cases other <;> simp [Expression.same, Expression.gist]
termination_by structural expression

/-- Lists of expressions are compared by their gists. -/
theorem Expression.sameList_iff_gist (items others : List Expression) :
    Expression.sameList items others = true ↔
      Expression.gistAll items = Expression.gistAll others := by
  cases items with
  | nil => cases others <;> simp [Expression.sameList, Expression.gistAll]
  | cons first rest =>
      cases others <;>
        simp [Expression.sameList, Expression.gistAll, Expression.same_iff_gist first,
          Expression.sameList_iff_gist rest]
termination_by structural items

/-- Expressions that may be absent are compared by their gists. -/
theorem Expression.sameOption_iff_gist (value other : Option Expression) :
    Expression.sameOption value other = true ↔
      Expression.gistOption value = Expression.gistOption other := by
  cases value with
  | none => cases other <;> simp [Expression.sameOption, Expression.gistOption]
  | some value =>
      cases other <;>
        simp [Expression.sameOption, Expression.gistOption, Expression.same_iff_gist value]
termination_by structural value

/-- The members of objects are compared by their gists. -/
theorem Member.sameList_iff_gist (members others : List Member) :
    Member.sameList members others = true ↔ Member.gistAll members = Member.gistAll others := by
  cases members with
  | nil => rcases others with _ | ⟨⟨_, _, _⟩, _⟩ <;> simp [Member.sameList, Member.gistAll]
  | cons first rest =>
      cases first with
      | mk key value span =>
          rcases others with _ | ⟨⟨_, _, _⟩, _⟩ <;>
            simp [Member.sameList, Member.same, Member.gistAll, PropertyKey.same_iff_gist,
              Expression.same_iff_gist value, Member.sameList_iff_gist rest]
termination_by structural members

/-- Two functions are the same exactly if they have the same gist. -/
theorem FunctionDef.same_iff_gist (definition other : FunctionDef) :
    definition.same other = true ↔ definition.gist = other.gist := by
  cases definition with
  | mk name parameters body span =>
      cases other
      simp [FunctionDef.same, FunctionDef.gist, Block.same_iff_gist body, and_assoc]
termination_by structural definition

/-- Two blocks are the same exactly if they have the same gist. -/
theorem Block.same_iff_gist (block other : Block) :
    block.same other = true ↔ block.gist = other.gist := by
  cases block with
  | mk items span =>
      cases other
      simp [Block.same, Block.gist, Statement.sameList_iff_gist items]
termination_by structural block

/-- Two statements are the same exactly if they have the same gist. -/
theorem Statement.same_iff_gist (statement other : Statement) :
    statement.same other = true ↔ statement.gist = other.gist := by
  cases statement with
  | expression value span =>
      cases other <;> simp [Statement.same, Statement.gist, Expression.same_iff_gist value]
  | declaration word items span =>
      cases other <;> simp [Statement.same, Statement.gist, Declarator.sameList_iff_gist items]
  | function definition =>
      cases other <;> simp [Statement.same, Statement.gist, FunctionDef.same_iff_gist definition]
  | conditional condition consequent alternate span =>
      cases other <;>
        simp [Statement.same, Statement.gist, Expression.same_iff_gist condition,
          Branch.same_iff_gist consequent, Branch.sameOption_iff_gist alternate, and_assoc]
  | returning value span =>
      cases other <;> simp [Statement.same, Statement.gist, Expression.sameOption_iff_gist value]
  | block inner =>
      cases other <;> simp [Statement.same, Statement.gist, Block.same_iff_gist inner]
  | empty span => cases other <;> simp [Statement.same, Statement.gist]
termination_by structural statement

/-- Lists of statements are compared by their gists. -/
theorem Statement.sameList_iff_gist (items others : List Statement) :
    Statement.sameList items others = true ↔
      Statement.gistAll items = Statement.gistAll others := by
  cases items with
  | nil => cases others <;> simp [Statement.sameList, Statement.gistAll]
  | cons first rest =>
      cases others <;>
        simp [Statement.sameList, Statement.gistAll, Statement.same_iff_gist first,
          Statement.sameList_iff_gist rest]
termination_by structural items

/-- Declared names are compared by their gists. -/
theorem Declarator.sameList_iff_gist (items others : List Declarator) :
    Declarator.sameList items others = true ↔
      Declarator.gistAll items = Declarator.gistAll others := by
  cases items with
  | nil => rcases others with _ | ⟨⟨_, _, _⟩, _⟩ <;> simp [Declarator.sameList, Declarator.gistAll]
  | cons first rest =>
      cases first with
      | mk name value span =>
          rcases others with _ | ⟨⟨_, _, _⟩, _⟩ <;>
            simp [Declarator.sameList, Declarator.same, Declarator.gistAll,
              Expression.sameOption_iff_gist value, Declarator.sameList_iff_gist rest]
termination_by structural items

/-- Two branches are the same exactly if they have the same gist. -/
theorem Branch.same_iff_gist (branch other : Branch) :
    branch.same other = true ↔ branch.gist = other.gist := by
  cases branch with
  | braced block => cases other <;> simp [Branch.same, Branch.gist, Block.same_iff_gist block]
  | single statement =>
      cases other <;> simp [Branch.same, Branch.gist, Statement.same_iff_gist statement]
termination_by structural branch

/-- Branches that may be missing are compared by their gists. -/
theorem Branch.sameOption_iff_gist (branch other : Option Branch) :
    Branch.sameOption branch other = true ↔
      Branch.gistOption branch = Branch.gistOption other := by
  cases branch with
  | none => cases other <;> simp [Branch.sameOption, Branch.gistOption]
  | some branch =>
      cases other <;> simp [Branch.sameOption, Branch.gistOption, Branch.same_iff_gist branch]
termination_by structural branch

end

/-- Two scripts are the same exactly if they have the same gist. -/
theorem Script.same_iff_gist (script other : Script) :
    script.same other = true ↔ script.gist = other.gist := by
  simp [Script.same, Script.gist, Statement.sameList_iff_gist]

end ScriptStrip
