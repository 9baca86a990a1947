import ScriptStrip.Proofs.Gist
/-
This file leaves the spans of a tree aside. Two trees that differ in nothing else have the same
gist, and so the same structure.
-/

namespace ScriptStrip

/-- A key keeps its quotes and loses its place. -/
def PropertyKey.placeless : PropertyKey → PropertyKey
  | identifier name _ => identifier name .null
  | string content quote _ => string content quote .null
  | number digits _ => number digits .null

mutual

/-- The expression without the places that it was read from. -/
def Expression.placeless : Expression → Expression
  | .number digits _ => .number digits .null
  | .string content quote _ => .string content quote .null
  | .boolean value _ => .boolean value .null
  | .null _ => .null .null
  | .undefined _ => .undefined .null
  | .array items _ => .array (Expression.placelessAll items) .null
  | .object members _ => .object (Member.placelessAll members) .null
  | .function definition => .function definition.placeless
  | .group inner _ => .group inner.placeless .null
  | .reference name _ => .reference name .null
  | .property parent name _ => .property parent.placeless name .null
  | .index parent key _ => .index parent.placeless key.placeless .null
  | .call callee arguments _ => .call callee.placeless (Expression.placelessAll arguments) .null
  | .unary operator operand _ => .unary operator operand.placeless .null
  | .binary left operator right _ => .binary left.placeless operator right.placeless .null
  | .assign target value _ => .assign target.placeless value.placeless .null

/-- Each expression of a list loses its places. -/
def Expression.placelessAll : List Expression → List Expression
  | [] => []
  | first :: rest => first.placeless :: Expression.placelessAll rest

/-- An absent expression has no places to lose. -/
def Expression.placelessOption : Option Expression → Option Expression
  | none => none
  | some value => some value.placeless

/-- The members of an object lose their places. -/
def Member.placelessAll : List Member → List Member
  | [] => []
  | ⟨key, value, _⟩ :: rest => ⟨key.placeless, value.placeless, .null⟩ :: Member.placelessAll rest

/-- A function loses its places. -/
def FunctionDef.placeless : FunctionDef → FunctionDef
  | ⟨name, parameters, body, _⟩ => ⟨name, parameters, body.placeless, .null⟩

/-- A block loses its places. -/
def Block.placeless : Block → Block
  | ⟨items, _⟩ => ⟨Statement.placelessAll items, .null⟩

/-- A statement loses its places. -/
def Statement.placeless : Statement → Statement
  | .expression value _ => .expression value.placeless .null
  | .declaration word items _ => .declaration word (Declarator.placelessAll items) .null
  | .function definition => .function definition.placeless
  | .conditional condition consequent alternate _ =>
      .conditional condition.placeless consequent.placeless (Branch.placelessOption alternate) .null
  | .returning value _ => .returning (Expression.placelessOption value) .null
  | .block inner => .block inner.placeless
  | .empty _ => .empty .null

/-- Each statement of a list loses its places. -/
def Statement.placelessAll : List Statement → List Statement
  | [] => []
  | first :: rest => first.placeless :: Statement.placelessAll rest

/-- Declared names lose their places. -/
def Declarator.placelessAll : List Declarator → List Declarator
  | [] => []
  | ⟨name, value, _⟩ :: rest =>
      ⟨name, Expression.placelessOption value, .null⟩ :: Declarator.placelessAll rest

/-- A branch loses its places. -/
def Branch.placeless : Branch → Branch
  | .braced block => .braced block.placeless
  | .single statement => .single statement.placeless

/-- A missing branch has no places to lose. -/
def Branch.placelessOption : Option Branch → Option Branch
  | none => none
  | some branch => some branch.placeless

end

/-- A member loses its places. -/
def Member.placeless (member : Member) : Member :=
  ⟨member.key.placeless, member.value.placeless, .null⟩

/-- A declared name loses its places. -/
def Declarator.placeless (item : Declarator) : Declarator :=
  ⟨item.name, Expression.placelessOption item.value, .null⟩

/-- Places are taken from each expression on its own. -/
theorem Expression.placelessAll_eq_map (items : List Expression) :
    Expression.placelessAll items = items.map Expression.placeless := by
  induction items with
  | nil => rfl
  | cons first rest inductionHypothesis =>
      rw [Expression.placelessAll, inductionHypothesis, List.map_cons]

/-- Places are taken from each member on its own. -/
theorem Member.placelessAll_eq_map (members : List Member) :
    Member.placelessAll members = members.map Member.placeless := by
  induction members with
  | nil => rfl
  | cons first rest inductionHypothesis =>
      cases first
      rw [Member.placelessAll, inductionHypothesis, List.map_cons, Member.placeless]

/-- Places are taken from each declared name on its own. -/
theorem Declarator.placelessAll_eq_map (items : List Declarator) :
    Declarator.placelessAll items = items.map Declarator.placeless := by
  induction items with
  | nil => rfl
  | cons first rest inductionHypothesis =>
      cases first
      rw [Declarator.placelessAll, inductionHypothesis, List.map_cons, Declarator.placeless]

/-- Places are taken from each statement on its own. -/
theorem Statement.placelessAll_eq_map (items : List Statement) :
    Statement.placelessAll items = items.map Statement.placeless := by
  induction items with
  | nil => rfl
  | cons first rest inductionHypothesis =>
      rw [Statement.placelessAll, inductionHypothesis, List.map_cons]

/-- The script without the places that it was read from. -/
def Script.placeless (script : Script) : Script :=
  ⟨Statement.placelessAll script.items, .null⟩

/-- The gist of a key has no place to lose. -/
theorem PropertyKey.gist_placeless (key : PropertyKey) : key.placeless.gist = key.gist := by
  cases key <;> rfl

-- A comparison looks at gists, so it is enough that places do not reach them.
mutual

/-- An expression keeps its gist when it loses its places. -/
theorem Expression.gist_placeless (expression : Expression) :
    expression.placeless.gist = expression.gist := by
  cases expression with
  | array items span =>
      simp [Expression.placeless, Expression.gist, Expression.gistAll_placelessAll items]
  | object members span =>
      simp [Expression.placeless, Expression.gist, Member.gistAll_placelessAll members]
  | function definition =>
      simp [Expression.placeless, Expression.gist, FunctionDef.gist_placeless definition]
  | group inner span =>
      simp [Expression.placeless, Expression.gist, Expression.gist_placeless inner]
  | property parent name span =>
      simp [Expression.placeless, Expression.gist, Expression.gist_placeless parent]
  | index parent key span =>
      simp [Expression.placeless, Expression.gist, Expression.gist_placeless parent,
        Expression.gist_placeless key]
  | call callee arguments span =>
      simp [Expression.placeless, Expression.gist, Expression.gist_placeless callee,
        Expression.gistAll_placelessAll arguments]
  | unary operator operand span =>
      simp [Expression.placeless, Expression.gist, Expression.gist_placeless operand]
  | binary left operator right span =>
      simp [Expression.placeless, Expression.gist, Expression.gist_placeless left,
        Expression.gist_placeless right]
  | assign target value span =>
      simp [Expression.placeless, Expression.gist, Expression.gist_placeless target,
        Expression.gist_placeless value]
  | _ => rfl

/-- Expressions keep their gists when they lose their places. -/
theorem Expression.gistAll_placelessAll (items : List Expression) :
    Expression.gistAll (Expression.placelessAll items) = Expression.gistAll items := by
  cases items with
  | nil => rfl
  | cons first rest =>
      simp [Expression.placelessAll, Expression.gistAll, Expression.gist_placeless first,
        Expression.gistAll_placelessAll rest]

/-- An optional expression keeps its gist when it loses its places. -/
theorem Expression.gistOption_placelessOption (value : Option Expression) :
    Expression.gistOption (Expression.placelessOption value) = Expression.gistOption value := by
  cases value with
  | none => rfl
  | some value =>
      simp [Expression.placelessOption, Expression.gistOption, Expression.gist_placeless value]

/-- The members of an object keep their gists when they lose their places. -/
theorem Member.gistAll_placelessAll (members : List Member) :
    Member.gistAll (Member.placelessAll members) = Member.gistAll members := by
  cases members with
  | nil => rfl
  | cons first rest =>
      cases first with
      | mk key value span =>
          simp [Member.placelessAll, Member.gistAll, PropertyKey.gist_placeless key,
            Expression.gist_placeless value, Member.gistAll_placelessAll rest]

/-- A function keeps its gist when it loses its places. -/
theorem FunctionDef.gist_placeless (definition : FunctionDef) :
    definition.placeless.gist = definition.gist := by
  cases definition with
  | mk name parameters body span =>
      simp [FunctionDef.placeless, FunctionDef.gist, Block.gist_placeless body]

/-- A block keeps its gist when it loses its places. -/
theorem Block.gist_placeless (block : Block) : block.placeless.gist = block.gist := by
  cases block with
  | mk items span => simp [Block.placeless, Block.gist, Statement.gistAll_placelessAll items]

/-- A statement keeps its gist when it loses its places. -/
theorem Statement.gist_placeless (statement : Statement) :
    statement.placeless.gist = statement.gist := by
  cases statement with
  | expression value span =>
      simp [Statement.placeless, Statement.gist, Expression.gist_placeless value]
  | declaration word items span =>
      simp [Statement.placeless, Statement.gist, Declarator.gistAll_placelessAll items]
  | function definition =>
      simp [Statement.placeless, Statement.gist, FunctionDef.gist_placeless definition]
  | conditional condition consequent alternate span =>
      simp [Statement.placeless, Statement.gist, Expression.gist_placeless condition,
        Branch.gist_placeless consequent, Branch.gistOption_placelessOption alternate]
  | returning value span =>
      simp [Statement.placeless, Statement.gist, Expression.gistOption_placelessOption value]
  | block inner => simp [Statement.placeless, Statement.gist, Block.gist_placeless inner]
  | empty span => rfl

/-- Statements keep their gists when they lose their places. -/
theorem Statement.gistAll_placelessAll (items : List Statement) :
    Statement.gistAll (Statement.placelessAll items) = Statement.gistAll items := by
  cases items with
  | nil => rfl
  | cons first rest =>
      simp [Statement.placelessAll, Statement.gistAll, Statement.gist_placeless first,
        Statement.gistAll_placelessAll rest]

/-- Declared names keep their gists when they lose their places. -/
theorem Declarator.gistAll_placelessAll (items : List Declarator) :
    Declarator.gistAll (Declarator.placelessAll items) = Declarator.gistAll items := by
  cases items with
  | nil => rfl
  | cons first rest =>
      cases first with
      | mk name value span =>
          simp [Declarator.placelessAll, Declarator.gistAll,
            Expression.gistOption_placelessOption value, Declarator.gistAll_placelessAll rest]

/-- A branch keeps its gist when it loses its places. -/
theorem Branch.gist_placeless (branch : Branch) : branch.placeless.gist = branch.gist := by
  cases branch with
  | braced block => simp [Branch.placeless, Branch.gist, Block.gist_placeless block]
  | single statement =>
      simp [Branch.placeless, Branch.gist, Statement.gist_placeless statement]

/-- An optional branch keeps its gist when it loses its places. -/
theorem Branch.gistOption_placelessOption (branch : Option Branch) :
    Branch.gistOption (Branch.placelessOption branch) = Branch.gistOption branch := by
  cases branch with
  | none => rfl
  | some branch =>
      simp [Branch.placelessOption, Branch.gistOption, Branch.gist_placeless branch]

end

/-- Expressions that are equal but for places are the same. -/
theorem Expression.same_of_placeless {expression other : Expression}
    (equal : expression.placeless = other.placeless) : expression.same other = true := by
  rw [Expression.same_iff_gist, ← Expression.gist_placeless expression, equal,
    Expression.gist_placeless]

/-- Functions that are equal but for places are the same. -/
theorem FunctionDef.same_of_placeless {definition other : FunctionDef}
    (equal : definition.placeless = other.placeless) : definition.same other = true := by
  rw [FunctionDef.same_iff_gist, ← FunctionDef.gist_placeless definition, equal,
    FunctionDef.gist_placeless]

/-- Blocks that are equal but for places are the same. -/
theorem Block.same_of_placeless {block other : Block}
    (equal : block.placeless = other.placeless) : block.same other = true := by
  rw [Block.same_iff_gist, ← Block.gist_placeless block, equal, Block.gist_placeless]

/-- Statements that are equal but for places are the same. -/
theorem Statement.same_of_placeless {statement other : Statement}
    (equal : statement.placeless = other.placeless) : statement.same other = true := by
  rw [Statement.same_iff_gist, ← Statement.gist_placeless statement, equal,
    Statement.gist_placeless]

/-- Scripts that are equal but for places are the same. -/
theorem Script.same_of_placeless {script other : Script}
    (equal : script.placeless = other.placeless) : script.same other = true := by
  injection equal with sameItems
  rw [Script.same, Statement.sameList_iff_gist, ← Statement.gistAll_placelessAll script.items,
    sameItems, Statement.gistAll_placelessAll]

/-- A script is the same as itself. -/
theorem Script.same_refl (script : Script) : script.same script = true :=
  Script.same_of_placeless rfl

end ScriptStrip
