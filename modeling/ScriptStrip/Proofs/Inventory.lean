import ScriptStrip.Proofs.Reduction
/-
This file lists what the nodes of a tree say on their own, in the order of the source. The list can
leave out the calls that a rewriting pass removes.
-/

namespace ScriptStrip

/-- Where a statement stands. -/
inductive Standing where
  | listed
  /-- The statement is a branch without braces. -/
  | alone
deriving DecidableEq, Repr

/-- The forms of a statement, with what is not said by the nodes below it. -/
inductive StatementForm where
  | expression
  | declaration (word : DeclarationWord)
  | function
  | conditional (hasAlternate : Bool)
  | returning (hasValue : Bool)
  | block
  | empty
deriving DecidableEq, Repr

/-- What a node says on its own, without the nodes below it. -/
inductive Entry where
  | number (digits : String) (span : Span)
  | string (content : String) (quote : Quote) (span : Span)
  | boolean (value : Bool) (span : Span)
  | null (span : Span)
  | undefined (span : Span)
  | array (size : Nat) (span : Span)
  | object (size : Nat) (span : Span)
  | member (key : PropertyKey) (span : Span)
  | function (name : Option String) (parameters : List String) (span : Span)
  | group (span : Span)
  | reference (name : String) (span : Span)
  | property (name : String) (span : Span)
  | index (span : Span)
  | call (size : Nat) (span : Span)
  | unary (operator : UnaryOperator) (span : Span)
  | binary (operator : BinaryOperator) (span : Span)
  | assign (span : Span)
  | statement (standing : Standing) (form : StatementForm) (span : Span)
  | declared (name : String) (span : Span)
deriving DecidableEq, Repr

/-- The kinds of words that stand for themselves in a script. -/
inductive WordKind where
  | reference
  /-- The names of properties and the keys of members. -/
  | property
  | string
  | number
  | variable
  | function
  | parameter
deriving DecidableEq, Repr

namespace Entry

/-- Each kind of word is found in some kinds of entries. -/
def words : WordKind → Entry → List String
  | .reference, reference name _ => [name]
  | .property, property name _ => [name]
  | .property, member key _ => [key.name]
  | .string, string content _ _ => [content]
  | .number, number digits _ => [digits]
  | .variable, declared name _ => [name]
  | .function, function name _ _ => name.toList
  | .parameter, function _ parameters _ => parameters
  | _, _ => []

/-- A pass can put such an entry into a script that does not have it. -/
def isFresh : Entry → Bool
  | boolean .. | undefined _ | statement .alone .empty _ => true
  | _ => false

/-- The entry is a function or a declared variable. -/
def declares : Entry → Bool
  | function .. | declared .. => true
  | _ => false

end Entry

/-- What becomes of a call. -/
inductive Fate where
  | kept
  | removed
  /-- Only the first argument is left. -/
  | unwrapped
deriving DecidableEq, Repr

/-- What a pass makes of the calls of a callee. -/
def Configuration.fate (configuration : Configuration) (callee : Expression) : Fate :=
  if configuration.StripsCallee callee then .removed
  else if callee.IsAssertion then .unwrapped
  else .kept

mutual

/-- The entries of an expression, without the calls that are removed and the arguments that are
dropped. The fate of a call depends on its callee, and a call that is not read is kept. -/
def Expression.entriesUnder (fate : Expression → Fate) (isRead : Bool) :
    Expression → List Entry
  | .number digits span => [.number digits span]
  | .string content quote span => [.string content quote span]
  | .boolean value span => [.boolean value span]
  | .null span => [.null span]
  | .undefined span => [.undefined span]
  | .array items span =>
      .array items.length span :: Expression.entriesUnderAll fate items
  | .object members span =>
      .object members.length span :: Member.entriesUnderAll fate members
  | .function definition => definition.entriesUnder fate
  | .group inner span => .group span :: inner.entriesUnder fate true
  | .reference name span => [.reference name span]
  | .property parent name span => parent.entriesUnder fate true ++ [.property name span]
  | .index parent key span =>
      parent.entriesUnder fate true ++ .index span :: key.entriesUnder fate true
  | .call callee arguments span =>
      match if isRead then fate callee else .kept with
      | .removed => []
      | .unwrapped => Expression.entriesUnderHead fate arguments
      | .kept =>
          callee.entriesUnder fate true ++
            .call arguments.length span :: Expression.entriesUnderAll fate arguments
  | .unary operator operand span => .unary operator span :: operand.entriesUnder fate true
  | .binary left operator right span =>
      left.entriesUnder fate true ++ .binary operator span :: right.entriesUnder fate true
  | .assign target value span =>
      target.entriesUnder fate false ++ .assign span :: value.entriesUnder fate true

/-- The entries of a list of expressions follow each other. -/
def Expression.entriesUnderAll (fate : Expression → Fate) : List Expression → List Entry
  | [] => []
  | first :: rest => first.entriesUnder fate true ++ Expression.entriesUnderAll fate rest

/-- Of the arguments of an assertion only the first one is entered. -/
def Expression.entriesUnderHead (fate : Expression → Fate) : List Expression → List Entry
  | [] => []
  | first :: _ => first.entriesUnder fate true

/-- An absent expression has no entries. -/
def Expression.entriesUnderOption (fate : Expression → Fate) : Option Expression → List Entry
  | none => []
  | some value => value.entriesUnder fate true

/-- Each member is entered in front of its value. -/
def Member.entriesUnderAll (fate : Expression → Fate) : List Member → List Entry
  | [] => []
  | ⟨key, value, span⟩ :: rest =>
      .member key span :: value.entriesUnder fate true ++ Member.entriesUnderAll fate rest

/-- A function is entered in front of its body. -/
def FunctionDef.entriesUnder (fate : Expression → Fate) : FunctionDef → List Entry
  | ⟨name, parameters, body, span⟩ => .function name parameters span :: body.entriesUnder fate

/-- A block has the entries of its statements. -/
def Block.entriesUnder (fate : Expression → Fate) : Block → List Entry
  | ⟨items, _⟩ => Statement.entriesUnderAll fate items

/-- A statement is entered in front of its parts. -/
def Statement.entriesUnder (fate : Expression → Fate) (standing : Standing) :
    Statement → List Entry
  | .expression value span =>
      .statement standing .expression span :: value.entriesUnder fate true
  | .declaration word items span =>
      .statement standing (.declaration word) span :: Declarator.entriesUnderAll fate items
  | .function definition =>
      .statement standing .function definition.span :: definition.entriesUnder fate
  | .conditional condition consequent alternate span =>
      .statement standing (.conditional alternate.isSome) span ::
        condition.entriesUnder fate true ++ consequent.entriesUnder fate ++
          Branch.entriesUnderOption fate alternate
  | .returning value span =>
      .statement standing (.returning value.isSome) span ::
        Expression.entriesUnderOption fate value
  | .block inner => .statement standing .block inner.span :: inner.entriesUnder fate
  | .empty span => [.statement standing .empty span]

/-- The entries of a list of statements follow each other. -/
def Statement.entriesUnderAll (fate : Expression → Fate) : List Statement → List Entry
  | [] => []
  | first :: rest => first.entriesUnder fate .listed ++ Statement.entriesUnderAll fate rest

/-- Each declared name is entered in front of its initial value. -/
def Declarator.entriesUnderAll (fate : Expression → Fate) : List Declarator → List Entry
  | [] => []
  | ⟨name, value, span⟩ :: rest =>
      .declared name span :: Expression.entriesUnderOption fate value ++
        Declarator.entriesUnderAll fate rest

/-- A statement in a branch stands alone, not in a list. -/
def Branch.entriesUnder (fate : Expression → Fate) : Branch → List Entry
  | .braced block => block.entriesUnder fate
  | .single statement => statement.entriesUnder fate .alone

/-- A missing branch has no entries. -/
def Branch.entriesUnderOption (fate : Expression → Fate) : Option Branch → List Entry
  | none => []
  | some branch => branch.entriesUnder fate

end

/-- The entries of an expression that keeps all its calls. -/
def Expression.entries (expression : Expression) : List Entry :=
  expression.entriesUnder (fun _ => .kept) true

namespace Script

/-- All entries of a script are listed in the order of the text. -/
def entries (script : Script) : List Entry :=
  Statement.entriesUnderAll (fun _ => .kept) script.items

/-- The entries that lie neither in a call that a pass removes nor in an argument that it drops. -/
def entriesOutside (configuration : Configuration) (script : Script) : List Entry :=
  Statement.entriesUnderAll configuration.fate script.items

/-- The words of one kind, in the order of the source. -/
def words (kind : WordKind) (script : Script) : List String :=
  script.entries.flatMap (Entry.words kind)

end Script

section

variable {fate : Expression → Fate}

/-- A call that is kept has the entries of its callee and of its arguments. -/
theorem Expression.entriesUnder_call_of_kept {isRead : Bool} {callee : Expression}
    {arguments : List Expression} {span : Span} (kept : isRead = true → fate callee = .kept) :
    (Expression.call callee arguments span).entriesUnder fate isRead =
      callee.entriesUnder fate true ++
        .call arguments.length span :: Expression.entriesUnderAll fate arguments := by
  rw [Expression.entriesUnder]
  cases isRead with
  | false => rfl
  | true =>
      rw [if_pos rfl, kept rfl]

/-- Where all calls are kept, it does not matter what is read. -/
theorem Expression.entriesUnder_of_kept (expression : Expression) (isRead : Bool) :
    expression.entriesUnder (fun _ => .kept) isRead = expression.entries := by
  cases isRead with
  | true => rfl
  | false => cases expression <;> rfl

/-- The first of the arguments is one of them. -/
theorem Expression.sublist_entriesUnderHead (arguments : List Expression) :
    (Expression.entriesUnderHead fate arguments).Sublist
      (Expression.entriesUnderAll fate arguments) := by
  cases arguments with
  | nil => exact List.Sublist.slnil
  | cons first rest => exact List.sublist_append_left _ _

mutual

/-- To remove calls and arguments leaves the other entries in their order. -/
theorem Expression.sublist_entriesUnder (expression : Expression) (isRead : Bool) :
    (expression.entriesUnder fate isRead).Sublist
      (expression.entriesUnder (fun _ => .kept) isRead) := by
  cases expression with
  | array items span => exact (Expression.sublist_entriesUnderAll items).cons_cons _
  | object members span => exact (Member.sublist_entriesUnderAll members).cons_cons _
  | function definition => exact FunctionDef.sublist_entriesUnder definition
  | group inner span => exact (Expression.sublist_entriesUnder inner true).cons_cons _
  | property parent name span =>
      exact (Expression.sublist_entriesUnder parent true).append (List.Sublist.refl _)
  | index parent key span =>
      exact (Expression.sublist_entriesUnder parent true).append
        ((Expression.sublist_entriesUnder key true).cons_cons _)
  | call callee arguments span =>
      have ofCallee := Expression.sublist_entriesUnder callee true
      have ofArguments := Expression.sublist_entriesUnderAll arguments
      have ofFirst := (Expression.sublist_entriesUnderHead arguments).trans ofArguments
      have whole : (Expression.call callee arguments span).entriesUnder (fun _ => .kept) isRead = _ :=
        Expression.entriesUnder_call_of_kept fun _ => rfl
      rw [whole, Expression.entriesUnder]
      split
      · exact List.nil_sublist _
      · exact (ofFirst.cons _).trans (List.sublist_append_right _ _)
      · exact ofCallee.append (ofArguments.cons_cons _)
  | unary operator operand span =>
      exact (Expression.sublist_entriesUnder operand true).cons_cons _
  | binary left operator right span =>
      exact (Expression.sublist_entriesUnder left true).append
        ((Expression.sublist_entriesUnder right true).cons_cons _)
  | assign target value span =>
      exact (Expression.sublist_entriesUnder target false).append
        ((Expression.sublist_entriesUnder value true).cons_cons _)
  | _ => exact List.Sublist.refl _

/-- What is kept of a list of expressions is part of it, in order. -/
theorem Expression.sublist_entriesUnderAll (items : List Expression) :
    (Expression.entriesUnderAll fate items).Sublist
      (Expression.entriesUnderAll (fun _ => .kept) items) := by
  cases items with
  | nil => exact List.Sublist.slnil
  | cons first rest =>
      exact (Expression.sublist_entriesUnder first true).append
        (Expression.sublist_entriesUnderAll rest)

/-- What is kept of an optional expression is part of it. -/
theorem Expression.sublist_entriesUnderOption (value : Option Expression) :
    (Expression.entriesUnderOption fate value).Sublist
      (Expression.entriesUnderOption (fun _ => .kept) value) := by
  cases value with
  | none => exact List.Sublist.slnil
  | some value => exact Expression.sublist_entriesUnder value true

/-- What is kept of an object is part of it, in order. -/
theorem Member.sublist_entriesUnderAll (members : List Member) :
    (Member.entriesUnderAll fate members).Sublist
      (Member.entriesUnderAll (fun _ => .kept) members) := by
  cases members with
  | nil => exact List.Sublist.slnil
  | cons first rest =>
      cases first with
      | mk key value span =>
          exact ((Expression.sublist_entriesUnder value true).append
            (Member.sublist_entriesUnderAll rest)).cons_cons _

/-- What is kept of a function is part of it, in order. -/
theorem FunctionDef.sublist_entriesUnder (definition : FunctionDef) :
    (definition.entriesUnder fate).Sublist (definition.entriesUnder fun _ => .kept) := by
  cases definition with
  | mk name parameters body span => exact (Block.sublist_entriesUnder body).cons_cons _

/-- What is kept of a block is part of it, in order. -/
theorem Block.sublist_entriesUnder (block : Block) :
    (block.entriesUnder fate).Sublist (block.entriesUnder fun _ => .kept) := by
  cases block with
  | mk items span => exact Statement.sublist_entriesUnderAll items

/-- What is kept of a statement is part of it, in order. -/
theorem Statement.sublist_entriesUnder (statement : Statement) (standing : Standing) :
    (statement.entriesUnder fate standing).Sublist
      (statement.entriesUnder (fun _ => .kept) standing) := by
  cases statement with
  | expression value span => exact (Expression.sublist_entriesUnder value true).cons_cons _
  | declaration word items span => exact (Declarator.sublist_entriesUnderAll items).cons_cons _
  | function definition => exact (FunctionDef.sublist_entriesUnder definition).cons_cons _
  | conditional condition consequent alternate span =>
      have ofBranches := (Branch.sublist_entriesUnder consequent).append
        (Branch.sublist_entriesUnderOption alternate)
      rw [Statement.entriesUnder, Statement.entriesUnder, List.append_assoc, List.append_assoc]
      exact ((Expression.sublist_entriesUnder condition true).append ofBranches).cons_cons _
  | returning value span => exact (Expression.sublist_entriesUnderOption value).cons_cons _
  | block inner => exact (Block.sublist_entriesUnder inner).cons_cons _
  | empty span => exact List.Sublist.refl _

/-- What is kept of a list of statements is part of it, in order. -/
theorem Statement.sublist_entriesUnderAll (items : List Statement) :
    (Statement.entriesUnderAll fate items).Sublist
      (Statement.entriesUnderAll (fun _ => .kept) items) := by
  cases items with
  | nil => exact List.Sublist.slnil
  | cons first rest =>
      exact (Statement.sublist_entriesUnder first .listed).append
        (Statement.sublist_entriesUnderAll rest)

/-- What is kept of a declaration is part of it, in order. -/
theorem Declarator.sublist_entriesUnderAll (items : List Declarator) :
    (Declarator.entriesUnderAll fate items).Sublist
      (Declarator.entriesUnderAll (fun _ => .kept) items) := by
  cases items with
  | nil => exact List.Sublist.slnil
  | cons first rest =>
      cases first with
      | mk name value span =>
          exact ((Expression.sublist_entriesUnderOption value).append
            (Declarator.sublist_entriesUnderAll rest)).cons_cons _

/-- What is kept of a branch is part of it, in order. -/
theorem Branch.sublist_entriesUnder (branch : Branch) :
    (branch.entriesUnder fate).Sublist (branch.entriesUnder fun _ => .kept) := by
  cases branch with
  | braced block => exact Block.sublist_entriesUnder block
  | single statement => exact Statement.sublist_entriesUnder statement .alone

/-- What is kept of an optional branch is part of it. -/
theorem Branch.sublist_entriesUnderOption (branch : Option Branch) :
    (Branch.entriesUnderOption fate branch).Sublist
      (Branch.entriesUnderOption (fun _ => .kept) branch) := by
  cases branch with
  | none => exact List.Sublist.slnil
  | some branch => exact Branch.sublist_entriesUnder branch

end

end

end ScriptStrip
