import ScriptStrip.Configuration.Basic
import ScriptStrip.Tree.Basic
/-
This file recognises the expressions that a rewriting pass acts on. Nothing here changes a tree.
-/

namespace ScriptStrip

/-- The names of a chain of members such as `a.b.c`, if no part of it is computed or called.
Parentheses around a part make no difference. -/
def Expression.memberChain? : Expression → Option (List String)
  | .reference name _ => some [name]
  | .property parent name _ => parent.memberChain?.map (· ++ [name])
  | .group inner _ => inner.memberChain?
  | _ => none

/-- Evaluating such an expression cannot be noticed. -/
def Expression.isSideEffectFree : Expression → Bool
  | .number .. | .string .. | .boolean .. | .null _ | .undefined _ | .reference .. => true
  | .property inner _ _ | .group inner _ => inner.isSideEffectFree
  | _ => false

/-- The flags of the build mode. -/
inductive ModeFlag where
  | localDev | test | minified
deriving DecidableEq, Repr

namespace ModeFlag

/-- Three properties of the mode object are build flags. -/
def ofName? : String → Option ModeFlag
  | "localDev" => some localDev
  | "test" => some test
  | "minified" => some minified
  | _ => none

/-- The value of the flag in production. -/
def value : ModeFlag → Bool
  | localDev | test => false
  | minified => true

end ModeFlag

namespace Configuration

/-- The expression calls the method that returns the flags of the build mode, and its arguments
can be dropped. -/
def isModeCall (configuration : Configuration) (expression : Expression) : Bool :=
  match expression.ungrouped with
  | .call callee arguments _ =>
      match callee.ungrouped with
      | .property accessor "getMode" _ =>
          match accessor.ungrouped with
          | .reference name _ =>
              name == configuration.modeAccessor && arguments.all Expression.isSideEffectFree
          | _ => false
      | _ => false
  | _ => false

/-- The flag that the expression reads from the build mode. -/
def modeFlag? (configuration : Configuration) (expression : Expression) : Option ModeFlag :=
  match expression.ungrouped with
  | .property parent name _ =>
      if configuration.isModeCall parent then ModeFlag.ofName? name else none
  | _ => none

/-- What a pass makes of an expression that it acts on. -/
inductive Finding where
  /-- The call is removed. -/
  | stripped
  /-- The first argument takes the place of the call. -/
  | asserted (argument : Option Expression)
  /-- The value of a flag takes the place of the access. -/
  | flag (value : Bool)

/-- What a pass makes of a call. Configured suffixes come before the assertion. -/
def callFinding? (configuration : Configuration) (callee : Expression)
    (arguments : List Expression) : Option Finding :=
  match callee.memberChain? with
  | none => none
  | some chain =>
      if configuration.strips chain then some .stripped
      else if Suffix.isEndOf ["dev", "assert"] chain then some (.asserted arguments.head?)
      else none

/-- What a pass makes of the whole expression, including the parentheses around it. -/
def finding? (configuration : Configuration) (expression : Expression) : Option Finding :=
  match expression.ungrouped with
  | .call callee arguments _ => configuration.callFinding? callee arguments
  | .property .. =>
      if configuration.isProduction then
        (configuration.modeFlag? expression).map fun flag => .flag flag.value
      else none
  | _ => none

end Configuration

/-- A short form of the expression for messages. -/
def Expression.shape : Expression → String
  | .call callee arguments _ => callee.shape ++ "(.." ++ toString arguments.length ++ ")"
  | .property parent name _ => parent.shape ++ "." ++ name
  | .reference name _ => name
  | _ => ".."

end ScriptStrip
