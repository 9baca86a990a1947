import ScriptStrip.Configuration.Suffix
/-
This file defines the settings of a rewriting pass.
-/

namespace ScriptStrip

/-- Settings that have been checked: every name in them is an identifier. -/
structure Configuration where
  /-- The flags of the build mode are known. -/
  isProduction : Bool
  /-- Calls of chains that end in one of these are removed. -/
  suffixes : SuffixSet
  /-- The object whose method returns the flags of the build mode. -/
  modeAccessor : String
deriving DecidableEq, Repr

namespace Configuration

/-- Without any setting the mode object has this name. -/
def defaultAccessor : String := "$mode"

/-- These settings remove no call and know no flag. -/
def standard : Configuration := ⟨false, [], defaultAccessor⟩

/-- This is the configuration of a production build without any other setting. -/
def production : Configuration := ⟨true, [["dev", "fine"]], defaultAccessor⟩

/-- Suffixes are checked in order, and the first invalid one is reported. -/
def ofSuffixes (isProduction : Bool) (suffixes : List String) :
    Except ConfigurationError Configuration := do
  let suffixes ← suffixes.mapM Suffix.ofText
  return ⟨isProduction, SuffixSet.ofList suffixes, defaultAccessor⟩

/-- The mode object may be given any name that is an identifier. -/
def withModeAccessor (configuration : Configuration) (name : String) :
    Except ConfigurationError Configuration :=
  if Text.isIdentifier name then .ok { configuration with modeAccessor := name }
  else .error (.invalidAccessor name)

/-- A chain of members is removed with its call when it ends in one of the suffixes. -/
def strips (configuration : Configuration) (chain : List String) : Bool :=
  configuration.suffixes.any fun suffix => suffix.isEndOf chain

/-- Settings as they are written down, before they are checked. -/
structure Options where
  isProduction : Bool := false
  suffixes : List String := []
  modeAccessor : Option String := none
deriving DecidableEq, Repr

/-- Suffixes are checked before the accessor. -/
def Options.check (options : Options) : Except ConfigurationError Configuration := do
  let configuration ← ofSuffixes options.isProduction options.suffixes
  match options.modeAccessor with
  | some name => configuration.withModeAccessor name
  | none => return configuration

end Configuration

end ScriptStrip
