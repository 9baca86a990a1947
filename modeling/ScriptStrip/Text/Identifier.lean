/-
This file defines the ASCII names that a script can give to its variables and properties.
-/

namespace ScriptStrip.Text

/-- A name starts with a letter, a dollar sign or an underscore. -/
def isIdentifierStart (character : Char) : Bool :=
  character.isAlpha || character == '$' || character == '_'

/-- Behind its first character a name may have digits as well. -/
def isIdentifierPart (character : Char) : Bool :=
  character.isAlphanum || character == '$' || character == '_'

/-- An identifier does not start with a digit and has at least one character. -/
def isIdentifier (name : String) : Bool :=
  match name.toList with
  | [] => false
  | first :: rest => isIdentifierStart first && rest.all isIdentifierPart

/-- Whatever starts a name can also stand inside it. -/
theorem isIdentifierPart_of_isIdentifierStart {character : Char}
    (starts : isIdentifierStart character = true) : isIdentifierPart character = true := by
  simp only [isIdentifierStart, isIdentifierPart, Char.isAlphanum, Bool.or_eq_true] at starts ⊢
  rcases starts with (letter | dollar) | underscore
  · exact Or.inl (Or.inl (Or.inl letter))
  · exact Or.inl (Or.inr dollar)
  · exact Or.inr underscore

end ScriptStrip.Text
