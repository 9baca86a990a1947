import ScriptStrip.Token.Basic
/-
This file defines printed text before it is put together: tokens and the blanks between them.
-/

namespace ScriptStrip

/-- How a tree is laid out. The indent is only used in pretty layout. -/
structure Style where
  pretty : Bool
  indent : String
deriving DecidableEq, Repr

/-- A piece of a printed text is a token or a blank. -/
inductive Piece where
  | token (lexeme : Lexeme)
  | blank (text : String)
deriving DecidableEq, Repr

namespace Piece

/-- A piece is written as its token or as its blanks. -/
def text : Piece → String
  | token lexeme => lexeme.text
  | blank text => text

/-- Only some pieces are tokens. -/
def lexeme? : Piece → Option Lexeme
  | token lexeme => some lexeme
  | blank _ => none

/-- The printed text is the texts of its pieces, joined. -/
def render (pieces : List Piece) : String := String.join (pieces.map text)

/-- The tokens among the pieces. -/
def lexemes (pieces : List Piece) : List Lexeme := pieces.filterMap lexeme?

/-- A mark is printed as one token. -/
def ofMark (mark : Punctuator) : Piece := token (.punctuator mark)

/-- A keyword is printed as one token. -/
def ofKeyword (word : Keyword) : Piece := token (.keyword word)

/-- A single space keeps two tokens apart. -/
def space : Piece := blank " "

/-- Pieces are put between two marks. -/
def enclosed (opening closing : Punctuator) (inner : List Piece) : List Piece :=
  ofMark opening :: inner ++ [ofMark closing]

/-- Parentheses around the pieces where the condition asks for them. -/
def groupedIf (condition : Bool) (inner : List Piece) : List Piece :=
  if condition then enclosed .openParenthesis .closeParenthesis inner else inner

/-- The tokens of joined pieces are the tokens of both. -/
@[simp] theorem lexemes_append (first second : List Piece) :
    lexemes (first ++ second) = lexemes first ++ lexemes second := by
  simp [lexemes]

@[simp] theorem lexemes_token (lexeme : Lexeme) (rest : List Piece) :
    lexemes (token lexeme :: rest) = lexeme :: lexemes rest := rfl

@[simp] theorem lexemes_blank (text : String) (rest : List Piece) :
    lexemes (blank text :: rest) = lexemes rest := rfl

@[simp] theorem lexemes_nil : lexemes [] = [] := rfl

/-- A space has no token. -/
theorem lexemes_space : lexemes [space] = [] := rfl

/-- A space that may be left out has no token. -/
theorem lexemes_spaceIf (condition : Bool) : lexemes (if condition then [space] else []) = [] := by
  cases condition <;> rfl

end Piece

namespace Style

/-- Each statement on a line of its own, indented by tabs. -/
def standard : Style := ⟨true, "\t"⟩

/-- No blanks but those that keep tokens apart. -/
def minified : Style := ⟨false, ""⟩

/-- Only the standard style puts a space between tokens that may touch. -/
def gap (style : Style) : List Piece := if style.pretty then [.space] else []

/-- Only the standard style breaks lines. -/
def lineBreak (style : Style) : List Piece := if style.pretty then [.blank "\n"] else []

/-- The blanks in front of a line in so many blocks. Blocks are counted in 8 bits, so the 256th
level is indented like the outermost one. -/
def indentation (style : Style) (depth : UInt8) : List Piece :=
  if style.pretty then List.replicate depth.toNat (.blank style.indent) else []

/-- A comma and the gap behind it. -/
def comma (style : Style) : List Piece := .ofMark .comma :: style.gap

/-- A gap has no token. -/
@[simp] theorem lexemes_gap (style : Style) : Piece.lexemes style.gap = [] := by
  unfold gap
  split <;> rfl

/-- The end of a line has no token. -/
@[simp] theorem lexemes_lineBreak (style : Style) : Piece.lexemes style.lineBreak = [] := by
  unfold lineBreak
  split <;> rfl

/-- The blanks at the start of a line have no token. -/
@[simp] theorem lexemes_indentation (style : Style) (depth : UInt8) :
    Piece.lexemes (style.indentation depth) = [] := by
  unfold indentation
  split
  · induction depth.toNat with
    | zero => rfl
    | succ levels inductionHypothesis => simpa [List.replicate_succ] using inductionHypothesis
  · rfl

end Style

end ScriptStrip
