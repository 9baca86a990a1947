import ScriptStrip.Span
import ScriptStrip.Text.Blank
import ScriptStrip.Text.Bytes
import ScriptStrip.Text.Split
import ScriptStrip.Text.Width
/-
This file shows an error together with the lines of the source text around it.
-/

namespace ScriptStrip

/-- An error at a place in a source text. -/
structure Diagnostic where
  title : String
  path : String
  source : String
  span : Span
  message : String

namespace Diagnostic

/-- A line of a source text, with its number and the offset of its first byte. -/
structure SourceLine where
  number : Nat
  start : Nat
  characters : List Char

/-- Lines are counted from one. The line feeds between them take one byte each. -/
def numbered (number start : Nat) : List (List Char) → List SourceLine
  | [] => []
  | characters :: rest =>
      ⟨number, start, characters⟩ ::
        numbered (number + 1) (start + Text.byteCount characters + 1) rest

/-- The source is split into its numbered lines. -/
def sourceLines (source : String) : List SourceLine :=
  numbered 1 0 (Text.splitAt '\n' source.toList)

/-- The characters of a line that are shown. -/
def SourceLine.visible (line : SourceLine) : List Char :=
  (line.characters.reverse.dropWhile fun character =>
    character == '\r' || character == '\x00').reverse

/-- A character of a line, with its offset in the line and the columns that it takes. -/
structure Cell where
  character : Char
  offset : Nat
  columns : Nat

/-- A tab is shown as this many columns. -/
def tabWidth : Nat := 4

/-- A tab reaches to the next multiple of its width. -/
def cells (offset column : Nat) : List Char → List Cell
  | [] => []
  | character :: rest =>
      let columns :=
        if character = '\t' then tabWidth - column % tabWidth else Text.columns character
      ⟨character, offset, columns⟩ ::
        cells (offset + character.utf8Size) (column + columns) rest

/-- The characters of a line are shown in cells. -/
def SourceLine.cells (line : SourceLine) : List Cell := Diagnostic.cells 0 0 line.visible

/-- Tabs are shown as spaces. -/
def Cell.shown (cell : Cell) : List Char :=
  if cell.character = '\t' then List.replicate cell.columns ' ' else [cell.character]

/-- The mark below a cell, for a label with these ends. There is none behind the label. -/
def Cell.mark (start stop : Nat) (cell : Cell) : List Char :=
  let isLabelled := max start cell.offset < min stop (cell.offset + cell.character.utf8Size)
  if isLabelled then List.replicate cell.columns '^'
  else if cell.offset < stop then List.replicate cell.columns ' '
  else []

/-- The marks below a line that holds the whole label. A label takes at least one byte, and can
stand behind the line. -/
def SourceLine.marks (line : SourceLine) (span : Span) : List Char :=
  let start := span.start - line.start
  let stop := max (span.stop - line.start) (start + 1)
  let behind : Cell := ⟨'\x00', Text.byteCount line.visible, 1⟩
  (line.cells ++ [behind]).flatMap (Cell.mark start stop)

/-- A stroke below the characters of a line up to an offset, with a mark at its end. -/
def SourceLine.stroke (line : SourceLine) (offset : Nat) : List Char :=
  let reached := line.cells.takeWhile fun cell => line.start + cell.offset < offset
  reached.flatMap (fun cell => List.replicate cell.columns '─') ++ ['^']

/-- Nothing but blanks stands in front of the offset. -/
def SourceLine.isBlankBefore (line : SourceLine) (offset : Nat) : Bool :=
  offset ≤ line.start + Text.byteCount (line.visible.takeWhile Text.isBlank)

/-- The number of characters of the line in front of the offset. -/
def SourceLine.charactersBefore (line : SourceLine) (offset : Nat) : Nat :=
  ((Diagnostic.cells line.start 0 line.characters).filter fun cell => cell.offset < offset).length

/-- The last line that starts in front of the offset or at it. -/
def lineAt? (lines : List SourceLine) (offset : Nat) : Option SourceLine :=
  (lines.filter fun line => line.start ≤ offset).getLast?

/-- The part of a line that a label takes. -/
inductive Part where
  | outside
  /-- The label starts and ends in the line. -/
  | whole
  | top
  | inside
  | bottom

/-- The lines in which a label starts and ends. -/
structure Extent where
  first : SourceLine
  last : SourceLine

namespace Extent

/-- An extent over several lines is drawn with a bar at its left. -/
def isNested (extent : Extent) : Bool := extent.first.number != extent.last.number

/-- A line lies outside an extent, at one end of it, inside, or is the whole of it. -/
def part (extent : Extent) (line : SourceLine) : Part :=
  if line.number < extent.first.number || extent.last.number < line.number then .outside
  else if !extent.isNested then .whole
  else if line.number = extent.first.number then .top
  else if line.number = extent.last.number then .bottom
  else .inside

/-- One line of context is shown on either side of the label. -/
def isNear (extent : Extent) (line : SourceLine) : Bool :=
  extent.first.number ≤ line.number + 1 && line.number ≤ extent.last.number + 1

/-- The middle of a long label is left out if it has more than one line. -/
def isHidden (extent : Extent) (line : SourceLine) : Bool :=
  extent.first.number + 7 ≤ extent.last.number &&
    extent.first.number + 3 < line.number && line.number + 1 < extent.last.number

/-- The width of the line numbers. -/
def width (extent : Extent) : Nat := (toString extent.last.number).length

/-- The line numbers take up this much room. -/
def margin (extent : Extent) : String := String.ofList (List.replicate extent.width ' ')

end Extent

/-- Spaces in front of a number bring it to the width. -/
def padded (width : Nat) (number : Nat) : String :=
  let digits := toString number
  String.ofList (List.replicate (width - digits.length) ' ') ++ digits

/-- A line behind its number, with the sign of a label that goes on. -/
def sourceRow (extent : Extent) (sign : String) (line : SourceLine) : String :=
  padded extent.width line.number ++ " │" ++ sign ++ " " ++
    String.ofList (line.cells.flatMap Cell.shown) ++ "\n"

/-- This row below a line of the source carries the marks and the message. -/
def markRow (extent : Extent) (sign : String) (marks : List Char) (message : String) : String :=
  extent.margin ++ " │" ++ sign ++ String.ofList marks ++ message ++ "\n"

/-- The line with what the label adds to it. The first hidden line stands for all of them. -/
def rows (diagnostic : Diagnostic) (extent : Extent) (line : SourceLine) : String :=
  let message := " " ++ diagnostic.message
  if extent.isHidden line then
    if line.number = extent.first.number + 4 then extent.margin ++ " · │\n" else ""
  else
    match extent.part line with
    | .outside => sourceRow extent (if extent.isNested then "  " else "") line
    | .whole =>
        sourceRow extent "" line ++ markRow extent " " (line.marks diagnostic.span) message
    | .top =>
        if line.isBlankBefore diagnostic.span.start then sourceRow extent " ╭" line
        else sourceRow extent "  " line ++
          markRow extent " ╭" (line.stroke (diagnostic.span.start + 1)) ""
    | .inside => sourceRow extent " │" line
    | .bottom =>
        sourceRow extent " │" line ++
          markRow extent " ╰" (line.stroke diagnostic.span.stop) message

/-- An empty line ends the text. -/
def render (diagnostic : Diagnostic) : String :=
  let lines := sourceLines diagnostic.source
  let span := diagnostic.span
  match lineAt? lines span.start, lineAt? lines span.stop with
  | some first, some last =>
      let extent : Extent := ⟨first, last⟩
      diagnostic.title ++ "\n" ++
        extent.margin ++ " ┌─ " ++ diagnostic.path ++ ":" ++ toString first.number ++ ":" ++
          toString (first.charactersBefore span.start + 1) ++ "\n" ++
        extent.margin ++ " │" ++ (if extent.isNested then "  " else "") ++ "\n" ++
        String.join ((lines.filter extent.isNear).map (diagnostic.rows extent)) ++ "\n"
  | _, _ => diagnostic.title ++ "\n"

end Diagnostic

end ScriptStrip
