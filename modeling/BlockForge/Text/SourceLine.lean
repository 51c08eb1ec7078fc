import BlockForge.Text.Blank
import BlockForge.Text.Lines
import BlockForge.Text.Span
import BlockForge.Text.Width

/-!
# Lines of a source

A source is shown line by line.  The cells of a line say which columns of a
terminal each character takes and at which byte of the line it starts; a tab
goes on to the next multiple of four columns.
-/

namespace BlockForge.Text

/-- How many columns lie between the stops of the tab. -/
def tabWidth : Nat := 4

/-- A character of a line as it is shown. -/
structure Cell where
  char : Char
  /-- The number of bytes of the line before the character. -/
  start : Nat
  /-- The number of columns that the character takes. -/
  width : Nat
deriving DecidableEq, Repr

namespace Cell

/-- The number of bytes of the line up to the end of the character. -/
def stop (cell : Cell) : Nat := cell.start + cell.char.utf8Size

/-- How a character is shown: a tab as spaces, any other character as itself. -/
def shown (cell : Cell) : List Char :=
  if cell.char = '\t' then List.replicate cell.width ' ' else [cell.char]

end Cell

/-- The cells of the rest of a line that starts at a byte and a column. -/
def cellsFrom (start column : Nat) : List Char → List Cell
  | [] => []
  | char :: rest =>
    let width :=
      if char = '\t' then tabWidth - column % tabWidth else displayWidth char
    ⟨char, start, width⟩
      :: cellsFrom (start + char.utf8Size) (column + width) rest

/-- A line of a source. -/
structure SourceLine where
  /-- The number of bytes of the source before the line. -/
  start : Nat
  /-- The characters of the line without its end. -/
  chars : List Char
deriving DecidableEq, Repr

/-- The lines of a source from a byte on, given by their characters. -/
def linesFrom (start : Nat) : List (List Char) → List SourceLine
  | [] => []
  | chars :: rest =>
    ⟨start, chars⟩
      :: linesFrom (start + byteCount chars + 1) rest

/-- The lines of a source; what follows the last line feed is a line, even if
it is empty. -/
def sourceLines (source : String) : List SourceLine :=
  linesFrom 0 (splitAtChar '\n' source.toList)

namespace SourceLine

/-- The characters of a line that are shown: a carriage return or a null
character at the end is not. -/
def visible (line : SourceLine) : List Char :=
  (line.chars.reverse.dropWhile fun char =>
    char == '\r' || char == '\x00').reverse

/-- The cells of a line. -/
def cells (line : SourceLine) : List Cell := cellsFrom 0 0 line.visible

/-- The text of a line as it is shown. -/
def shown (line : SourceLine) : String :=
  String.ofList (line.cells.flatMap Cell.shown)

/-- The number of bytes that the visible part of a line takes. -/
def byteLength (line : SourceLine) : Nat :=
  byteCount line.visible

/-- The number of bytes of the blanks at the start of a line. -/
def indentation (line : SourceLine) : Nat :=
  byteCount (line.visible.takeWhile isBlank)

/-- The number of columns before a byte of a line. -/
def columnsBefore (line : SourceLine) (byte : Nat) : Nat :=
  (line.cells.takeWhile fun cell => cell.start < byte).foldr
    (fun cell columns => cell.width + columns) 0

/-- The number of characters before a byte of a line. -/
def charsBefore (line : SourceLine) (byte : Nat) : Nat :=
  ((cellsFrom 0 0 line.chars).takeWhile fun cell => cell.stop ≤ byte).length

end SourceLine

/-- The index of the line in which a byte of the source lies. -/
def lineIndex (lines : List SourceLine) (byte : Nat) : Nat :=
  (lines.takeWhile fun line => line.start ≤ byte).length - 1

end BlockForge.Text
