import BlockForge.Diagnostic.Basic
import BlockForge.Text.SourceLine

/-!
# The layout of diagnostics

A diagnostic is written as its message, an excerpt of the source, and notes.
The excerpt shows the lines of the place behind their numbers.  A place within
a single line is underlined; a place of several lines has a bracket on its
left.  Of a long place only the first four and the last two lines are shown.
-/

namespace BlockForge

/-- A text repeated. -/
def repeated (count : Nat) (text : String) : String :=
  String.join (List.replicate count text)

namespace Place

/-- The lines of the source of a place. -/
def lines (place : Place) : List Text.SourceLine :=
  Text.sourceLines place.source

/-- The index of the first line of a place. -/
def firstIndex (place : Place) : Nat :=
  Text.lineIndex place.lines place.span.start

/-- The index of the last line of a place. -/
def lastIndex (place : Place) : Nat :=
  Text.lineIndex place.lines place.span.stop

/-- The line of an index. -/
def line (place : Place) (index : Nat) : Text.SourceLine :=
  (place.lines[index]?).getD ⟨0, []⟩

/-- The byte of its first line at which a place starts. -/
def startByte (place : Place) : Nat :=
  place.span.start - (place.line place.firstIndex).start

/-- The byte of its last line at which a place ends. -/
def stopByte (place : Place) : Nat :=
  place.span.stop - (place.line place.lastIndex).start

/-- The place of its start in words: file, line and column. -/
def locus (place : Place) : String :=
  let column := (place.line place.firstIndex).charsBefore place.startByte + 1
  place.fileName ++ ":" ++ toString (place.firstIndex + 1) ++ ":"
    ++ toString column

/-- The width of the gutter: as many columns as the largest line number. -/
def gutterWidth (place : Place) : Nat :=
  (toString (place.lastIndex + 1)).length

/-- The gutter of a line of the source. -/
def numbered (place : Place) (index : Nat) : String :=
  let number := toString (index + 1)
  repeated (place.gutterWidth - number.length) " " ++ number ++ " "

/-- The gutter of any other line. -/
def gutter (place : Place) : String := repeated (place.gutterWidth + 1) " "

/-- The underline below a cell: carets below what the place covers, spaces
before it. -/
def underlineCell (start stop cellStart cellStop width : Nat) : String :=
  if max start cellStart < min stop cellStop then repeated width "^"
  else if cellStart < stop then repeated width " "
  else ""

/-- The underline of a place within a line.  An empty place has one caret, as
has a place behind the end of the line. -/
def underline (line : Text.SourceLine) (start stop : Nat) : String :=
  let last := max stop (start + 1)
  let below := line.cells.map fun cell =>
    underlineCell start last cell.start cell.stop cell.width
  let behind :=
    underlineCell start last line.byteLength (line.byteLength + 1) 1
  String.join below ++ behind

/-- The excerpt of a place within a line. -/
def shortExcerpt (place : Place) : List String :=
  let line := place.line place.firstIndex
  [place.numbered place.firstIndex ++ "│ " ++ line.shown,
    place.gutter ++ "│ " ++ underline line place.startByte place.stopByte]

/-- The first line of a bracket.  It is drawn beside the line if nothing but
blanks comes before the place, and below it otherwise. -/
def openingLines (place : Place) : List String :=
  let line := place.line place.firstIndex
  let start := place.numbered place.firstIndex
  if place.startByte ≤ line.indentation then
    [start ++ "│ ╭ " ++ line.shown]
  else
    [start ++ "│   " ++ line.shown,
      place.gutter ++ "│ ╭"
        ++ repeated (line.columnsBefore (place.startByte + 1)) "─" ++ "^"]

/-- A line beside which a bracket runs on. -/
def innerLine (place : Place) (index : Nat) : String :=
  place.numbered index ++ "│ │ " ++ (place.line index).shown

/-- The last line of a bracket, which is drawn below the line. -/
def closingLines (place : Place) : List String :=
  let line := place.line place.lastIndex
  [place.innerLine place.lastIndex,
    place.gutter ++ "│ ╰"
      ++ repeated (line.columnsBefore place.stopByte) "─" ++ "^"]

/-- The lines between the first and the last line of a bracket.  More than five
of them are cut to the first three and the last one. -/
def innerLines (place : Place) : List String :=
  let first := place.firstIndex + 1
  let count := place.lastIndex - first
  if count ≤ 5 then
    (List.range count).map fun index => place.innerLine (first + index)
  else
    [place.innerLine first, place.innerLine (first + 1),
      place.innerLine (first + 2), place.gutter ++ "· │",
      place.innerLine (place.lastIndex - 1)]

/-- The excerpt of a place of several lines. -/
def longExcerpt (place : Place) : List String :=
  place.openingLines ++ place.innerLines ++ place.closingLines

/-- Whether a place lies within a line. -/
def isShort (place : Place) : Bool := place.firstIndex = place.lastIndex

/-- An empty line of the excerpt, with room for the bracket. -/
def emptyLine (place : Place) : String :=
  place.gutter ++ (if place.isShort then "│" else "│  ")

/-- The excerpt of a place, with the words for the place above it. -/
def excerpt (place : Place) : List String :=
  (place.gutter ++ "┌─ " ++ place.locus) :: place.emptyLine
    :: (if place.isShort then place.shortExcerpt else place.longExcerpt)

end Place

namespace Diagnostic

/-- The lines of a diagnostic before its notes. -/
def head (diagnostic : Diagnostic) : List String :=
  let title := diagnostic.severity.word ++ ": " ++ diagnostic.message
  match diagnostic.place with
  | none => [title]
  | some place =>
    let border := if diagnostic.notes.isEmpty then [] else [place.emptyLine]
    title :: (place.excerpt ++ border)

/-- The lines of the notes of a diagnostic. -/
def noteLines (diagnostic : Diagnostic) : List String :=
  let gutter := (diagnostic.place.map Place.gutter).getD " "
  diagnostic.notes.map fun note => gutter ++ "= " ++ note

/-- The text of a diagnostic; an empty line ends it. -/
def render (diagnostic : Diagnostic) : String :=
  String.join ((diagnostic.head ++ diagnostic.noteLines ++ [""]).map (· ++ "\n"))

end Diagnostic

end BlockForge
