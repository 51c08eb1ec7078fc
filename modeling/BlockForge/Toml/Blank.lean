import BlockForge.Toml.Reader

/-!
# Blanks, line ends and comments

What stands between the parts of a document.  A line ends with a line feed,
alone or after a carriage return; a comment runs from `#` to the end of its
line.
-/

namespace BlockForge.Toml

/-- Space and tab. -/
def isSpace (char : Char) : Bool := char == ' ' || char == '\t'

/-- The characters that text of a single line may hold: every character but
the control characters, the tab excepted. -/
def isPlain (char : Char) : Bool :=
  char == '\t' || (0x20 ≤ char.toNat && char.toNat ≠ 0x7F)

namespace Reader

/-- Skip spaces and tabs. -/
def spaces : Reader Unit := do
  let _ ← run isSpace

/-- Consume a line end, if there is one. -/
def lineEnd : Reader Bool := do
  if ← accept "\n" then return true
  else accept "\r\n"

/-- Consume a comment, if there is one. -/
def comment : Reader Bool := do
  if ← sees "#" then
    let _ ← run isPlain
    return true
  else return false

/-- The end of a line or of the document. -/
def lineClose : Reader Unit := do
  if ¬ (← lineEnd) then require (← atEnd)

/-- The end of a statement: blanks and a comment up to the end of the line. -/
def statementEnd : Reader Unit := do
  spaces
  let _ ← comment
  lineClose

/-- Skip the rest of a line that holds nothing but a comment; spaces before
anything else are skipped as well. -/
def gapPiece : Reader (Option Unit) := do
  spaces
  if ← comment then
    lineClose
    return some ()
  else if ← lineEnd then return some ()
  else return none

/-- Skip blanks, line ends and comments. -/
def gap : Reader Unit := do
  let _ ← whileSome gapPiece

end Reader

end BlockForge.Toml
