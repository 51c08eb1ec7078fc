import BlockForge.Number.Shortest
import BlockForge.Text.Lines

/-!
# JSON text

The pieces that documents are put together from: string literals, numbers, and
objects and arrays with one entry per line, indented by two spaces.  The values
of an object and the items of an array are texts already, so documents grow
from the inside out.
-/

namespace BlockForge.Json

/-- The four hexadecimal digits of a control character. -/
def hexFour (code : Nat) : List Char :=
  let digits := Nat.toDigits 16 code
  List.replicate (4 - digits.length) '0' ++ digits

/-- How a string literal writes one character: quotes, backslashes and control
characters are escaped, all others stand for themselves. -/
def escapeChar (char : Char) : List Char :=
  if char = '"' then ['\\', '"']
  else if char = '\\' then ['\\', '\\']
  else if char = '\x08' then ['\\', 'b']
  else if char = '\x0c' then ['\\', 'f']
  else if char = '\n' then ['\\', 'n']
  else if char = '\r' then ['\\', 'r']
  else if char = '\t' then ['\\', 't']
  else if char.toNat < 0x20 then '\\' :: 'u' :: hexFour char.toNat
  else [char]

/-- The characters of the string literal of a text. -/
def quoteChars (chars : List Char) : List Char :=
  '"' :: (chars.flatMap escapeChar ++ ['"'])

/-- The string literal of a text. -/
def quote (text : String) : String :=
  String.ofList (quoteChars text.toList)

@[simp]
theorem toList_quote (text : String) :
    (quote text).toList = quoteChars text.toList := by
  simp [quote]

/-- The text of a number; a number that is not finite has no form of its own
and is written as `null`. -/
def numberText (number : Binary64) : String :=
  if number.isFinite then number.plainText else "null"

/-- The text of a boolean. -/
def boolText (value : Bool) : String :=
  if value then "true" else "false"

/-- Put a text between two brackets on lines of their own, indented. -/
def enclose (opening closing body : String) : String :=
  opening ++ "\n" ++ Text.indent "  " body ++ "\n" ++ closing

/-- One entry of an object. -/
def entryText (entry : String × String) : String :=
  quote entry.1 ++ ": " ++ entry.2

/-- An object with one entry per line.  The values are texts and may span
several lines. -/
def object (entries : List (String × String)) : String :=
  if entries.isEmpty then "\x7b\x7d"
  else enclose "\x7b" "\x7d" (",\n".intercalate (entries.map entryText))

/-- An array with one item per line.  An item may hold several elements,
already joined by commas. -/
def array (items : List String) : String :=
  if items.isEmpty then "[]" else enclose "[" "]" (",\n".intercalate items)

/-- An array on a single line. -/
def inlineArray (items : List String) : String :=
  "[" ++ ", ".intercalate items ++ "]"

end BlockForge.Json
