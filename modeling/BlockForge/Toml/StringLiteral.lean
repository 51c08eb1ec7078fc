import BlockForge.Text.Hex
import BlockForge.Toml.Blank

/-!
# String literals

A string stands between double quotes, where a backslash starts an escape, or
between single quotes, where every character stands for itself.  Three quotes
on each side let it run over several lines: a line end right after the opening
quotes is dropped, line ends are read as line feeds, and up to two quotes may
stand before the closing ones.
-/

namespace BlockForge.Toml

/-- The character that a short escape stands for. -/
def shortEscape? : Char → Option Char
  | 'b' => some '\x08'
  | 't' => some '\t'
  | 'n' => some '\n'
  | 'f' => some '\x0c'
  | 'r' => some '\r'
  | '"' => some '"'
  | '\\' => some '\\'
  | _ => none

namespace Reader

/-- Read the escaped code of a character, of a fixed number of digits. -/
def codeEscape (digits : Nat) : Reader (List Char) := do
  let chars := (← get).rest.take digits
  require (chars.length = digits)
  skip digits
  match (Text.baseValue? 16 chars).bind Text.charOfCode? with
  | some char => return [char]
  | none => refuse

/-- Read what follows the backslash of an escape. -/
def escape : Reader (List Char) := do
  let char ← next
  if char = 'u' then codeEscape 4
  else if char = 'U' then codeEscape 8
  else
    match shortEscape? char with
    | some escaped => return [escaped]
    | none => refuse

/-- Read a piece of a string between double quotes. -/
def basicPiece : Reader (Option (List Char)) := do
  let plain ← run fun char => isPlain char && char ≠ '"' && char ≠ '\\'
  if ¬ plain.isEmpty then return some plain
  else if ← accept "\\" then return some (← escape)
  else return none

/-- Read a string between double quotes. -/
def basicString : Reader String := do
  expect "\""
  let pieces ← whileSome basicPiece
  expect "\""
  return String.ofList pieces.flatten

/-- Read a string between single quotes. -/
def literalString : Reader String := do
  expect "'"
  let chars ← run fun char => isPlain char && char ≠ '\''
  expect "'"
  return String.ofList chars

/-- Skip a line end that is escaped by a backslash, with all blanks and line
ends after it. -/
def escapedLineEnd : Reader Unit := do
  expect "\\"
  spaces
  require (← lineEnd)
  let _ ← whileSome do
    let blank ← run isSpace
    let ended ← lineEnd
    return if ended ∨ ¬ blank.isEmpty then some () else none

/-- Read a piece of a string between triple double quotes, apart from
quotes. -/
def longBasicPiece : Reader (Option (List Char)) := do
  if ← lineEnd then return some ['\n']
  else if (← attempt escapedLineEnd).isSome then return some []
  else basicPiece

/-- Read a piece of a string between triple single quotes, apart from
quotes. -/
def longLiteralPiece : Reader (Option (List Char)) := do
  if ← lineEnd then return some ['\n']
  else
    let plain ← run fun char => isPlain char && char ≠ '\''
    return if plain.isEmpty then none else some plain

/-- Read quotes inside a string between triple quotes: a run of one or two of
them.  A longer run closes the string. -/
def innerQuotes (quote : Char) : Reader (Option (List Char)) := do
  let quotes := (← get).rest.takeWhile (· == quote)
  if quotes.isEmpty ∨ 3 ≤ quotes.length then return none
  else
    skip quotes.length
    return some quotes

/-- Read a string between triple quotes. -/
def longString (quote : Char) (piece : Reader (Option (List Char))) :
    Reader String := do
  let delimiter := String.ofList [quote, quote, quote]
  expect delimiter
  let _ ← lineEnd
  let pieces ← whileSome do
    match ← piece with
    | some chars => return some chars
    | none => innerQuotes quote
  let quotes := (← get).rest.takeWhile (· == quote)
  let last := quotes.take (min 2 (quotes.length - 3))
  skip last.length
  expect delimiter
  return String.ofList (pieces.flatten ++ last)

/-- Read a string literal of any form. -/
def stringLiteral : Reader String := do
  if ← sees "\"\"\"" then longString '"' longBasicPiece
  else if ← sees "'''" then longString '\'' longLiteralPiece
  else if ← sees "\"" then basicString
  else literalString

end Reader

end BlockForge.Toml
