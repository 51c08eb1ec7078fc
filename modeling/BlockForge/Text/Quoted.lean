import BlockForge.Text.Hidden

/-!
# Quoted texts

How messages show a text: between double quotes, with `"` and `\` escaped, the
usual short escapes for the null character, tab, line feed and carriage return,
and every other character without a mark of its own written by its code, as in
`\u{200b}`.
-/

namespace BlockForge.Text

/-- The code of a character between braces, in lower-case hexadecimal digits. -/
def codeEscape (char : Char) : List Char :=
  ['\\', 'u', '\x7b'] ++ Nat.toDigits 16 char.toNat ++ ['\x7d']

/-- How a quoted text shows one character. -/
def quotedChar (char : Char) : List Char :=
  if char = '\x00' then ['\\', '0']
  else if char = '\t' then ['\\', 't']
  else if char = '\r' then ['\\', 'r']
  else if char = '\n' then ['\\', 'n']
  else if char = '"' then ['\\', '"']
  else if char = '\\' then ['\\', '\\']
  else if isHidden char then codeEscape char
  else [char]

/-- A text between quotes, with its special characters escaped. -/
def quoted (text : String) : String :=
  String.ofList ('"' :: (text.toList.flatMap quotedChar ++ ['"']))

end BlockForge.Text
