import BlockForge.Json.NumberLiteral
import BlockForge.Json.Value
import BlockForge.Text.Hex
import BlockForge.Text.Lines
import BlockForge.Text.Span

/-!
# Reading JSON

`read?` reads a JSON document: one value, with blanks around it.  `readWith`
does the same for readers that do not take every number literal, and tells a
literal that is refused from a text that is no document.

Values nest, so reading is bounded by the length of the text: every value and
every item after a comma consumes a character.
-/

namespace BlockForge.Json

/-- Why a text is not read. -/
inductive Fault where
  /-- The text is no document. -/
  | malformed
  /-- A number literal is refused; what follows it is given. -/
  | outOfRange (rest : List Char)
deriving DecidableEq, Repr

/-- The blanks of JSON. -/
def isBlank (char : Char) : Bool :=
  char == ' ' || char == '\n' || char == '\r' || char == '\t'

/-- Drop the blanks at the start of a text. -/
def dropBlanks (chars : List Char) : List Char := chars.dropWhile isBlank

/-- The code that four hexadecimal digits write. -/
def fourDigits? (first second third fourth : Char) : Option Nat :=
  Text.baseValue? 16 [first, second, third, fourth]

/-- The character that a short escape stands for. -/
def shortEscape? : Char → Option Char
  | '"' => some '"'
  | '\\' => some '\\'
  | '/' => some '/'
  | 'b' => some '\x08'
  | 'f' => some '\x0c'
  | 'n' => some '\n'
  | 'r' => some '\r'
  | 't' => some '\t'
  | _ => none

/-- The character that two escaped codes stand for, if together they write one
beyond the first 65536. -/
def pairedChar? (high low : Nat) : Option Char :=
  if 0xD800 ≤ high ∧ high < 0xDC00 ∧ 0xDC00 ≤ low ∧ low < 0xE000 then
    Text.charOfCode? (0x10000 + (high - 0xD800) * 0x400 + (low - 0xDC00))
  else none

/-- Read the characters of a string literal up to the closing quote. -/
def readChars : List Char → Option (List Char × List Char)
  | [] => none
  | '"' :: rest => some ([], rest)
  | '\\' :: 'u' :: a :: b :: c :: d :: rest =>
    match fourDigits? a b c d with
    | none => none
    | some code =>
      match Text.charOfCode? code with
      | some char =>
        (readChars rest).map fun (chars, after) => (char :: chars, after)
      | none =>
        match rest with
        | '\\' :: 'u' :: e :: f :: g :: h :: rest =>
          match (fourDigits? e f g h).bind (pairedChar? code) with
          | some char =>
            (readChars rest).map fun (chars, after) => (char :: chars, after)
          | none => none
        | _ => none
  | '\\' :: mark :: rest =>
    match shortEscape? mark with
    | some char =>
      (readChars rest).map fun (chars, after) => (char :: chars, after)
    | none => none
  | char :: rest =>
    if char.toNat < 0x20 ∨ char = '\\' then none
    else (readChars rest).map fun (chars, after) => (char :: chars, after)

/-- Read a string literal. -/
def readString : List Char → Except Fault (String × List Char)
  | '"' :: rest =>
    match readChars rest with
    | some (chars, after) => .ok (String.ofList chars, after)
    | none => .error .malformed
  | _ => .error .malformed

/-- Drop an expected character from the front of a text. -/
def dropChar (expected : Char) : List Char → Except Fault (List Char)
  | char :: rest => if char = expected then .ok rest else .error .malformed
  | [] => .error .malformed

/-- Read a number of which the reader takes the literal. -/
def readNumber (takes : NumberLiteral → Bool) (chars : List Char) :
    Except Fault (Value × List Char) :=
  match readNumberLiteral chars with
  | some (literal, rest) =>
    if takes literal then .ok (.number literal.value, rest)
    else .error (.outOfRange rest)
  | none => .error .malformed

/-- Read a fixed word. -/
def readWord (word : String) (value : Value) (chars : List Char) :
    Except Fault (Value × List Char) :=
  if word.toList.isPrefixOf chars then .ok (value, chars.drop word.length)
  else .error .malformed

mutual

/-- Read a value, within a bound on the number of nested readings. -/
def readValue (takes : NumberLiteral → Bool) :
    Nat → List Char → Except Fault (Value × List Char)
  | 0, _ => .error .malformed
  | bound + 1, chars =>
    match dropBlanks chars with
    | [] => .error .malformed
    | '"' :: rest => do
      let (text, after) ← readString ('"' :: rest)
      return (.string text, after)
    | '[' :: rest =>
      match dropBlanks rest with
      | ']' :: after => .ok (.array [], after)
      | _ => do
        let (items, after) ← readItems takes bound rest
        return (.array items, after)
    | '\x7b' :: rest =>
      match dropBlanks rest with
      | '\x7d' :: after => .ok (.object [], after)
      | _ => do
        let (entries, after) ← readEntries takes bound rest
        return (.object entries, after)
    | 't' :: rest => readWord "true" (.bool true) ('t' :: rest)
    | 'f' :: rest => readWord "false" (.bool false) ('f' :: rest)
    | 'n' :: rest => readWord "null" .null ('n' :: rest)
    | char :: rest => readNumber takes (char :: rest)

/-- Read the items of an array and the bracket that closes it. -/
def readItems (takes : NumberLiteral → Bool) :
    Nat → List Char → Except Fault (List Value × List Char)
  | 0, _ => .error .malformed
  | bound + 1, chars => do
    let (item, afterItem) ← readValue takes bound chars
    match dropBlanks afterItem with
    | ',' :: rest =>
      let (items, after) ← readItems takes bound rest
      return (item :: items, after)
    | ']' :: after => return ([item], after)
    | _ => throw .malformed

/-- Read the entries of an object and the brace that closes it. -/
def readEntries (takes : NumberLiteral → Bool) :
    Nat → List Char →
      Except Fault (List (String × Value) × List Char)
  | 0, _ => .error .malformed
  | bound + 1, chars => do
    let (key, afterKey) ← readString (dropBlanks chars)
    let afterColon ← dropChar ':' (dropBlanks afterKey)
    let (value, afterValue) ← readValue takes bound afterColon
    match dropBlanks afterValue with
    | ',' :: rest =>
      let (entries, after) ← readEntries takes bound rest
      return ((key, value) :: entries, after)
    | '\x7d' :: after => return ([(key, value)], after)
    | _ => throw .malformed

end

/-- Read a document with a reader that takes some number literals.  Only the
length of the text bounds how deep its values nest. -/
def readWith (takes : NumberLiteral → Bool) (text : String) :
    Except Fault Value := do
  let chars := text.toList
  let (value, rest) ← readValue takes (chars.length + 1) chars
  if (dropBlanks rest).isEmpty then return value else throw .malformed

/-- Read a document. -/
def read? (text : String) : Option Value :=
  (readWith (fun _ => true) text).toOption

/-- Where the front of a text ends: the number of its line and the number of
bytes before it in that line. -/
def endPosition (front : List Char) : Nat × Nat :=
  let line := front.reverse.takeWhile (· ≠ '\n')
  (front.count '\n' + 1, Text.byteCount line)

/-- The words for a fault in a text. -/
def Fault.message (text : String) : Fault → String
  | malformed => "not a JSON document"
  | outOfRange rest =>
    let chars := text.toList
    let (line, column) := endPosition (chars.take (chars.length - rest.length))
    "number out of range at line " ++ toString line ++ " column "
      ++ toString column

end BlockForge.Json
