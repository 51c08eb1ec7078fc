import BlockForge.Text.Span

/-!
# Reading a source text

A reader consumes characters from the front of a text and may refuse it.  The
cursor counts the bytes that are already consumed, so that a reader can tell
the span of what it has read.

The small readers here take one character, a run of characters or a fixed text;
`attempt` turns a refusal into an answer without consuming anything, and
`whileSome` repeats a reader.
-/

namespace BlockForge.Toml

/-- What is left of a text, and how many bytes came before it. -/
structure Cursor where
  rest : List Char
  offset : Nat
  /-- The number of characters of the whole text, which bounds all
  repetitions. -/
  size : Nat
deriving DecidableEq, Repr

namespace Cursor

/-- The start of a text. -/
def ofText (text : String) : Cursor := ⟨text.toList, 0, text.length⟩

/-- The cursor behind the next `count` characters. -/
def skip (cursor : Cursor) (count : Nat) : Cursor :=
  { cursor with
    rest := cursor.rest.drop count
    offset := cursor.offset + Text.byteCount (cursor.rest.take count) }

end Cursor

/-- A reader of a text, which may refuse it. -/
abbrev Reader := StateT Cursor Option

namespace Reader

variable {α : Type}

/-- Refuse the text. -/
def refuse : Reader α := fun _ => none

/-- Go on only if a condition holds. -/
def require (condition : Bool) : Reader Unit :=
  if condition then pure () else refuse

/-- The number of bytes consumed so far. -/
def offset : Reader Nat := return (← get).offset

/-- The next character, which is not consumed. -/
def peek? : Reader (Option Char) := return (← get).rest.head?

/-- Consume the next `count` characters. -/
def skip (count : Nat) : Reader Unit :=
  modify fun cursor => cursor.skip count

/-- Consume the next character. -/
def next : Reader Char := do
  match ← peek? with
  | some char => skip 1; return char
  | none => refuse

/-- Consume the longest run of characters of a class. -/
def run (accepts : Char → Bool) : Reader (List Char) := do
  let taken := (← get).rest.takeWhile accepts
  skip taken.length
  return taken

/-- Whether the text goes on with `expected`. -/
def sees (expected : String) : Reader Bool :=
  return expected.toList.isPrefixOf (← get).rest

/-- Consume `expected` if the text goes on with it. -/
def accept (expected : String) : Reader Bool := do
  if ← sees expected then
    skip expected.length
    return true
  else return false

/-- Consume the next character if it is of a class. -/
def acceptOne (accepts : Char → Bool) : Reader (Option Char) := do
  match ← peek? with
  | some char =>
    if accepts char then
      skip 1
      return some char
    else return none
  | none => return none

/-- Consume `expected`. -/
def expect (expected : String) : Reader Unit := do
  require (← accept expected)

/-- Whether nothing is left. -/
def atEnd : Reader Bool := return (← get).rest.isEmpty

/-- Run a reader; if it refuses, nothing is consumed. -/
def attempt (reader : Reader α) : Reader (Option α) := fun cursor =>
  match reader cursor with
  | some (value, after) => some (some value, after)
  | none => some (none, cursor)

/-- Run a reader and tell the span of what it has read. -/
def spanned (reader : Reader α) : Reader (α × Span) := do
  let start ← offset
  let value ← reader
  return (value, ⟨start, ← offset⟩)

/-- Repeat a reader until it answers none, at most `bound` times. -/
def repeatUpTo (item : Reader (Option α)) : Nat → Reader (List α)
  | 0 => refuse
  | bound + 1 => do
    match ← item with
    | none => return []
    | some value => return value :: (← repeatUpTo item bound)

/-- Repeat a reader until it answers none.  Each answer has to consume
something: more answers than the text has characters are refused. -/
def whileSome (item : Reader (Option α)) : Reader (List α) := do
  repeatUpTo item ((← get).size + 1)

end Reader

end BlockForge.Toml
