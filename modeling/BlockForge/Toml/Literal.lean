import BlockForge.Toml.Moment
import BlockForge.Toml.Number
import BlockForge.Toml.StringLiteral
import BlockForge.Toml.Value

/-!
# Value literals

Values as they are written after an equals sign: strings, numbers, moments,
booleans, arrays between brackets and tables between braces.

A table between braces is one line of assignments.  `assign` puts the value of
an assignment into a table; it serves the lines below a header as well.  The
path of a dotted key runs through tables that dotted keys made; it may pass,
but not end in, a table that the header of a table inside it implied, and the
last of the tables that headers in double brackets wrote.
-/

namespace BlockForge.Toml

/-- A value and the dotted key that it is assigned to: the last part of the key
and the parts before it. -/
structure Assignment where
  path : List Key
  key : Key
  value : Value

/-- Assign a value to a key of a table, if the key is free. -/
def assignHere (entries : Entries) (key : Key) (value : Value) :
    Option Entries :=
  if (entries.value? key.text).isSome then none else some (entries ++ [(key, value)])

/-- Assign a value to a dotted key of a table. -/
def assignAt (key : Key) (value : Value) : List Key → Entries → Option Entries
  | [], entries => assignHere entries key value
  | part :: path, entries =>
    match entries.value? part.text with
    | none => do
      let inner ← assignAt key value path []
      return entries ++ [(part, .table .dotted none inner)]
    | some (.table .dotted span old) => do
      let inner ← assignAt key value path old
      return entries.setValue part.text (.table .dotted span inner)
    | some (.table .implied span old) => do
      if path.isEmpty then none
      let inner ← assignAt key value path old
      return entries.setValue part.text (.table .implied span inner)
    | some (.tables elements) =>
      match elements.getLast? with
      | some (.table origin span old) => do
        if path.isEmpty then none
        let inner ← assignAt key value path old
        return entries.setValue part.text
          (.tables (elements.dropLast ++ [.table origin span inner]))
      | _ => none
    | some _ => none

/-- Perform an assignment in a table. -/
def assign (entries : Entries) (assignment : Assignment) : Option Entries :=
  assignAt assignment.key assignment.value assignment.path entries

/-- How deep arrays and tables may nest, and how many parts a key may have. -/
def nestingLimit : Nat := 79

namespace Reader

/-- The characters of a key without quotes. -/
def isBareKeyChar (char : Char) : Bool :=
  char.isAlphanum || char == '_' || char == '-'

/-- Read one part of a key. -/
def keyPart : Reader Key := do
  let (text, span) ← spanned do
    if ← sees "\"" then basicString
    else if ← sees "'" then literalString
    else
      let chars ← run isBareKeyChar
      require (!chars.isEmpty)
      return String.ofList chars
  return ⟨text, span⟩

/-- Read a key that consists of parts with points between them: the parts
before the last one, and the last one. -/
def dottedKey : Reader (List Key × Key) := do
  spaces
  let first ← keyPart
  spaces
  let others ← whileSome do
    if ← accept "." then
      spaces
      let part ← keyPart
      spaces
      return some part
    else return none
  let parts := first :: others
  require (parts.length ≤ nestingLimit)
  return (parts.dropLast, others.getLastD first)

/-- Read an assignment. -/
def assignment (value : Reader Value) : Reader Assignment := do
  let (path, key) ← dottedKey
  expect "="
  spaces
  return ⟨path, key, ← value⟩

/-- Read an array of values. -/
def array (value : Reader Value) : Reader Value := do
  let (items, span) ← spanned do
    expect "["
    let items ← whileSome do
      gap
      if ← sees "]" then return none
      else
        let item ← value
        gap
        if ¬ (← accept ",") then require (← sees "]")
        return some item
    expect "]"
    return items
  return .array span items

/-- Read a table on a single line. -/
def inlineTable (value : Reader Value) : Reader Value := do
  let (entries, span) ← spanned do
    expect "\x7b"
    spaces
    let assignments ←
      if ← sees "\x7d" then pure []
      else
        let first ← assignment value
        spaces
        let others ← whileSome do
          if ← accept "," then
            let other ← assignment value
            spaces
            return some other
          else return none
        pure (first :: others)
    expect "\x7d"
    match assignments.foldlM assign [] with
    | some entries => return entries
    | none => refuse
  return .table .inline (some span) entries

/-- Read a boolean. -/
def boolean : Reader Bool := do
  if ← accept "true" then return true
  else
    expect "false"
    return false

/-- Read a value that is neither an array nor a table. -/
def scalar : Reader Value := do
  match ← peek? with
  | some '"' | some '\'' =>
    let (text, span) ← spanned stringLiteral
    return .string span text
  | some 't' | some 'f' =>
    let (flag, span) ← spanned boolean
    return .boolean span flag
  | _ =>
    match ← attempt (spanned moment) with
    | some (text, span) => return .moment span text
    | none =>
      match ← spanned number with
      | (.integer value, span) => return .integer span value
      | (.float value, span) => return .float span value

/-- Read a value in which arrays and tables nest at most `depth` deep. -/
def valueWithin : Nat → Reader Value
  | 0 => scalar
  | depth + 1 => do
    match ← peek? with
    | some '[' => array (valueWithin depth)
    | some '\x7b' => inlineTable (valueWithin depth)
    | _ => scalar

/-- Read a value. -/
def value : Reader Value := valueWithin nestingLimit

end Reader

end BlockForge.Toml
