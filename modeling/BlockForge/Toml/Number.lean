import BlockForge.Number.Decimal
import BlockForge.Text.Hex
import BlockForge.Toml.Reader

/-!
# Number literals

Integers are decimal, with an optional sign, or unsigned with a prefix that
names the base; they have to fit in 64 bits.  A decimal integer followed by a
fraction or an exponent is a floating point number, as are the words `inf` and
`nan`.  Underscores may stand between digits.
-/

namespace BlockForge.Toml

/-- A number literal. -/
inductive Number where
  | integer (value : Int)
  | float (value : Binary64)
deriving DecidableEq, Repr

/-- Whether the rest of a list of digits goes on well: every underscore stands
between two digits. -/
def isGroupedFrom (afterDigit : Bool) : List Char → Bool
  | [] => afterDigit
  | char :: rest =>
    if char = '_' then afterDigit && isGroupedFrom false rest
    else isGroupedFrom true rest

/-- Whether there are digits and every underscore stands between two of
them. -/
def isGrouped (chars : List Char) : Bool := isGroupedFrom false chars

namespace Reader

/-- Read digits of a class, with underscores between them. -/
def digits (isDigit : Char → Bool) : Reader (List Char) := do
  let chars ← run fun char => isDigit char || char == '_'
  require (isGrouped chars)
  return chars.filter (· ≠ '_')

/-- Read an integer of 64 bits. -/
def integer (value : Int) : Reader Number := do
  require (Int64.minValue.toInt ≤ value && value ≤ Int64.maxValue.toInt)
  return .integer value

/-- Read the digits of an integer of another base than ten. -/
def basedInteger (base : Nat) : Reader Number := do
  let chars ← digits fun char => (Text.hexDigit? char).any (· < base)
  match Text.baseValue? base chars with
  | some value => integer (Int.ofNat value)
  | none => refuse

/-- Read the whole part of a decimal number: a single zero, or digits that
start with another digit. -/
def wholeDigits : Reader (List Char) := do
  if ← accept "0" then return ['0']
  else digits Char.isDigit

/-- Read a fraction, if there is one. -/
def fraction : Reader (Option (List Char)) := do
  if ← accept "." then return some (← digits Char.isDigit)
  else return none

/-- Read a sign, if there is one, and tell whether it is a minus sign. -/
def sign : Reader Bool := do
  return (← acceptOne fun char => char == '-' || char == '+') = some '-'

/-- Read an exponent, if there is one. -/
def exponent : Reader (Option Int) := do
  if (← acceptOne fun char => char == 'e' || char == 'E').isSome then
    let negative ← sign
    let magnitude := Int.ofNat (digitsValue (← digits Char.isDigit))
    return some (if negative then -magnitude else magnitude)
  else return none

/-- Read a decimal number. -/
def decimalNumber (negative : Bool) : Reader Number := do
  let whole ← wholeDigits
  let decimals ← fraction
  let power ← exponent
  if decimals.isNone ∧ power.isNone then
    let magnitude := Int.ofNat (digitsValue whole)
    integer (if negative then -magnitude else magnitude)
  else
    let places := decimals.getD []
    let decimal : Decimal :=
      ⟨digitsValue (whole ++ places), power.getD 0 - places.length⟩
    let value := Decimal.nearest negative decimal
    require (value ≠ .infinite false)
    return .float value

/-- Read a number. -/
def number : Reader Number := do
  if ← accept "0x" then basedInteger 16
  else if ← accept "0o" then basedInteger 8
  else if ← accept "0b" then basedInteger 2
  else
    let negative ← sign
    if ← accept "inf" then return .float (.infinite negative)
    else if ← accept "nan" then return .float .nan
    else decimalNumber negative

end Reader

end BlockForge.Toml
