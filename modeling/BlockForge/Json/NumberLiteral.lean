import BlockForge.Number.Decimal

/-!
# JSON numbers

A number literal is an optional minus sign, digits without a leading zero, an
optional fraction and an optional exponent.  Its value is the nearest binary64
number.

Some readers work in binary64 arithmetic: they keep the leading digits that fit
in 64 bits and scale them by a power of ten.  The rounding of the factors can
lift the product of a literal near the end of the range above every finite
number, and such readers refuse the literal; `isScalable` says which literals
they take.
-/

namespace BlockForge.Json

/-- A number literal. -/
structure NumberLiteral where
  negative : Bool
  whole : List Char
  fraction : List Char
  exponent : Int
deriving DecidableEq, Repr

namespace NumberLiteral

/-- The number nearest to a literal. -/
def value (literal : NumberLiteral) : Binary64 :=
  Decimal.nearest literal.negative
    ⟨digitsValue (literal.whole ++ literal.fraction),
      literal.exponent - literal.fraction.length⟩

/-- How many digits of a list make up the longest number below `2 ^ 64`. -/
def keptDigits (digits : List Char) : Nat :=
  ((List.range digits.length).takeWhile fun count =>
    digitsValue (digits.take (count + 1)) < UInt64.size).length

/-- The rank of the rounded product of two numbers. -/
def productRank (left right : Nat) : Nat :=
  nearestRank (Binary64.units left * Binary64.units right) (Nat.pow 2 2148)

/-- Whether the leading digits of a literal, scaled in binary64 arithmetic,
give a finite number. -/
def isScalable (literal : NumberLiteral) : Bool :=
  let digits := literal.whole ++ literal.fraction
  let kept := keptDigits digits
  let leading := digitsValue (digits.take kept)
  let exponent :=
    literal.exponent + literal.whole.length - (kept : Int)
  leading = 0 ∨ exponent ≤ 0
    ∨ (exponent ≤ 308
      ∧ productRank (Decimal.rank ⟨leading, 0⟩) (Decimal.rank ⟨1, exponent⟩)
        < rankCount)

end NumberLiteral

/-- Split the longest run of digits off a text. -/
def splitDigits (chars : List Char) : List Char × List Char :=
  (chars.takeWhile Char.isDigit, chars.dropWhile Char.isDigit)

/-- Read the whole part of a number: one zero, or digits that start with
another digit. -/
def readWhole (chars : List Char) : Option (List Char × List Char) :=
  match chars with
  | '0' :: rest => some (['0'], rest)
  | _ =>
    let (digits, rest) := splitDigits chars
    if digits.isEmpty then none else some (digits, rest)

/-- Read a fraction, if there is one. -/
def readFraction (chars : List Char) : Option (List Char × List Char) :=
  match chars with
  | '.' :: rest =>
    let (digits, rest) := splitDigits rest
    if digits.isEmpty then none else some (digits, rest)
  | _ => some ([], chars)

/-- Read an exponent, if there is one. -/
def readPower (chars : List Char) : Option (Int × List Char) :=
  match chars with
  | mark :: rest =>
    if mark = 'e' ∨ mark = 'E' then
      let (negative, unsigned) := splitSign rest
      let (digits, rest) := splitDigits unsigned
      if digits.isEmpty then none
      else
        let magnitude := Int.ofNat (digitsValue digits)
        some (if negative then -magnitude else magnitude, rest)
    else some (0, chars)
  | [] => some (0, [])

/-- Read a number literal. -/
def readNumberLiteral (chars : List Char) :
    Option (NumberLiteral × List Char) := do
  let (negative, unsigned) :=
    match chars with
    | '-' :: rest => (true, rest)
    | _ => (false, chars)
  let (whole, afterWhole) ← readWhole unsigned
  let (fraction, afterFraction) ← readFraction afterWhole
  let (exponent, rest) ← readPower afterFraction
  return (⟨negative, whole, fraction, exponent⟩, rest)

end BlockForge.Json
