import BlockForge.Number.Binary64

/-!
# Decimal numbers

A decimal number is a natural number of digits scaled by a power of ten.
`nearestRank` finds the binary64 number nearest to a quotient, a half going to
the even neighbour; `Decimal.nearest` applies it to a decimal number.

`Decimal.positional` writes a decimal number without an exponent, and
`readDecimal` reads the written forms back: digits with an optional point and
an optional exponent.
-/

namespace BlockForge

/-- Divide and round to the nearest integer, a half to the even one. -/
def roundHalfEven (numerator denominator : Nat) : Nat :=
  let quotient := numerator / denominator
  let twice := 2 * (numerator % denominator)
  if twice < denominator then quotient
  else if denominator < twice then quotient + 1
  else quotient + quotient % 2

/-- The rank of the binary64 number nearest to a quotient.

The quotient is measured in units of `2 ^ -1074`.  Its excess over 53 binary
digits says how many of them are rounded away; a carry out of the rounding
leads to the next exponent, which is the next rank. -/
def nearestRank (numerator denominator : Nat) : Nat :=
  let scaled := numerator * Nat.pow 2 1074
  let excess := Nat.log2 (scaled / denominator) - 52
  excess * Nat.pow 2 52 + roundHalfEven scaled (denominator * Nat.pow 2 excess)

/-- The number `digits * 10 ^ exponent`. -/
structure Decimal where
  digits : Nat
  exponent : Int
deriving DecidableEq, Repr

/-- How many decimal digits a natural number has. -/
def digitCount (number : Nat) : Nat :=
  (Nat.toDigits 10 number).length

namespace Decimal

/-- The rank nearest to a decimal number.  A number of more than 400 places
before the point lies above every rank, one whose first digit comes after the
400th place below the smallest half. -/
def rank (decimal : Decimal) : Nat :=
  let places : Int := digitCount decimal.digits + decimal.exponent
  if decimal.digits = 0 ∨ places < -400 then 0
  else if 400 < places then rankCount
  else if 0 ≤ decimal.exponent then
    nearestRank (decimal.digits * Nat.pow 10 decimal.exponent.toNat) 1
  else nearestRank decimal.digits (Nat.pow 10 (-decimal.exponent).toNat)

/-- The binary64 number nearest to a decimal number of the given sign;
infinity where the ranks end. -/
def nearest (negative : Bool) (decimal : Decimal) : Binary64 :=
  Binary64.ofRank negative decimal.rank

/-- The digits of a number, led by zeros to a length of at least `width`. -/
def paddedDigits (width number : Nat) : List Char :=
  let shown := Nat.toDigits 10 number
  List.replicate (width - shown.length) '0' ++ shown

/-- Drop the zeros at the end of a list of digits. -/
def dropZeroEnd (digits : List Char) : List Char :=
  (digits.reverse.dropWhile (· == '0')).reverse

/-- Write a decimal number without exponent, with no zero after the last
significant digit behind the point. -/
def positional (decimal : Decimal) : List Char :=
  if 0 ≤ decimal.exponent then
    Nat.toDigits 10 (decimal.digits * Nat.pow 10 decimal.exponent.toNat)
  else
    let places := (-decimal.exponent).toNat
    let shown := paddedDigits (places + 1) decimal.digits
    let whole := shown.take (shown.length - places)
    let fraction := dropZeroEnd (shown.drop (shown.length - places))
    if fraction.isEmpty then whole else whole ++ '.' :: fraction

end Decimal

/-- The value of a list of decimal digits. -/
def digitsValue (digits : List Char) : Nat :=
  Nat.ofDigitChars 10 digits 0

/-- Read an exponent: an optional sign and at least one digit. -/
def readExponent (chars : List Char) : Option Int :=
  let read := fun (negative : Bool) (digits : List Char) =>
    if digits ≠ [] ∧ digits.all Char.isDigit then
      let magnitude := Int.ofNat (digitsValue digits)
      some (if negative then -magnitude else magnitude)
    else none
  match chars with
  | '-' :: digits => read true digits
  | '+' :: digits => read false digits
  | digits => read false digits

/-- Read digits with an optional point and an optional exponent; a digit is
needed before or after the point. -/
def readDecimal (chars : List Char) : Option Decimal :=
  let (whole, afterWhole) := chars.span Char.isDigit
  let (fraction, afterFraction) :=
    match afterWhole with
    | '.' :: rest => rest.span Char.isDigit
    | rest => ([], rest)
  if whole = [] ∧ fraction = [] then none
  else
    let digits := digitsValue (whole ++ fraction)
    let places := Int.ofNat fraction.length
    match afterFraction with
    | [] => some ⟨digits, -places⟩
    | mark :: rest =>
      if mark = 'e' ∨ mark = 'E' then
        (readExponent rest).map fun exponent => ⟨digits, exponent - places⟩
      else none

/-- Split a sign off a text; a minus sign makes it negative. -/
def splitSign : List Char → Bool × List Char
  | '-' :: rest => (true, rest)
  | '+' :: rest => (false, rest)
  | rest => (false, rest)

/-- Read a number: an optional sign, then a decimal number or one of the words
`inf`, `infinity` and `nan` in any letter case. -/
def readBinary64 (chars : List Char) : Option Binary64 :=
  let (negative, unsigned) := splitSign chars
  let word := unsigned.map Char.toLower
  if word = "inf".toList ∨ word = "infinity".toList then
    some (.infinite negative)
  else if word = "nan".toList then some .nan
  else (readDecimal unsigned).map (Decimal.nearest negative)

end BlockForge
