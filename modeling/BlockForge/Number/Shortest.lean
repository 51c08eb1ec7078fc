import BlockForge.Number.Decimal

/-!
# Shortest decimal text

A finite binary64 number is written with the fewest digits that read back as
the same number; of two such numbers the nearer is taken, and of two equally
near ones the greater.

The magnitude of a number is an exact multiple of `10 ^ -1074`.  For one to
seventeen digits its two neighbours on the grid of that many digits are read
back; the first grid with a hit decides.
-/

namespace BlockForge

/-- The exact decimal number of a rank. -/
def Decimal.ofRank (rank : Nat) : Decimal :=
  ⟨Binary64.units rank * Nat.pow 5 1074, -1074⟩

/-- The neighbour of `exact * 10 ^ -1074` with `size` digits that reads back as
`rank`, if there is one. -/
def neighbour? (rank exact length size : Nat) : Option Decimal :=
  let step := Nat.pow 10 (length - size)
  let exponent : Int := Int.ofNat (length - size) - 1074
  let below : Decimal := ⟨exact / step, exponent⟩
  let above : Decimal := ⟨exact / step + 1, exponent⟩
  if below.rank = rank then
    if above.rank = rank ∧ step ≤ 2 * (exact % step) then some above
    else some below
  else if above.rank = rank then some above
  else none

/-- The shortest decimal number that reads back as `rank`. -/
def Decimal.shortest (rank : Nat) : Decimal :=
  if rank = 0 then ⟨0, 0⟩
  else
    let exact := Binary64.units rank * Nat.pow 5 1074
    let length := digitCount exact
    let sizes := (List.range 17).map (· + 1)
    (sizes.findSome? (neighbour? rank exact length)).getD (Decimal.ofRank rank)

/-- Put a minus sign before the text of a negative number. -/
def signed (negative : Bool) (text : List Char) : List Char :=
  if negative then '-' :: text else text

namespace Binary64

/-- The shortest text of a number, without exponent; the sign of a zero is
kept. -/
def shortestText : Binary64 → String
  | .nan => "NaN"
  | .infinite negative => String.ofList (signed negative "inf".toList)
  | .finite negative rank _ =>
    String.ofList (signed negative (Decimal.shortest rank).positional)

/-- The integer that a number is, if it is one below `10 ^ 15` in magnitude. -/
def toSmallInt? (number : Binary64) : Option Int :=
  number.toInt?.filter fun integer => integer.natAbs < Nat.pow 10 15

/-- The text of a finite number: a small integer as such, so that no zero has
a sign, and any other number in its shortest form. -/
def plainText (number : Binary64) : String :=
  match number.toSmallInt? with
  | some integer => toString integer
  | none => number.shortestText

end Binary64

end BlockForge
