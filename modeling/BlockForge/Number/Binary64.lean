/-!
# Binary floating-point numbers

The numbers of the binary64 format with a single NaN.  A finite number is a
sign and a *rank*: its place among the non-negative finite numbers in
increasing order.  The rank of a number is also its bit pattern without the
sign.

`Binary64.units` is the magnitude of a rank in units of the smallest positive
number, `2 ^ -1074`, and so exact.
-/

namespace BlockForge

/-- The number of non-negative finite binary64 numbers. -/
def rankCount : Nat := 2047 * Nat.pow 2 52

/-- A number of the binary64 format. -/
inductive Binary64 where
  | nan
  | infinite (negative : Bool)
  | finite (negative : Bool) (rank : Nat) (bounded : rank < rankCount)
deriving DecidableEq, Repr

namespace Binary64

/-- The magnitude of the number of a rank, in units of `2 ^ -1074`: below the
first power of two the rank itself, above it 53 digits shifted by the
exponent. -/
def units (rank : Nat) : Nat :=
  if rank < Nat.pow 2 52 then rank
  else
    (Nat.pow 2 52 + rank % Nat.pow 2 52) * Nat.pow 2 (rank / Nat.pow 2 52 - 1)

/-- The positive zero. -/
def zero : Binary64 := .finite false 0 (by decide)

/-- The finite number of a rank, and infinity where the ranks end. -/
def ofRank (negative : Bool) (rank : Nat) : Binary64 :=
  if bounded : rank < rankCount then .finite negative rank bounded
  else .infinite negative

/-- The bit pattern in the interchange format; NaN has the quiet pattern
without sign and payload. -/
def toBits : Binary64 → Nat
  | .nan => 0x7FF8 * Nat.pow 2 48
  | .infinite negative => (if negative then Nat.pow 2 63 else 0) + rankCount
  | .finite negative rank _ => (if negative then Nat.pow 2 63 else 0) + rank

/-- Whether a number is neither infinite nor NaN. -/
def isFinite : Binary64 → Bool
  | .finite .. => true
  | _ => false

/-- Whether a number is positive or negative zero. -/
def isZero : Binary64 → Bool
  | .finite _ 0 _ => true
  | _ => false

/-- The integer that a finite number is, if it is one. -/
def toInt? : Binary64 → Option Int
  | .finite negative rank _ =>
    if units rank % Nat.pow 2 1074 = 0 then
      let magnitude := Int.ofNat (units rank / Nat.pow 2 1074)
      some (if negative then -magnitude else magnitude)
    else none
  | _ => none

@[simp]
theorem isFinite_finite (negative : Bool) (rank : Nat)
    (bounded : rank < rankCount) :
    (Binary64.finite negative rank bounded).isFinite = true := rfl

@[simp]
theorem isFinite_infinite (negative : Bool) :
    (Binary64.infinite negative).isFinite = false := rfl

@[simp]
theorem isFinite_nan : Binary64.nan.isFinite = false := rfl

@[simp]
theorem ofRank_of_lt {negative : Bool} {rank : Nat}
    (bounded : rank < rankCount) :
    ofRank negative rank = .finite negative rank bounded := by
  simp [ofRank, bounded]

end Binary64

end BlockForge
