import BlockForge.Number.Shortest
import Mathlib.Algebra.Order.Ring.Nat
import Mathlib.Tactic.Positivity
import Mathlib.Tactic.Ring
import Mathlib.Tactic.SplitIfs

/-!
# The rank of a decimal number

Rounding is exact where nothing has to be rounded away: `nearestRank` of the
magnitude of a number is its rank.  It depends on the quotient alone, so a
decimal number keeps its rank when zeros move between its digits and its
exponent.  Together this shows that the shortest decimal number of a rank reads
back as that rank.
-/

namespace BlockForge

theorem roundHalfEven_mul {denominator : Nat} (positive : 0 < denominator)
    (quotient : Nat) :
    roundHalfEven (quotient * denominator) denominator = quotient := by
  simp [roundHalfEven, Nat.mul_div_cancel _ positive, positive]

theorem roundHalfEven_mul_mul {factor : Nat} (positive : 0 < factor)
    (numerator denominator : Nat) :
    roundHalfEven (numerator * factor) (denominator * factor) =
      roundHalfEven numerator denominator := by
  have twice :
      2 * (numerator % denominator * factor) =
        2 * (numerator % denominator) * factor := by ring
  simp only [roundHalfEven, Nat.mul_div_mul_right _ _ positive,
    Nat.mul_mod_mul_right, twice, Nat.mul_lt_mul_right positive]

theorem Binary64.units_eq (rank : Nat) :
    units rank =
      if rank < 2 ^ 52 then rank
      else (2 ^ 52 + rank % 2 ^ 52) * 2 ^ (rank / 2 ^ 52 - 1) := by
  simp only [units, Nat.pow_eq]

/-- A quotient does not change its rank by being expanded. -/
theorem nearestRank_mul_mul {factor : Nat} (positive : 0 < factor)
    (numerator denominator : Nat) :
    nearestRank (numerator * factor) (denominator * factor) =
      nearestRank numerator denominator := by
  have regroup : ∀ number power,
      number * factor * 2 ^ power = number * 2 ^ power * factor :=
    fun number power => Nat.mul_right_comm number factor (2 ^ power)
  simp only [-Nat.reducePow, nearestRank, Nat.pow_eq, regroup,
    Nat.mul_div_mul_right _ _ positive, roundHalfEven_mul_mul positive]

theorem log2_mul_pow {mantissa : Nat} (lower : 2 ^ 52 ≤ mantissa)
    (upper : mantissa < 2 ^ 53) (exponent : Nat) :
    Nat.log2 (mantissa * 2 ^ exponent) = exponent + 52 := by
  rw [Nat.log2_eq_iff (by positivity)]
  constructor
  · calc
      2 ^ (exponent + 52) = 2 ^ 52 * 2 ^ exponent := by ring
      _ ≤ mantissa * 2 ^ exponent := Nat.mul_le_mul_right _ lower
  · calc
      mantissa * 2 ^ exponent < 2 ^ 53 * 2 ^ exponent :=
        Nat.mul_lt_mul_of_pos_right upper (by positivity)
      _ = 2 ^ (exponent + 52 + 1) := by ring

/-- Rounding finds every number at its own magnitude. -/
theorem nearestRank_of_units {rank numerator denominator : Nat}
    (positive : 0 < denominator)
    (exact : numerator * 2 ^ 1074 = Binary64.units rank * denominator) :
    nearestRank numerator denominator = rank := by
  simp only [-Nat.reducePow, nearestRank, Nat.pow_eq, exact,
    Nat.mul_div_cancel _ positive, Binary64.units_eq]
  split_ifs with small
  · have noExcess : Nat.log2 rank - 52 = 0 := by
      by_cases zero : rank = 0
      · simp [zero]
      · have bound := (Nat.log2_lt zero).mpr small
        omega
    rw [noExcess, Nat.pow_zero, Nat.mul_one, roundHalfEven_mul positive]
    omega
  · have lower : 2 ^ 52 ≤ 2 ^ 52 + rank % 2 ^ 52 := by omega
    have upper : 2 ^ 52 + rank % 2 ^ 52 < 2 ^ 53 := by omega
    have regroup :
        (2 ^ 52 + rank % 2 ^ 52) * 2 ^ (rank / 2 ^ 52 - 1) * denominator =
          (2 ^ 52 + rank % 2 ^ 52) *
            (denominator * 2 ^ (rank / 2 ^ 52 - 1)) := by
      ring
    rw [log2_mul_pow lower upper, Nat.add_sub_cancel, regroup,
      roundHalfEven_mul (by positivity)]
    omega

namespace Decimal

theorem digitCount_le_iff {number count : Nat} (positive : 0 < count) :
    digitCount number ≤ count ↔ number < 10 ^ count :=
  Nat.length_toDigits_le_iff (by decide) positive

/-- A zero put behind a number multiplies it by ten. -/
theorem toDigits_mul_pow {number : Nat} (positive : 0 < number) (count : Nat) :
    Nat.toDigits 10 (number * 10 ^ count) =
      Nat.toDigits 10 number ++ List.replicate count '0' := by
  induction count with
  | zero => simp
  | succ count count_ih =>
      have large : 10 ≤ number * 10 ^ (count + 1) := by
        have power : 1 ≤ number * 10 ^ count :=
          Nat.mul_pos positive (by positivity)
        rw [Nat.pow_succ, ← Nat.mul_assoc]
        omega
      have last : number * 10 ^ (count + 1) % 10 = 0 := by
        rw [Nat.pow_succ, ← Nat.mul_assoc, Nat.mul_mod_left]
      have rest : number * 10 ^ (count + 1) / 10 = number * 10 ^ count := by
        rw [Nat.pow_succ, ← Nat.mul_assoc, Nat.mul_div_cancel _ (by decide)]
      rw [Nat.toDigits_of_base_le (by decide) large, last, rest, count_ih,
        List.append_assoc, List.replicate_succ']
      rfl

theorem digitCount_mul_pow {number : Nat} (positive : 0 < number)
    (count : Nat) :
    digitCount (number * 10 ^ count) = digitCount number + count := by
  simp [digitCount, toDigits_mul_pow positive]

/-- Zeros behind the digits count as much as a greater exponent. -/
theorem rank_mul_pow (digits count : Nat) (exponent : Int) :
    rank ⟨digits * 10 ^ count, exponent⟩ = rank ⟨digits, exponent + count⟩ := by
  rcases Nat.eq_zero_or_pos digits with none | positive
  · simp [rank, none]
  · have product : 0 < digits * 10 ^ count := Nat.mul_pos positive (by positivity)
    have places :
        ((digitCount digits + count : Nat) : Int) + exponent =
          digitCount digits + (exponent + count) := by
      push_cast
      ring
    simp only [rank, Nat.pow_eq, digitCount_mul_pow positive, places,
      product.ne', positive.ne', false_or]
    split_ifs with small large before after after
    · rfl
    · rfl
    · rcases Int.eq_ofNat_of_zero_le before with ⟨power, rfl⟩
      have total : ((power : Int) + count).toNat = power + count := by omega
      rw [total, Int.toNat_natCast, Nat.mul_assoc, ← Nat.pow_add,
        Nat.add_comm count]
    · omega
    · have total : count = (-exponent).toNat + (exponent + count).toNat := by
        omega
      have shifted : digits * 10 ^ count =
          digits * 10 ^ (exponent + count).toNat * 10 ^ (-exponent).toNat := by
        rw [Nat.mul_assoc, ← Nat.pow_add, Nat.add_comm, ← total]
      have power : 0 < 10 ^ (-exponent).toNat := by positivity
      have scaled := nearestRank_mul_mul power
        (digits * 10 ^ (exponent + count).toNat) 1
      rw [Nat.one_mul] at scaled
      rw [shifted, scaled]
    · have total : (-exponent).toNat = (-(exponent + count)).toNat + count := by
        omega
      rw [total, Nat.pow_add, nearestRank_mul_mul (by positivity)]

end Decimal

end BlockForge
