import BlockForge.Proofs.Json.Token
import BlockForge.Proofs.Number.Magnitude
import Mathlib.Data.List.TakeWhile

/-!
# Literals that readers scale

A reader that scales the leading digits of a literal in binary64 arithmetic
refuses literals near the end of the range.  `isScalable_of_length_le` says that
this needs 308 digits before the point: what is written with fewer is taken.
-/

namespace BlockForge.Json

namespace NumberLiteral

/-- The length of the longest front of a range on which a test succeeds. -/
theorem length_takeWhile_range (test : Nat → Bool) (count : Nat) :
    (∀ index < ((List.range count).takeWhile test).length,
        test index = true) ∧
      (((List.range count).takeWhile test).length < count →
        test ((List.range count).takeWhile test).length = false) := by
  have length : ((List.range count).takeWhile test).length =
      (List.range count).findIdx fun index => !test index := by
    rw [List.takeWhile_eq_take_findIdx_not, List.length_take]
    exact Nat.min_eq_left List.findIdx_le_length
  rw [length]
  constructor
  · intro index before
    have succeeds := List.not_of_lt_findIdx before
    simpa using succeeds
  · intro inRange
    have found : (List.range count).findIdx (fun index => !test index) <
        (List.range count).length := by
      rwa [List.length_range]
    have fails := List.findIdx_getElem (w := found)
    simpa using fails

/-- The digits that are kept fit in 64 bits. -/
theorem digitsValue_take_keptDigits (digits : List Char) :
    digitsValue (digits.take (keptDigits digits)) < 2 ^ 64 := by
  cases kept : keptDigits digits with
  | zero => simp [digitsValue]
  | succ count =>
      have last : count < keptDigits digits := by omega
      exact of_decide_eq_true ((length_takeWhile_range _ _).1 count last)

/-- At least nineteen digits are kept if not all of them are. -/
theorem keptDigits_ge {digits : List Char}
    (isDigit : ∀ char ∈ digits, char.isDigit = true)
    (more : keptDigits digits < digits.length) : 19 ≤ keptDigits digits := by
  have next : 2 ^ 64 ≤ digitsValue (digits.take (keptDigits digits + 1)) :=
    Nat.not_lt.mp (of_decide_eq_false ((length_takeWhile_range _ _).2 more))
  have below : digitsValue (digits.take (keptDigits digits + 1)) <
      10 ^ (keptDigits digits + 1) := by
    have front : ∀ char ∈ digits.take (keptDigits digits + 1),
        char.isDigit = true :=
      fun char member => isDigit char (List.mem_of_mem_take member)
    have bound := digitsValue_lt front
    rwa [List.length_take, Nat.min_eq_left more] at bound
  by_contra few
  have power : 10 ^ (keptDigits digits + 1) ≤ 10 ^ 19 :=
    Nat.pow_le_pow_right (by decide) (by omega)
  omega

/-- The product of two numbers that powers of two bound is finite if the product
of the powers is. -/
theorem productRank_lt {left right first second : Nat}
    (leftBounded : left ≤ (first + 1023) * 2 ^ 52)
    (rightBounded : right ≤ (second + 1023) * 2 ^ 52)
    (small : first + second ≤ 1023) : productRank left right < rankCount := by
  have total : first + 1074 + (second + 1074) = first + second + 2148 := by
    omega
  have units : Binary64.units left * Binary64.units right ≤
      2 ^ (first + second) * 2 ^ 2148 := by
    calc
      _ ≤ 2 ^ (first + 1074) * 2 ^ (second + 1074) :=
        Nat.mul_le_mul (Binary64.units_le leftBounded)
          (Binary64.units_le rightBounded)
      _ = 2 ^ (first + second) * 2 ^ 2148 := by
        rw [← Nat.pow_add, ← Nat.pow_add, total]
  have rank := nearestRank_le (by positivity) units
  have least : (first + second + 1023) * 2 ^ 52 < rankCount :=
    Nat.mul_lt_mul_of_pos_right (by omega) (Nat.two_pow_pos 52)
  exact rank.trans_lt least

/-- What is written with at most 307 digits before the point is taken. -/
theorem isScalable_of_length_le {literal : NumberLiteral}
    (isDigit : ∀ char ∈ literal.whole ++ literal.fraction,
      char.isDigit = true)
    (exponent : literal.exponent = 0) (short : literal.whole.length ≤ 307) :
    literal.isScalable = true := by
  have leading := digitsValue_take_keptDigits (literal.whole ++ literal.fraction)
  have kept := keptDigits_ge isDigit
  rw [List.length_append] at kept
  simp only [isScalable, decide_eq_true_iff, exponent, Int.zero_add]
  generalize keptDigits (literal.whole ++ literal.fraction) = count at *
  by_cases fits : (literal.whole.length : Int) - count ≤ 0
  · exact .inr (.inl fits)
  · have power : (literal.whole.length : Int) - count =
        (literal.whole.length - count : Nat) := by
      omega
    rw [power]
    refine .inr (.inr ⟨by omega, ?_⟩)
    have scale : 1 * 10 ^ (literal.whole.length - count) ≤ 2 ^ 959 := by
      rw [Nat.one_mul]
      calc
        _ ≤ 10 ^ 288 := Nat.pow_le_pow_right (by decide) (by omega)
        _ ≤ 2 ^ 959 := by decide +kernel
    have digits : digitsValue ((literal.whole ++ literal.fraction).take count) *
        10 ^ 0 ≤ 2 ^ 64 := by
      omega
    exact productRank_lt (Decimal.rank_le (by decide) digits)
      (Decimal.rank_le (by decide) scale) (by decide)

end NumberLiteral

/-- A number with at most 307 digits before the point is taken. -/
theorem takesNumber_of_length_le {number : Binary64} {literal : NumberLiteral}
    (writes : writtenLiteral? number = some literal)
    (short : literal.whole.length ≤ 307) :
    takesNumber NumberLiteral.isScalable number = true := by
  cases number with
  | nan => cases writes
  | infinite negative => cases negative <;> cases writes
  | finite negative rank bounded =>
      rcases exists_written negative rank bounded with
        ⟨sign, whole, fraction, written⟩
      rw [written.literal] at writes
      cases writes
      rw [takesNumber, written.literal, Option.any_some]
      exact NumberLiteral.isScalable_of_length_le
        (List.forall_mem_append.mpr
          ⟨written.spells.isDigit_whole, written.spells.isDigit_fraction⟩)
        rfl short

/-! ## The largest number -/

/-- The largest finite number. -/
def largest : Binary64 := .finite false (rankCount - 1) (by decide)

/-- The literal of the largest number: its seventeen significant digits and 292
zeros. -/
def largestLiteral : NumberLiteral :=
  ⟨false, "17976931348623157".toList ++ List.replicate 292 '0', [], 0⟩

theorem plainText_largest :
    largest.plainText.toList = largestLiteral.whole := by
  have small : largest.toSmallInt? = none := by decide +kernel
  have shortest : Decimal.shortest (rankCount - 1) =
      ⟨17976931348623157, 292⟩ := by
    decide +kernel
  have digits : Decimal.positional ⟨17976931348623157, 292⟩ =
      largestLiteral.whole := by
    decide +kernel
  simp only [Binary64.plainText, small]
  simp only [largest, Binary64.shortestText, shortest, digits,
    String.toList_ofList, signed]
  rfl

/-- The largest number is not taken: its leading digits, scaled, lie beyond it. -/
theorem takesNumber_largest :
    takesNumber NumberLiteral.isScalable largest = false := by
  have writes : (readNumberLiteral largestLiteral.whole).map Prod.fst =
      some largestLiteral := by
    decide +kernel
  have beyond : largestLiteral.isScalable = false := by decide +kernel
  rw [takesNumber, writtenLiteral?, plainText_largest, writes, Option.any_some,
    beyond]

end BlockForge.Json
