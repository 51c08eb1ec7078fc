import BlockForge.Proofs.Number.Plain
import Mathlib.Data.List.Induction

/-!
# Numbers below a power of two

Rounding does not lift a number above a power of two: whatever is at most the
power has at most the rank of the power, and the magnitude of such a rank is at
most the power again.  Together with the number of digits this bounds what
arithmetic with rounded numbers gives, without a look at the digits themselves.
-/

namespace BlockForge

/-! ## Powers of two -/

theorem roundHalfEven_le {numerator denominator bound : Nat}
    (positive : 0 < denominator) (bounded : numerator ≤ bound * denominator) :
    roundHalfEven numerator denominator ≤ bound := by
  have parts := Nat.div_add_mod' numerator denominator
  have quotient : numerator / denominator ≤ bound :=
    Nat.div_le_of_le_mul (by rwa [Nat.mul_comm])
  unfold roundHalfEven
  dsimp only
  rcases quotient.lt_or_eq with less | exact
  · split_ifs <;> omega
  · have none : numerator % denominator = 0 := by
      rw [exact] at parts
      omega
    rw [none, if_pos positive, exact]

/-- A quotient that is at most a power of two has at most the rank of this
power. -/
theorem nearestRank_le {numerator denominator power : Nat}
    (positive : 0 < denominator)
    (bounded : numerator ≤ 2 ^ power * denominator) :
    nearestRank numerator denominator ≤ (power + 1023) * 2 ^ 52 := by
  have scale : ∀ count,
      numerator * 2 ^ count ≤ 2 ^ (power + count) * denominator := by
    intro count
    rw [Nat.pow_add, Nat.mul_right_comm]
    exact Nat.mul_le_mul_right _ bounded
  have scaledUp := scale 1074
  simp only [-Nat.reducePow, nearestRank, Nat.pow_eq]
  generalize numerator * 2 ^ 1074 = scaled at scaledUp
  have quotient : scaled / denominator ≤ 2 ^ (power + 1074) :=
    Nat.div_le_of_le_mul (by rwa [Nat.mul_comm])
  have round : ∀ {excess bound}, scaled ≤ 2 ^ (excess + bound) * denominator →
      roundHalfEven scaled (denominator * 2 ^ excess) ≤ 2 ^ bound := by
    intro excess bound fits
    refine roundHalfEven_le (by positivity) (fits.trans_eq ?_)
    rw [Nat.pow_add, Nat.mul_comm denominator, ← Nat.mul_assoc,
      Nat.mul_comm (2 ^ bound)]
  rcases quotient.lt_or_eq with less | exact
  · have log : Nat.log2 (scaled / denominator) - 52 ≤ power + 1021 := by
      have below : Nat.log2 (scaled / denominator) < power + 1074 := by
        by_cases zero : scaled / denominator = 0
        · simp [zero]
        · exact (Nat.log2_lt zero).mpr less
      clear round scaledUp scale less quotient
      omega
    have fits : scaled ≤
        2 ^ (Nat.log2 (scaled / denominator) - 52 + 53) * denominator := by
      have next : scaled / denominator <
          2 ^ (Nat.log2 (scaled / denominator) - 52 + 53) :=
        Nat.lt_log2_self.trans_le
          (Nat.pow_le_pow_right (by decide) (by omega))
      exact ((Nat.div_lt_iff_lt_mul positive).mp next).le
    calc
      _ ≤ (power + 1021) * 2 ^ 52 + 2 ^ 53 :=
        Nat.add_le_add (Nat.mul_le_mul_right _ log) (round fits)
      _ = (power + 1023) * 2 ^ 52 := by ring
  · have log : Nat.log2 (scaled / denominator) - 52 = power + 1022 := by
      rw [exact, Nat.log2_two_pow]
      rfl
    have fits : scaled ≤ 2 ^ (power + 1022 + 52) * denominator := by
      simpa only [Nat.add_assoc] using scaledUp
    rw [log]
    calc
      _ ≤ (power + 1022) * 2 ^ 52 + 2 ^ 52 :=
        Nat.add_le_add_left (round fits) _
      _ = (power + 1023) * 2 ^ 52 := by ring

namespace Binary64

/-- The magnitude of a rank that is at most the one of a power of two. -/
theorem units_le {rank power : Nat}
    (bounded : rank ≤ (power + 1023) * 2 ^ 52) :
    units rank ≤ 2 ^ (power + 1074) := by
  rw [units_eq]
  split_ifs with small
  · exact small.le.trans (Nat.pow_le_pow_right (by decide) (by omega))
  · have parts := Nat.div_add_mod' rank (2 ^ 52)
    have remainder := Nat.mod_lt rank (show 0 < 2 ^ 52 by decide)
    have exponent : rank / 2 ^ 52 ≤ power + 1023 :=
      Nat.div_le_of_le_mul (by rwa [Nat.mul_comm])
    rcases exponent.lt_or_eq with less | exact
    · have total : 53 + (power + 1021) = power + 1074 := by omega
      calc
        _ ≤ 2 ^ 53 * 2 ^ (power + 1021) :=
          Nat.mul_le_mul (by omega)
            (Nat.pow_le_pow_right (by decide) (by omega))
        _ = 2 ^ (power + 1074) := by
          rw [← Nat.pow_add, total]
    · have whole : rank % 2 ^ 52 = 0 := by
        rw [exact] at parts
        omega
      rw [whole, exact, Nat.add_zero, ← Nat.pow_add]
      exact Nat.pow_le_pow_right (by decide) (by omega)

end Binary64

/-- A decimal number that is at most a power of two has at most the rank of this
power. -/
theorem Decimal.rank_le {digits exponent power : Nat} (small : power ≤ 1023)
    (bounded : digits * 10 ^ exponent ≤ 2 ^ power) :
    rank ⟨digits, exponent⟩ ≤ (power + 1023) * 2 ^ 52 := by
  rcases Nat.eq_zero_or_pos digits with none | positive
  · simp [rank, none]
  · have below : digits * 10 ^ exponent < 10 ^ 400 :=
      (bounded.trans (Nat.pow_le_pow_right (by decide) small)).trans_lt
        (by decide +kernel)
    have places : digitCount digits + exponent ≤ 400 := by
      rw [← digitCount_mul_pow positive]
      exact (digitCount_le_iff (by decide)).mpr below
    have nearest := nearestRank_le Nat.one_pos
      (bounded.trans_eq (Nat.mul_one _).symm)
    have skipped : ¬ (digits = 0 ∨
        ((digitCount digits : Nat) : Int) + exponent < -400) := by omega
    have kept : ¬ 400 < ((digitCount digits : Nat) : Int) + exponent := by omega
    simpa only [rank, skipped, kept, if_false, Int.natCast_nonneg, if_true,
      Int.toNat_natCast, Nat.pow_eq] using nearest

/-! ## Digits -/

/-- Decimal digits write a number below the power of ten of their length. -/
theorem digitsValue_lt {digits : List Char}
    (isDigit : ∀ char ∈ digits, char.isDigit = true) :
    digitsValue digits < 10 ^ digits.length := by
  induction digits using List.reverseRecOn with
  | nil => decide
  | append_singleton digits digit digits_ih =>
      rw [List.forall_mem_append] at isDigit
      have others := digits_ih isDigit.1
      have last := isDigit.2 digit (by simp)
      have value : digitsValue (digits ++ [digit]) =
          10 * digitsValue digits + (digit.toNat - '0'.toNat) := by
        simp [digitsValue, Nat.ofDigitChars_append, Nat.ofDigitChars_cons]
      have least : digit.toNat - '0'.toNat < 10 := by
        have between := isDigit_iff.mp last
        have code : '0'.toNat = 48 := rfl
        omega
      rw [value, List.length_append, List.length_singleton, Nat.pow_succ]
      omega

end BlockForge
