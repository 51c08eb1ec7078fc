import BlockForge.Number.Shortest
import BlockForge.Proofs.Number.Rank

/-!
# The text of a number

The text of a finite number consists of digits with an optional point between
them.  The digits before the point have no leading zero, and together the
digits have the rank of the number.

The text drops the sign of a zero and nothing else: the digits and the sign of
the text have the value `Binary64.plain` of the number.
-/

namespace BlockForge

theorem isDigit_iff {char : Char} :
    char.isDigit = true ↔ 48 ≤ char.toNat ∧ char.toNat ≤ 57 := by
  simp [Char.isDigit, UInt32.le_iff_toNat_le, ← Char.toNat_val]

/-- Digits with a point in front of a fraction. -/
def pointed (whole fraction : List Char) : List Char :=
  if fraction.isEmpty then whole else whole ++ '.' :: fraction

/-- Digits that may stand before a point. -/
structure IsWhole (whole : List Char) : Prop where
  isDigit : ∀ char ∈ whole, char.isDigit = true
  lead : whole = ['0'] ∨ ∃ head rest, whole = head :: rest ∧ head ≠ '0'

theorem IsWhole.exists_digit {whole : List Char} (isWhole : IsWhole whole) :
    ∃ head digits, whole = head :: digits ∧ head.isDigit = true := by
  have isDigit := isWhole.isDigit
  rcases isWhole.lead with rfl | ⟨head, digits, rfl, _⟩
  · exact ⟨'0', [], rfl, rfl⟩
  · exact ⟨head, digits, rfl, isDigit head (by simp)⟩

/-- The digits before and behind a point write a number of a rank. -/
structure Spells (whole fraction : List Char) (rank : Nat) : Prop where
  isDigit_whole : ∀ char ∈ whole, char.isDigit = true
  isDigit_fraction : ∀ char ∈ fraction, char.isDigit = true
  lead : whole = ['0'] ∨ ∃ head rest, whole = head :: rest ∧ head ≠ '0'
  rank_eq :
    Decimal.rank ⟨digitsValue (whole ++ fraction), -fraction.length⟩ = rank

theorem Spells.isWhole {whole fraction : List Char} {rank : Nat}
    (spells : Spells whole fraction rank) : IsWhole whole :=
  ⟨spells.isDigit_whole, spells.lead⟩

theorem Spells.exists_digit {whole fraction : List Char} {rank : Nat}
    (spells : Spells whole fraction rank) :
    ∃ head digits, whole = head :: digits ∧ head.isDigit = true :=
  spells.isWhole.exists_digit

/-- A positive number does not start with a zero. -/
theorem toDigits_lead {number : Nat} (positive : 0 < number) :
    ∃ head rest, Nat.toDigits 10 number = head :: rest ∧ head ≠ '0' := by
  have differs : ∀ digit < 10, 0 < digit → digit.digitChar ≠ '0' := by decide
  induction number using Nat.strongRecOn with
  | ind number number_ih =>
      by_cases small : number < 10
      · exact ⟨number.digitChar, [], Nat.toDigits_of_lt_base small,
          differs number small positive⟩
      · rcases number_ih (number / 10) (by omega) (by omega) with
          ⟨head, rest, digits, differs⟩
        rw [Nat.toDigits_of_base_le (by decide) (by omega), digits]
        exact ⟨head, _, rfl, differs⟩

theorem isDigit_of_mem_toDigits {number : Nat} :
    ∀ char ∈ Nat.toDigits 10 number, char.isDigit = true :=
  fun _ member => Nat.isDigit_of_mem_toDigits (by decide) (by decide) member

/-- A natural number is written by its digits alone. -/
theorem spells_toDigits (number : Nat) :
    Spells (Nat.toDigits 10 number) [] (Decimal.rank ⟨number, 0⟩) where
  isDigit_whole := isDigit_of_mem_toDigits
  isDigit_fraction := by simp
  lead := by
    rcases Nat.eq_zero_or_pos number with rfl | positive
    · exact .inl rfl
    · exact .inr (toDigits_lead positive)
  rank_eq := by simp [digitsValue]

namespace Decimal

theorem exists_eq_dropZeroEnd (digits : List Char) :
    ∃ count, digits = dropZeroEnd digits ++ List.replicate count '0' := by
  have zeros : digits.reverse.takeWhile (· == '0') =
      List.replicate (digits.reverse.takeWhile (· == '0')).length '0' := by
    apply List.eq_replicate_of_mem
    intro char member
    simpa using List.all_eq_true.mp List.all_takeWhile char member
  refine ⟨(digits.reverse.takeWhile (· == '0')).length, ?_⟩
  calc
    digits = (digits.reverse.takeWhile (· == '0') ++
        digits.reverse.dropWhile (· == '0')).reverse := by simp
    _ = dropZeroEnd digits ++
        List.replicate (digits.reverse.takeWhile (· == '0')).length '0' := by
      rw [List.reverse_append, zeros, List.reverse_replicate,
        List.length_replicate, dropZeroEnd]

theorem digitsValue_paddedDigits (width number : Nat) :
    digitsValue (paddedDigits width number) = number := by
  simp [digitsValue, paddedDigits, Nat.ofDigitChars_append]

theorem isDigit_of_mem_paddedDigits {width number : Nat} :
    ∀ char ∈ paddedDigits width number, char.isDigit = true := by
  intro char member
  rcases List.mem_append.mp member with zero | shown
  · rw [List.eq_of_mem_replicate zero]
    rfl
  · exact isDigit_of_mem_toDigits char shown

/-- Padding by zeros leaves a single zero in front of the last places. -/
theorem paddedDigits_lead {places : Nat} (some : 0 < places) (number : Nat) :
    let shown := paddedDigits (places + 1) number
    shown.take (shown.length - places) = ['0'] ∨
      ∃ head rest,
        shown.take (shown.length - places) = head :: rest ∧ head ≠ '0' := by
  intro shown
  by_cases short : (Nat.toDigits 10 number).length ≤ places
  · left
    have padding : places + 1 - (Nat.toDigits 10 number).length =
        places - (Nat.toDigits 10 number).length + 1 := by
      omega
    have total : shown.length - places = 1 := by
      simp only [shown, paddedDigits, List.length_append,
        List.length_replicate]
      omega
    rw [total]
    simp [shown, paddedDigits, padding, List.replicate_succ]
  · right
    have unpadded : shown = Nat.toDigits 10 number := by
      have none : places + 1 - (Nat.toDigits 10 number).length = 0 := by omega
      simp [shown, paddedDigits, none]
    have positive : 0 < number := by
      rcases Nat.eq_zero_or_pos number with rfl | positive
      · exact absurd some (by simpa using short)
      · exact positive
    rcases toDigits_lead positive with ⟨head, rest, digits, differs⟩
    rcases left : shown.length - places with _ | count
    · rw [unpadded] at left
      omega
    · rw [unpadded, digits]
      exact ⟨head, rest.take count, rfl, differs⟩

/-- Writing a decimal number without exponent keeps its rank. -/
theorem exists_spells_positional (decimal : Decimal) :
    ∃ whole fraction, decimal.positional = pointed whole fraction ∧
      Spells whole fraction decimal.rank := by
  rcases decimal with ⟨digits, exponent⟩
  by_cases integral : 0 ≤ exponent
  · rcases Int.eq_ofNat_of_zero_le integral with ⟨power, rfl⟩
    have spells := spells_toDigits (digits * 10 ^ power)
    rw [rank_mul_pow, Int.zero_add] at spells
    exact ⟨_, [], by simp [positional, pointed], spells⟩
  · rcases Int.eq_negSucc_of_lt_zero (Int.not_le.mp integral) with
      ⟨power, rfl⟩
    let shown := paddedDigits (power + 1 + 1) digits
    let whole := shown.take (shown.length - (power + 1))
    let behind := shown.drop (shown.length - (power + 1))
    have parts : whole ++ behind = shown := List.take_append_drop ..
    have isDigit : ∀ char ∈ whole ++ behind, char.isDigit = true := by
      rw [parts]
      exact isDigit_of_mem_paddedDigits
    have long : power + 1 ≤ shown.length := by
      simp only [shown, paddedDigits, List.length_append, List.length_replicate]
      omega
    have places : behind.length = power + 1 := by
      simp only [behind, List.length_drop]
      omega
    rcases exists_eq_dropZeroEnd behind with ⟨count, zeros⟩
    refine ⟨whole, dropZeroEnd behind, rfl, ?_, ?_, ?_, ?_⟩
    · exact fun char member => isDigit char (by simp [member])
    · intro char member
      apply isDigit char
      rw [zeros]
      simp [member]
    · exact paddedDigits_lead (Nat.succ_pos power) digits
    · have value :
          digitsValue (whole ++ dropZeroEnd behind) * 10 ^ count = digits := by
        calc
          digitsValue (whole ++ dropZeroEnd behind) * 10 ^ count =
              digitsValue (whole ++
                (dropZeroEnd behind ++ List.replicate count '0')) := by
            simp [digitsValue, Nat.ofDigitChars_append, Nat.mul_comm]
          _ = digitsValue shown := by rw [← zeros, parts]
          _ = digits := digitsValue_paddedDigits (power + 1 + 1) digits
      have length : (dropZeroEnd behind).length + count = power + 1 := by
        rw [← places]
        conv_rhs => rw [zeros]
        simp
      have shifted :
          -((dropZeroEnd behind).length : Int) = Int.negSucc power + count := by
        omega
      rw [shifted, ← rank_mul_pow, value]

/-! ## Shortest texts -/

theorem rank_of_neighbour? {rank exact length size : Nat} {decimal : Decimal}
    (found : neighbour? rank exact length size = some decimal) :
    decimal.rank = rank := by
  simp only [neighbour?] at found
  split_ifs at found with below above above
  · rw [← Option.some.inj found]
    exact above.1
  · rw [← Option.some.inj found]
    exact below
  · rw [← Option.some.inj found]
    exact above

theorem units_pos {rank : Nat} (positive : 0 < rank) :
    0 < Binary64.units rank := by
  rw [Binary64.units_eq]
  split_ifs
  · exact positive
  · positivity

theorem units_lt {rank exponent : Nat}
    (bounded : rank < (exponent + 2) * 2 ^ 52) :
    Binary64.units rank < 2 ^ 53 * 2 ^ exponent := by
  rw [Binary64.units_eq]
  split_ifs with small
  · calc
      rank < 2 ^ 53 * 1 := by omega
      _ ≤ 2 ^ 53 * 2 ^ exponent := Nat.mul_le_mul_left _ Nat.one_le_two_pow
  · exact Nat.mul_lt_mul_of_lt_of_le' (by omega)
      (Nat.pow_le_pow_right (by decide) (by omega)) (by positivity)

/-- The exact decimal number of a rank has this rank. -/
theorem rank_ofRank {rank : Nat} (positive : 0 < rank)
    (bounded : rank < rankCount) : (ofRank rank).rank = rank := by
  have least := units_pos positive
  have most : Binary64.units rank < 2 ^ 53 * 2 ^ 2045 := units_lt bounded
  have many : ¬ digitCount (Binary64.units rank * 5 ^ 1074) ≤ 700 := by
    rw [digitCount_le_iff (by decide), Nat.not_lt]
    calc
      10 ^ 700 ≤ 1 * 5 ^ 1074 := by decide +kernel
      _ ≤ Binary64.units rank * 5 ^ 1074 := Nat.mul_le_mul_right _ least
  have few : digitCount (Binary64.units rank * 5 ^ 1074) ≤ 1400 := by
    have scaled := Nat.mul_lt_mul_of_pos_right (k := 5 ^ 1074) most
      (Nat.pow_pos (by decide))
    rw [digitCount_le_iff (by decide)]
    exact scaled.trans_le (by decide +kernel)
  have nonzero : Binary64.units rank * 5 ^ 1074 ≠ 0 :=
    (Nat.mul_pos least (Nat.pow_pos (by decide))).ne'
  have exact : ofRank rank = ⟨Binary64.units rank * 5 ^ 1074, -1074⟩ := rfl
  rw [exact, Decimal.rank]
  dsimp only
  rw [if_neg (by omega), if_neg (by omega), if_neg (by decide), Nat.pow_eq]
  apply nearestRank_of_units (Nat.pow_pos (by decide))
  rw [Nat.mul_assoc, ← Nat.mul_pow]
  rfl

/-- The shortest decimal number of a rank reads back as this rank. -/
theorem rank_shortest {rank : Nat} (bounded : rank < rankCount) :
    (shortest rank).rank = rank := by
  unfold shortest
  split_ifs with none
  · simp [Decimal.rank, none]
  · dsimp only
    cases found : List.findSome?
        (neighbour? rank (Binary64.units rank * 5 ^ 1074)
          (digitCount (Binary64.units rank * 5 ^ 1074)))
        ((List.range 17).map (· + 1)) with
    | none => exact rank_ofRank (Nat.pos_of_ne_zero none) bounded
    | some decimal =>
        rcases List.exists_of_findSome?_eq_some found with ⟨size, _, neighbour⟩
        exact rank_of_neighbour? neighbour

end Decimal

namespace Binary64

/-- A number without the sign of a zero. -/
def plain : Binary64 → Binary64
  | .finite _ 0 bounded => .finite false 0 bounded
  | number => number

theorem plain_of_pos {negative : Bool} {rank : Nat} {bounded : rank < rankCount}
    (positive : 0 < rank) :
    (finite negative rank bounded).plain = .finite negative rank bounded := by
  cases rank with
  | zero => exact absurd positive (Nat.lt_irrefl 0)
  | succ rank => rfl

/-- A whole number below `10 ^ 15` is the nearest one to itself. -/
theorem rank_of_units {rank magnitude : Nat} (small : magnitude < 10 ^ 15)
    (exact : units rank = magnitude * 2 ^ 1074) :
    Decimal.rank ⟨magnitude, 0⟩ = rank := by
  have nearest : nearestRank magnitude 1 = rank := by
    apply nearestRank_of_units (by decide)
    rw [Nat.mul_one, exact]
  have digits : digitCount magnitude ≤ 15 :=
    (Decimal.digitCount_le_iff (by decide)).mpr small
  rw [Decimal.rank]
  dsimp only
  by_cases zero : magnitude = 0
  · rw [if_pos (.inl zero), ← nearest, zero]
    simp [-Nat.reducePow, nearestRank, roundHalfEven]
  · rw [if_neg (by omega), if_neg (by omega), if_pos le_rfl]
    simpa using nearest

theorem exists_of_toSmallInt? {negative : Bool} {rank : Nat}
    {bounded : rank < rankCount} {integer : Int}
    (small : (finite negative rank bounded).toSmallInt? = some integer) :
    ∃ magnitude : Nat, magnitude < 10 ^ 15 ∧
      units rank = magnitude * 2 ^ 1074 ∧
        integer = if negative then -(magnitude : Int) else magnitude := by
  rw [toSmallInt?, Option.filter_eq_some_iff, toInt?, Nat.pow_eq] at small
  rcases small with ⟨whole, small⟩
  by_cases divides : units rank % 2 ^ 1074 = 0
  · have product := Nat.div_mul_cancel (Nat.dvd_of_mod_eq_zero divides)
    rw [if_pos divides] at whole
    generalize units rank / 2 ^ 1074 = magnitude at whole product
    have equal :
        (if negative then -(magnitude : Int) else magnitude) = integer :=
      Option.some.inj whole
    refine ⟨magnitude, ?_, product.symm, equal.symm⟩
    have bound : integer.natAbs < 10 ^ 15 := by simpa using small
    rw [← equal] at bound
    cases negative <;> simpa using bound
  · rw [if_neg divides] at whole
    cases whole

theorem toSmallInt?_zero (negative : Bool) (bounded : 0 < rankCount) :
    (finite negative 0 bounded).toSmallInt? = some 0 := by
  have zero : units 0 = 0 := rfl
  simp [-Nat.reducePow, toSmallInt?, toInt?, zero]

/-- The text of an integer: a zero has no sign. -/
theorem toList_toString_int (negative : Bool) (magnitude : Nat) :
    (toString (if negative then -(magnitude : Int) else magnitude)).toList =
      signed (negative && decide (0 < magnitude))
        (Nat.toDigits 10 magnitude) := by
  cases negative with
  | false => exact String.toList_ofList
  | true =>
      cases magnitude with
      | zero => rfl
      | succ count =>
          have text : toString (-((count + 1 : Nat) : Int)) =
              "-" ++ toString (count + 1) := rfl
          rw [if_pos rfl, text, String.toList_append,
            Nat.toString_eq_ofList_toDigits, String.toList_ofList]
          simp [signed]

theorem magnitude_pos_iff {rank magnitude : Nat}
    (exact : units rank = magnitude * 2 ^ 1074) : 0 < magnitude ↔ 0 < rank := by
  constructor
  · intro positive
    rcases Nat.eq_zero_or_pos rank with rfl | some
    · have zero : units 0 = 0 := rfl
      rw [zero] at exact
      exact absurd exact.symm (Nat.mul_pos positive (by positivity)).ne'
    · exact some
  · intro positive
    have least := Decimal.units_pos positive
    rw [exact] at least
    exact Nat.pos_of_mul_pos_right least

/-- The text of a finite number consists of a sign and of digits that write the
number, apart from the sign of a zero. -/
theorem exists_spells_plainText (negative : Bool) (rank : Nat)
    (bounded : rank < rankCount) :
    ∃ sign whole fraction,
      (finite negative rank bounded).plainText.toList =
          signed sign (pointed whole fraction) ∧
        Spells whole fraction rank ∧
          ofRank sign rank = (finite negative rank bounded).plain := by
  unfold plainText
  cases small : (finite negative rank bounded).toSmallInt? with
  | some integer =>
      rcases exists_of_toSmallInt? small with
        ⟨magnitude, below, exact, rfl⟩
      have spells := spells_toDigits magnitude
      rw [rank_of_units below exact] at spells
      refine ⟨negative && decide (0 < magnitude), _, [], ?_, spells, ?_⟩
      · exact toList_toString_int negative magnitude
      · have positive := magnitude_pos_iff exact
        rw [ofRank_of_lt bounded]
        cases rank with
        | zero => simp [plain, positive]
        | succ rank => simp [plain, positive]
  | none =>
      rcases (Decimal.shortest rank).exists_spells_positional with
        ⟨whole, fraction, text, spells⟩
      rw [Decimal.rank_shortest bounded] at spells
      refine ⟨negative, whole, fraction, ?_, spells, ?_⟩
      · simp [shortestText, text]
      · have positive : 0 < rank := by
          rcases Nat.eq_zero_or_pos rank with rfl | positive
          · rw [toSmallInt?_zero] at small
            cases small
          · exact positive
        rw [ofRank_of_lt bounded, plain_of_pos positive]

/-- The sign of a zero is not written. -/
theorem plainText_plain (number : Binary64) :
    number.plain.plainText = number.plainText := by
  cases number with
  | nan => rfl
  | infinite negative => rfl
  | finite negative rank bounded =>
      cases rank with
      | zero => simp only [plain, plainText, toSmallInt?_zero]
      | succ rank => rfl

end Binary64

end BlockForge
