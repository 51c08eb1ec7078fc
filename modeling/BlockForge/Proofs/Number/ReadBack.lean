import BlockForge.Block.FieldValue
import BlockForge.Proofs.Json.Layout
import BlockForge.Text.Name
import Mathlib.Data.List.TakeDrop

/-!
# Numbers that are read back

A number is written as the text of a field and, if it is finite, as a number of
a document.  Both texts say the same number, and nothing is lost but the sign of
a zero.

`readBinary64_signed` reads back the sign and the digits that a finite number is
written with, be it as an integer or in its shortest form.  `numbers_read_back`
sums up what is read from fields and from documents.
-/

namespace BlockForge

/-! ## Digits -/

theorem ne_of_isDigit {char other : Char} (isDigit : char.isDigit = true)
    (noDigit : other.isDigit = false) : char ≠ other := by
  rintro rfl
  rw [isDigit] at noDigit
  cases noDigit

theorem toLower_of_isDigit {char : Char} (isDigit : char.isDigit = true) :
    char.toLower = char := by
  have between := isDigit_iff.mp isDigit
  apply Text.toLower_of_isUpper_eq_false
  by_contra capital
  have least := (Text.isUpper_iff.mp (by simpa using capital)).1
  have codes : 'A'.toNat ≤ char.toNat := UInt32.le_iff_toNat_le.mp least
  have code : 'A'.toNat = 65 := rfl
  omega

theorem isBlank_of_isDigit {char : Char} (isDigit : char.isDigit = true) :
    Text.isBlank char = false := by
  have between := isDigit_iff.mp isDigit
  simp only [Text.isBlank, Bool.or_eq_false_iff, Bool.and_eq_false_iff,
    beq_eq_false_iff_ne, decide_eq_false_iff_not]
  omega

/-! ## Reading digits -/

namespace Spells

variable {whole fraction : List Char} {rank : Nat}

theorem isDigit (spells : Spells whole fraction rank) :
    ∀ char ∈ whole ++ fraction, char.isDigit = true := by
  rw [List.forall_mem_append]
  exact ⟨spells.isDigit_whole, spells.isDigit_fraction⟩

/-- A sign and digits with an optional point hold no blanks. -/
theorem isBlank_eq_false (spells : Spells whole fraction rank)
    (negative : Bool) :
    ∀ char ∈ signed negative (pointed whole fraction),
      Text.isBlank char = false := by
  have digits : ∀ char ∈ whole ++ fraction, Text.isBlank char = false :=
    fun char member => isBlank_of_isDigit (spells.isDigit char member)
  rw [List.forall_mem_append] at digits
  have unsigned : ∀ char ∈ pointed whole fraction,
      Text.isBlank char = false := by
    unfold pointed
    split_ifs
    · exact digits.1
    · rw [List.forall_mem_append, List.forall_mem_cons]
      exact ⟨digits.1, by decide, digits.2⟩
  cases negative with
  | false => exact unsigned
  | true => exact List.forall_mem_cons.mpr ⟨by decide, unsigned⟩

/-- Digits with an optional point are read as the decimal number that they
write. -/
theorem readDecimal_pointed (spells : Spells whole fraction rank) :
    readDecimal (pointed whole fraction) =
      some ⟨digitsValue (whole ++ fraction), -fraction.length⟩ := by
  have notEmpty : whole ≠ [] := by
    rcases spells.exists_digit with ⟨head, digits, rfl, _⟩
    exact List.cons_ne_nil head digits
  have split : ∀ (rest : List Char) {digits : List Char},
      (∀ char ∈ digits, char.isDigit = true) →
        (∀ char ∈ rest.head?, char.isDigit = false) →
          (digits ++ rest).span Char.isDigit = (digits, rest) := by
    intro rest digits isDigit stops
    rw [List.span_eq_takeWhile_dropWhile]
    exact Json.splitDigits_append isDigit stops
  cases fraction with
  | nil =>
      have front := split [] spells.isDigit_whole (by simp)
      rw [List.append_nil] at front
      simp only [readDecimal, pointed, List.isEmpty_nil, if_true, front, notEmpty,
        false_and, if_false, List.append_nil]
      rfl
  | cons digit digits =>
      have front := split ('.' :: digit :: digits) spells.isDigit_whole
        (by simp)
      have behind := split [] spells.isDigit_fraction (by simp)
      rw [List.append_nil] at behind
      simp only [readDecimal, pointed, List.isEmpty_cons, Bool.false_eq_true,
        if_false, front, behind, notEmpty, false_and]
      rfl

/-- No digits spell a word. -/
theorem map_toLower_ne (spells : Spells whole fraction rank) (word : List Char)
    (letter : ∀ char ∈ word.head?, char.isDigit = false) :
    (pointed whole fraction).map Char.toLower ≠ word := by
  rcases spells.exists_digit with ⟨head, digits, rfl, isDigit⟩
  rintro rfl
  have first : head.toLower.isDigit = false := by
    apply letter
    cases fraction <;> rfl
  rw [toLower_of_isDigit isDigit, isDigit] at first
  cases first

theorem splitSign_signed (spells : Spells whole fraction rank)
    (negative : Bool) :
    splitSign (signed negative (pointed whole fraction)) =
      (negative, pointed whole fraction) := by
  cases negative with
  | true => rfl
  | false =>
      rcases spells.exists_digit with ⟨head, digits, rfl, isDigit⟩
      have shape : ∃ rest, pointed (head :: digits) fraction = head :: rest := by
        cases fraction <;> exact ⟨_, rfl⟩
      rcases shape with ⟨rest, shape⟩
      have minus := ne_of_isDigit isDigit (show '-'.isDigit = false from rfl)
      have plus := ne_of_isDigit isDigit (show '+'.isDigit = false from rfl)
      rw [shape]
      change splitSign (head :: rest) = _
      unfold splitSign
      split
      · rename_i same
        exact absurd (List.cons.inj same).1 minus
      · rename_i same
        exact absurd (List.cons.inj same).1 plus
      · rfl

/-- A sign and digits are read as the number that they write. -/
theorem readBinary64_signed (spells : Spells whole fraction rank)
    (negative : Bool) :
    readBinary64 (signed negative (pointed whole fraction)) =
      some (.ofRank negative rank) := by
  have inf := spells.map_toLower_ne "inf".toList (by simp)
  have infinity := spells.map_toLower_ne "infinity".toList (by simp)
  have nan := spells.map_toLower_ne "nan".toList (by simp)
  simp only [readBinary64, spells.splitSign_signed, inf, infinity, nan, or_self,
    if_false, spells.readDecimal_pointed, Option.map_some, Decimal.nearest,
    spells.rank_eq]

end Spells

/-! ## Reading numbers -/

/-- A JSON number without exponent: an optional minus sign, digits without a
leading zero, and, if there is a fraction, a point and its digits. -/
def Json.IsPlainNumber (text : String) : Prop :=
  ∃ negative whole fraction,
    text.toList = signed negative (pointed whole fraction) ∧
      (∀ char ∈ whole ++ fraction, char.isDigit = true) ∧
      (whole = ['0'] ∨ ∃ head rest, whole = head :: rest ∧ head ≠ '0')

namespace Binary64

theorem plain_ne_nan {number : Binary64} (isNumber : number ≠ .nan) :
    number.plain ≠ .nan := by
  cases number with
  | nan => exact absurd rfl isNumber
  | infinite negative => exact isNumber
  | finite negative rank bounded =>
      unfold plain
      split
      · simp
      · exact isNumber

variable {number : Binary64} (isFinite : number.isFinite = true)

include isFinite

theorem isPlainNumber_plainText : Json.IsPlainNumber number.plainText := by
  cases number with
  | nan | infinite => cases isFinite
  | finite negative rank bounded =>
      rcases exists_spells_plainText negative rank bounded with
        ⟨sign, whole, fraction, text, spells, _⟩
      exact ⟨sign, whole, fraction, text, spells.isDigit, spells.lead⟩

/-- The text of a finite number is read as the number. -/
theorem readNumber_plainText :
    FieldValue.readNumber number.plainText = some number.plain := by
  cases number with
  | nan | infinite => cases isFinite
  | finite negative rank bounded =>
      rcases exists_spells_plainText negative rank bounded with
        ⟨sign, whole, fraction, text, spells, plain⟩
      rw [FieldValue.readNumber, text,
        Text.trim_of_forall (spells.isBlank_eq_false sign),
        spells.readBinary64_signed, plain]

theorem display_of_isFinite :
    (FieldValue.number number).display = number.plainText := by
  cases number with
  | nan | infinite => cases isFinite
  | finite negative rank bounded => rfl

end Binary64

namespace FieldValue

theorem readNumber_display {number : Binary64} (isNumber : number ≠ .nan) :
    readNumber (FieldValue.number number).display = some number.plain := by
  cases number with
  | nan => exact absurd rfl isNumber
  | infinite negative => cases negative <;> decide +kernel
  | finite negative rank bounded =>
      rw [Binary64.display_of_isFinite rfl, Binary64.readNumber_plainText rfl]

/-- The text of every number is read as the number, apart from the sign of a
zero.  The text of a finite number is at the same time what a document writes
for it, and that is a JSON number without exponent which is read as the number
too. -/
theorem numbers_read_back {number : Binary64} (isNumber : number ≠ .nan) :
    (FieldValue.text (FieldValue.number number).display).asNumber =
        some number.plain ∧
      (number.isFinite = true →
        Json.numberText number = (FieldValue.number number).display ∧
          Json.IsPlainNumber (Json.numberText number) ∧
          Json.read? (Json.numberText number) = some (.number number.plain)) := by
  constructor
  · rw [asNumber, readNumber_display isNumber, Option.filter_some,
      decide_eq_true (Binary64.plain_ne_nan isNumber), if_pos rfl]
  · intro isFinite
    have written : Json.numberText number = number.plainText := by
      rw [Json.numberText, if_pos isFinite]
    have said := Json.read?_of_lays (Json.lays_numberText number)
    rw [Json.numberValue, if_pos isFinite] at said
    refine ⟨?_, ?_, said⟩
    · rw [written, Binary64.display_of_isFinite isFinite]
    · rw [written]
      exact Binary64.isPlainNumber_plainText isFinite

/-- Both sides of the bound of the integral notation, the least number above
zero, an infinity and the negative zero. -/
theorem bounds_read_back :
    ((FieldValue.text (FieldValue.number
        (.finite false 0x430c6bf52633fff8 (by decide))).display).asNumber =
          some (.finite false 0x430c6bf52633fff8 (by decide)) ∧
      Json.numberText (.finite false 0x430c6bf52633fff8 (by decide)) =
        "999999999999999") ∧
    (FieldValue.text (FieldValue.number
        (.finite false 0x430c6bf526340000 (by decide))).display).asNumber =
      some (.finite false 0x430c6bf526340000 (by decide)) ∧
    Json.read? (Json.numberText (.finite false 1 (by decide))) =
      some (.number (.finite false 1 (by decide))) ∧
    (FieldValue.text (FieldValue.number (.infinite true)).display).asNumber =
      some (.infinite true) ∧
    (FieldValue.text (FieldValue.number
        (.finite true 0 (by decide))).display).asNumber =
      some (.finite false 0 (by decide)) :=
  ⟨⟨(numbers_read_back (by simp)).1, by decide +kernel⟩,
    (numbers_read_back (by simp)).1,
    ((numbers_read_back (by simp)).2 rfl).2.2,
    (numbers_read_back (by simp)).1,
    (numbers_read_back (by simp)).1⟩

end FieldValue

end BlockForge
