import BlockForge.Proofs.Json.NumberText
import BlockForge.Proofs.Json.StringLiteral

/-!
# Reading the tokens of a JSON text

String literals, numbers and words read back as what they were written for,
whatever follows them.  Only a number needs to know what follows: it ends where
no further character of a number stands.

`Reads takes chars value` says this of any text and of a reader that takes some
number literals, and that the reader needs no bound on the nesting above the
length of the text.  What a document has for a number is the literal in which
the number is written, so a reader that takes these literals reads all of it.
-/

namespace BlockForge.Json

/-- What may follow a value. -/
def Ends (rest : List Char) : Prop :=
  ∀ char ∈ rest.head?, isBlank char = true ∨ char ∈ [',', ']', '\x7d']

/-- A reader that takes some number literals reads a text as a value, whatever
follows it. -/
def Reads (takes : NumberLiteral → Bool) (chars : List Char) (value : Value) :
    Prop :=
  ∀ ⦃bound : Nat⦄ ⦃rest : List Char⦄, chars.length < bound → Ends rest →
    readValue takes bound (chars ++ rest) = .ok (value, rest)

variable {takes : NumberLiteral → Bool}

theorem ends_nil : Ends [] := by
  intro char member
  cases member

theorem ends_cons {char : Char} {rest : List Char}
    (ending : isBlank char = true ∨ char ∈ [',', ']', '\x7d']) :
    Ends (char :: rest) := by
  intro head member
  rw [List.head?_cons, Option.mem_def, Option.some.injEq] at member
  rwa [← member]

theorem Reads.ne_nil {chars : List Char} {value : Value}
    (reads : Reads takes chars value) : chars ≠ [] := by
  rintro rfl
  cases reads (Nat.lt_succ_self 0) ends_nil

/-- A bound that suffices leaves a bound for the readings inside a first one. -/
theorem exists_succ_of_lt {length bound : Nat} (enough : length < bound) :
    ∃ inner, bound = inner + 1 ∧ length ≤ inner :=
  ⟨bound - 1, by omega, by omega⟩

/-! ## String literals -/

/-- A string literal is read as its text. -/
theorem reads_quoteChars (chars : List Char) :
    Reads takes (quoteChars chars) (.string (String.ofList chars)) := by
  intro bound rest enough ends
  rcases exists_succ_of_lt enough with ⟨inner, rfl, _⟩
  exact readValue_quoteChars takes inner chars rest

/-! ## Numbers -/

/-- What may follow a number. -/
theorem Ends.stops {rest : List Char} (ends : Ends rest) : Stops rest := by
  intro char member
  rcases ends char member with blank | closing
  · simp only [isBlank, Bool.or_eq_true, beq_iff_eq] at blank
    rcases blank with ((rfl | rfl) | rfl) | rfl <;> decide
  · simp only [List.mem_cons, List.not_mem_nil, or_false] at closing
    rcases closing with rfl | rfl | rfl <;> decide

theorem readValue_number {bound : Nat} {char : Char} {rest : List Char}
    (starts : char = '-' ∨ char.isDigit = true) :
    readValue takes (bound + 1) (char :: rest) =
      readNumber takes (char :: rest) := by
  have solid : isBlank char = false := by
    rcases starts with rfl | isDigit
    · decide
    · by_contra blank
      have blanks : isBlank char = true := by simpa using blank
      simp only [isBlank, Bool.or_eq_true, beq_iff_eq] at blanks
      rcases blanks with ((rfl | rfl) | rfl) | rfl <;> cases isDigit
  rw [readValue, dropBlanks, List.dropWhile_cons_of_neg (by simp [solid])]
  split
  all_goals rename_i same; cases same
  all_goals first | rfl | exact absurd starts (by decide)

/-- A literal that spells a rank has the number of this rank as its value. -/
theorem value_of_spells {whole fraction : List Char} {rank : Nat}
    (spells : Spells whole fraction rank) (negative : Bool) :
    NumberLiteral.value ⟨negative, whole, fraction, 0⟩ =
      Binary64.ofRank negative rank := by
  simp only [NumberLiteral.value, Decimal.nearest, Int.zero_sub, spells.rank_eq]

/-- A number literal that is taken is read as its value. -/
theorem reads_number {literal : NumberLiteral} {chars : List Char}
    (spells : NumberText literal chars) (taken : takes literal = true) :
    Reads takes chars (.number literal.value) := by
  intro bound rest enough ends
  rcases exists_succ_of_lt enough with ⟨inner, rfl, _⟩
  have literal := spells.readNumberLiteral_append ends.stops
  rcases spells.exists_cons with ⟨char, after, rfl, starts⟩
  rw [List.cons_append] at literal ⊢
  rw [readValue_number starts, readNumber, literal]
  simp only [taken, if_true]

theorem numberText_of_spells {whole fraction : List Char} {rank : Nat}
    (spells : Spells whole fraction rank) (negative : Bool) :
    NumberText ⟨negative, whole, fraction, 0⟩
      (signed negative (pointed whole fraction)) := by
  have text : NumberText ⟨negative, whole, fraction, 0⟩
      (signed negative (pointed whole fraction ++ [])) :=
    .mk spells.isWhole spells.isDigit_fraction .absent
  rwa [List.append_nil] at text

/-- The text of a finite number is read as the number, apart from the sign of a
zero, if its literal is taken. -/
theorem reads_signed {negative : Bool} {whole fraction : List Char} {rank : Nat}
    (spells : Spells whole fraction rank)
    (taken : takes ⟨negative, whole, fraction, 0⟩ = true) :
    Reads takes (signed negative (pointed whole fraction))
      (.number (Binary64.ofRank negative rank)) := by
  rw [← value_of_spells spells]
  exact reads_number (numberText_of_spells spells negative) taken

theorem NumberText.lineFeed_notMem {literal : NumberLiteral} {chars : List Char}
    (spells : NumberText literal chars) : '\n' ∉ chars := by
  intro member
  rcases spells.isDigit_or_mem _ member with isDigit | other
  · cases isDigit
  · exact absurd other (by decide)

/-! ## Words -/

theorem reads_null : Reads takes "null".toList .null := by
  intro bound rest enough ends
  rcases exists_succ_of_lt enough with ⟨inner, rfl, _⟩
  rfl

theorem reads_boolText (value : Bool) :
    Reads takes (boolText value).toList (.bool value) := by
  intro bound rest enough ends
  rcases exists_succ_of_lt enough with ⟨inner, rfl, _⟩
  cases value <;> rfl

/-! ## Written numbers -/

/-- The literal that a number is written as. -/
def writtenLiteral? (number : Binary64) : Option NumberLiteral :=
  (readNumberLiteral number.plainText.toList).map Prod.fst

/-- A literal that its own value is written as. -/
def NumberLiteral.isPlain (literal : NumberLiteral) : Bool :=
  writtenLiteral? literal.value = some literal

/-- Whether a reader takes the literal that a number is written as. -/
def takesNumber (takes : NumberLiteral → Bool) (number : Binary64) : Bool :=
  (writtenLiteral? number).any takes

theorem takesNumber_value {literal : NumberLiteral}
    (isPlain : literal.isPlain = true) :
    takesNumber takes literal.value = takes literal := by
  have written : writtenLiteral? literal.value = some literal :=
    of_decide_eq_true isPlain
  rw [takesNumber, written, Option.any_some]

/-- A number of a rank is written with a sign and digits. -/
structure Written (number : Binary64) (rank : Nat) (negative : Bool)
    (whole fraction : List Char) : Prop where
  text : number.plainText.toList = signed negative (pointed whole fraction)
  spells : Spells whole fraction rank
  plain : Binary64.ofRank negative rank = number.plain
  literal : writtenLiteral? number = some ⟨negative, whole, fraction, 0⟩

theorem exists_written (negative : Bool) (rank : Nat)
    (bounded : rank < rankCount) :
    ∃ sign whole fraction,
      Written (.finite negative rank bounded) rank sign whole fraction := by
  rcases Binary64.exists_spells_plainText negative rank bounded with
    ⟨sign, whole, fraction, text, spells, plain⟩
  refine ⟨sign, whole, fraction, text, spells, plain, ?_⟩
  have read := (numberText_of_spells spells sign).readNumberLiteral_append
    ends_nil.stops
  rw [List.append_nil, ← text] at read
  rw [writtenLiteral?, read]
  rfl

/-- A number is written as a plain literal. -/
theorem Written.isPlain {number : Binary64} {rank : Nat} {negative : Bool}
    {whole fraction : List Char}
    (written : Written number rank negative whole fraction) :
    NumberLiteral.isPlain ⟨negative, whole, fraction, 0⟩ = true := by
  apply decide_eq_true
  rw [value_of_spells written.spells, written.plain, writtenLiteral?,
    Binary64.plainText_plain]
  exact written.literal

/-- What a document says for a number. -/
def numberValue (number : Binary64) : Value :=
  if number.isFinite then .number number.plain else .null

/-- The text of a number stands on one line and is read as what a document says
for it. -/
theorem reads_numberText (number : Binary64) :
    Reads NumberLiteral.isPlain (numberText number).toList
        (numberValue number) ∧
      '\n' ∉ (numberText number).toList := by
  cases number with
  | nan => exact ⟨reads_null, by decide⟩
  | infinite negative => exact ⟨reads_null, by simp [numberText]⟩
  | finite negative rank bounded =>
      rcases exists_written negative rank bounded with
        ⟨sign, whole, fraction, written⟩
      simp only [numberText, numberValue, Binary64.isFinite_finite, if_pos,
        written.text, ← written.plain]
      exact ⟨reads_signed written.spells written.isPlain,
        (numberText_of_spells written.spells _).lineFeed_notMem⟩

/-- A natural number is read as the nearest number, if its literal is taken. -/
theorem reads_toString {number : Nat}
    (taken : takes ⟨false, Nat.toDigits 10 number, [], 0⟩ = true) :
    Reads takes (toString number).toList
        (.number (Decimal.nearest false ⟨number, 0⟩)) ∧
      '\n' ∉ (toString number).toList := by
  have spells := spells_toDigits number
  have text : (toString number).toList =
      signed false (pointed (Nat.toDigits 10 number) []) := by
    rw [Nat.toString_eq_ofList_toDigits, String.toList_ofList]
    rfl
  rw [text]
  exact ⟨reads_signed spells taken, (numberText_of_spells spells _).lineFeed_notMem⟩

end BlockForge.Json
