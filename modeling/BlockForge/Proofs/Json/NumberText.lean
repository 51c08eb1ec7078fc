import BlockForge.Json.NumberLiteral
import BlockForge.Proofs.Number.Plain

/-!
# The grammar of number literals

`NumberText literal chars` says how a number literal is spelled: a sign, digits
without a leading zero, digits behind a point, and a power of ten.  The reader
accepts what the grammar allows, provided that no further character of a number
follows, and nothing else.
-/

namespace BlockForge.Json

/-! ## Digits -/

theorem splitDigits_append {digits rest : List Char}
    (isDigit : ∀ char ∈ digits, char.isDigit = true)
    (stops : ∀ char ∈ rest.head?, char.isDigit = false) :
    splitDigits (digits ++ rest) = (digits, rest) := by
  induction digits with
  | nil =>
      cases rest with
      | nil => rfl
      | cons char rest => simp [splitDigits, stops char rfl]
  | cons digit digits digits_ih =>
      have others := digits_ih fun char member => isDigit char (by simp [member])
      have head := isDigit digit (by simp)
      simp only [splitDigits, Prod.mk.injEq] at others ⊢
      simp [head, others.1, others.2]

/-- What is split off consists of digits. -/
theorem append_of_splitDigits {chars digits rest : List Char}
    (split : splitDigits chars = (digits, rest)) :
    chars = digits ++ rest ∧ ∀ char ∈ digits, char.isDigit = true := by
  cases split
  exact ⟨List.takeWhile_append_dropWhile.symm,
    List.all_eq_true.mp List.all_takeWhile⟩

theorem readWhole_append {whole rest : List Char} (isWhole : IsWhole whole)
    (stops : ∀ char ∈ rest.head?, char.isDigit = false) :
    readWhole (whole ++ rest) = some (whole, rest) := by
  have split := splitDigits_append isWhole.isDigit stops
  rcases isWhole.lead with rfl | ⟨head, digits, rfl, differs⟩
  · rfl
  · simp only [List.cons_append] at split ⊢
    unfold readWhole
    split
    · rename_i same
      exact absurd (List.cons.inj same).1 differs
    · simp [split]

theorem isWhole_of_readWhole {chars whole rest : List Char}
    (reads : readWhole chars = some (whole, rest)) :
    chars = whole ++ rest ∧ IsWhole whole := by
  unfold readWhole at reads
  split at reads
  · cases reads
    exact ⟨rfl, List.forall_mem_singleton.mpr rfl, .inl rfl⟩
  · rename_i notZero
    cases split : splitDigits chars with
    | mk digits after =>
        rw [split] at reads
        dsimp only at reads
        split at reads
        · cases reads
        · rename_i some
          cases reads
          rcases append_of_splitDigits split with ⟨rfl, isDigit⟩
          refine ⟨rfl, isDigit, .inr ?_⟩
          cases whole with
          | nil => exact absurd rfl some
          | cons head digits =>
              exact ⟨head, digits, rfl, fun zero =>
                notZero (digits ++ rest) (by rw [zero]; rfl)⟩

theorem readFraction_append {fraction rest : List Char}
    (isDigit : ∀ char ∈ fraction, char.isDigit = true)
    (stops : ∀ char ∈ rest.head?, char.isDigit = false ∧ char ≠ '.') :
    readFraction (pointed [] fraction ++ rest) = some (fraction, rest) := by
  cases fraction with
  | nil =>
      cases rest with
      | nil => rfl
      | cons char rest =>
          have none := (stops char rfl).2
          simp only [pointed, List.isEmpty_nil, if_pos, List.nil_append]
          unfold readFraction
          split
          · rename_i same
            exact absurd (List.cons.inj same).1 none
          · rfl
  | cons digit digits =>
      have split := splitDigits_append isDigit fun char member =>
        (stops char member).1
      simp only [List.cons_append] at split
      simp [pointed, readFraction, split]

theorem pointed_of_readFraction {chars fraction rest : List Char}
    (reads : readFraction chars = some (fraction, rest)) :
    chars = pointed [] fraction ++ rest ∧
      ∀ char ∈ fraction, char.isDigit = true := by
  unfold readFraction at reads
  split at reads
  · rename_i behind
    cases split : splitDigits behind with
    | mk digits after =>
        rw [split] at reads
        dsimp only at reads
        split at reads
        · cases reads
        · rename_i some
          cases reads
          rcases append_of_splitDigits split with ⟨rfl, isDigit⟩
          exact ⟨by simp [pointed, some], isDigit⟩
  · cases reads
    exact ⟨rfl, by simp⟩

theorem pointed_eq_append (whole fraction : List Char) :
    pointed whole fraction = whole ++ pointed [] fraction := by
  cases fraction <;> simp [pointed]

/-! ## Powers -/

/-- An optional sign, and whether it makes a number negative. -/
inductive IsSign : List Char → Bool → Prop
  | absent : IsSign [] false
  | plus : IsSign ['+'] false
  | minus : IsSign ['-'] true

theorem splitSign_append {sign digits rest : List Char} {negative : Bool}
    (signs : IsSign sign negative) (some : digits ≠ [])
    (isDigit : ∀ char ∈ digits, char.isDigit = true) :
    splitSign (sign ++ (digits ++ rest)) = (negative, digits ++ rest) := by
  cases signs with
  | plus => rfl
  | minus => rfl
  | absent =>
      rcases List.exists_cons_of_ne_nil some with ⟨digit, digits, rfl⟩
      have first := isDigit digit (by simp)
      rw [List.nil_append, List.cons_append]
      unfold splitSign
      split
      · rename_i same
        rw [(List.cons.inj same).1] at first
        cases first
      · rename_i same
        rw [(List.cons.inj same).1] at first
        cases first
      · rfl

theorem isSign_of_splitSign {chars unsigned : List Char} {negative : Bool}
    (split : splitSign chars = (negative, unsigned)) :
    ∃ sign, chars = sign ++ unsigned ∧ IsSign sign negative := by
  unfold splitSign at split
  split at split
  · cases split
    exact ⟨['-'], rfl, .minus⟩
  · cases split
    exact ⟨['+'], rfl, .plus⟩
  · cases split
    exact ⟨[], rfl, .absent⟩

/-- The power of ten that a text multiplies with. -/
inductive IsPower : List Char → Int → Prop
  | absent : IsPower [] 0
  | present {mark : Char} {sign digits : List Char} {negative : Bool}
      (marks : mark = 'e' ∨ mark = 'E') (signs : IsSign sign negative)
      (some : digits ≠ [])
      (isDigit : ∀ char ∈ digits, char.isDigit = true) :
      IsPower (mark :: (sign ++ digits))
        (if negative then -Int.ofNat (digitsValue digits)
          else Int.ofNat (digitsValue digits))

theorem readPower_append {power rest : List Char} {exponent : Int}
    (powers : IsPower power exponent)
    (stops : ∀ char ∈ rest.head?, char.isDigit = false ∧ char ≠ 'e' ∧ char ≠ 'E') :
    readPower (power ++ rest) = some (exponent, rest) := by
  cases powers with
  | absent =>
      cases rest with
      | nil => rfl
      | cons char rest =>
          have none := (stops char rfl).2
          simp [readPower, none]
  | present marks signs some isDigit =>
      have split := splitDigits_append isDigit fun char member =>
        (stops char member).1
      rw [List.cons_append, List.append_assoc]
      simp only [readPower, if_pos marks, splitSign_append signs some isDigit,
        split]
      rw [if_neg (by simpa using some)]

theorem isPower_of_readPower {chars rest : List Char} {exponent : Int}
    (reads : readPower chars = some (exponent, rest)) :
    ∃ power, chars = power ++ rest ∧ IsPower power exponent := by
  cases chars with
  | nil =>
      cases reads
      exact ⟨[], rfl, .absent⟩
  | cons mark behind =>
      unfold readPower at reads
      dsimp only at reads
      split at reads
      · rename_i marks
        cases signed : splitSign behind with
        | mk negative unsigned =>
            cases split : splitDigits unsigned with
            | mk digits after =>
                rw [signed] at reads
                dsimp only at reads
                rw [split] at reads
                dsimp only at reads
                split at reads
                · cases reads
                · rename_i some
                  cases reads
                  rcases isSign_of_splitSign signed with ⟨sign, rfl, signs⟩
                  rcases append_of_splitDigits split with ⟨rfl, isDigit⟩
                  refine ⟨mark :: (sign ++ digits), by simp, ?_⟩
                  exact .present marks signs (by simpa using some) isDigit
      · cases reads
        exact ⟨[], rfl, .absent⟩

/-! ## Literals -/

/-- How a number literal is spelled. -/
inductive NumberText : NumberLiteral → List Char → Prop
  | mk {negative : Bool} {whole fraction power : List Char} {exponent : Int}
      (isWhole : IsWhole whole)
      (isDigit : ∀ char ∈ fraction, char.isDigit = true)
      (powers : IsPower power exponent) :
      NumberText ⟨negative, whole, fraction, exponent⟩
        (signed negative (pointed whole fraction ++ power))

/-- A literal starts with a minus sign or a digit. -/
theorem NumberText.exists_cons {literal : NumberLiteral} {chars : List Char}
    (spells : NumberText literal chars) :
    ∃ char rest, chars = char :: rest ∧ (char = '-' ∨ char.isDigit = true) := by
  rcases spells with ⟨isWhole, isDigit, powers⟩
  rename_i negative whole fraction power exponent
  rcases isWhole.exists_digit with ⟨head, digits, rfl, headDigit⟩
  cases negative with
  | true => exact ⟨'-', _, rfl, .inl rfl⟩
  | false =>
      refine ⟨head, pointed digits fraction ++ power, ?_, .inr headDigit⟩
      rw [pointed_eq_append, pointed_eq_append digits]
      rfl

/-- The characters of a literal. -/
theorem NumberText.isDigit_or_mem {literal : NumberLiteral} {chars : List Char}
    (spells : NumberText literal chars) :
    ∀ char ∈ chars, char.isDigit = true ∨ char ∈ ['-', '+', '.', 'e', 'E'] := by
  rcases spells with ⟨isWhole, isDigit, powers⟩
  rename_i negative whole fraction power exponent
  have inWhole : ∀ char ∈ whole, char.isDigit = true ∨
      char ∈ ['-', '+', '.', 'e', 'E'] :=
    fun char member => .inl (isWhole.isDigit char member)
  have inFraction : ∀ char ∈ pointed [] fraction, char.isDigit = true ∨
      char ∈ ['-', '+', '.', 'e', 'E'] := by
    intro char member
    cases fraction with
    | nil => cases member
    | cons digit digits =>
        rcases List.mem_cons.mp member with rfl | inDigits
        · exact .inr (by decide)
        · exact .inl (isDigit char inDigits)
  have inPower : ∀ char ∈ power, char.isDigit = true ∨
      char ∈ ['-', '+', '.', 'e', 'E'] := by
    cases powers with
    | absent => simp
    | present marks signs some isDigit =>
        rw [List.forall_mem_cons, List.forall_mem_append]
        refine ⟨?_, ?_, fun char member => .inl (isDigit char member)⟩
        · rcases marks with rfl | rfl <;> decide
        · cases signs with
          | absent => simp
          | plus | minus => exact List.forall_mem_singleton.mpr (.inr (by decide))
  have unsigned : ∀ char ∈ pointed whole fraction ++ power,
      char.isDigit = true ∨ char ∈ ['-', '+', '.', 'e', 'E'] := by
    rw [pointed_eq_append, List.forall_mem_append, List.forall_mem_append]
    exact ⟨⟨inWhole, inFraction⟩, inPower⟩
  cases negative with
  | true => exact List.forall_mem_cons.mpr ⟨by decide, unsigned⟩
  | false => exact unsigned

/-- What follows a number is no character of a number. -/
def Stops (rest : List Char) : Prop :=
  ∀ char ∈ rest.head?, char.isDigit = false ∧ char ≠ '.' ∧ char ≠ 'e' ∧
    char ≠ 'E'

theorem NumberText.readNumberLiteral_append {literal : NumberLiteral}
    {chars : List Char} (spells : NumberText literal chars) {rest : List Char}
    (stops : Stops rest) :
    readNumberLiteral (chars ++ rest) = some (literal, rest) := by
  rcases spells with ⟨isWhole, isDigit, powers⟩
  rename_i negative whole fraction power exponent
  have third := readPower_append powers fun char member =>
    ⟨(stops char member).1, (stops char member).2.2⟩
  have stopsPower : ∀ char ∈ (power ++ rest).head?,
      char.isDigit = false ∧ char ≠ '.' := by
    intro char member
    cases powers with
    | absent => exact ⟨(stops char member).1, (stops char member).2.1⟩
    | present marks signs some isDigit =>
        cases member
        rcases marks with rfl | rfl <;> decide
  have second := readFraction_append isDigit stopsPower
  have stopsFraction : ∀ char ∈ (pointed [] fraction ++ (power ++ rest)).head?,
      char.isDigit = false := by
    cases fraction with
    | nil => exact fun char member => (stopsPower char member).1
    | cons digit digits =>
        intro char member
        cases member
        decide
  have first := readWhole_append isWhole stopsFraction
  have parts : pointed whole fraction ++ power ++ rest =
      whole ++ (pointed [] fraction ++ (power ++ rest)) := by
    rw [pointed_eq_append, List.append_assoc, List.append_assoc]
  have unsigned : ∀ sign,
      ((readWhole (pointed whole fraction ++ power ++ rest)).bind fun first =>
        (readFraction first.2).bind fun second =>
          (readPower second.2).bind fun third =>
            some ((⟨sign, first.1, second.1, third.1⟩ : NumberLiteral),
              third.2)) =
        some (⟨sign, whole, fraction, exponent⟩, rest) := by
    intro sign
    simp only [parts, first, second, third, Option.bind_some]
  cases negative with
  | true => exact unsigned true
  | false =>
      rcases isWhole.exists_digit with ⟨head, digits, rfl, headDigit⟩
      have minus : head ≠ '-' := by
        rintro rfl
        cases headDigit
      have shape : pointed (head :: digits) fraction ++ power ++ rest =
          head :: (pointed digits fraction ++ power ++ rest) := by
        rw [pointed_eq_append, pointed_eq_append digits]
        rfl
      have others := unsigned false
      rw [shape] at others
      simp only [signed, Bool.false_eq_true, if_false, shape]
      unfold readNumberLiteral
      split
      · rename_i same
        split at same
        · rename_i equal
          exact absurd (List.cons.inj equal).1 minus
        · cases same
          exact others

theorem exists_numberText {chars rest : List Char} {literal : NumberLiteral}
    (reads : readNumberLiteral chars = some (literal, rest)) :
    ∃ text, chars = text ++ rest ∧ NumberText literal text := by
  have unsigned : ∀ {sign : Bool} {behind : List Char},
      ((readWhole behind).bind fun first =>
        (readFraction first.2).bind fun second =>
          (readPower second.2).bind fun third =>
            some ((⟨sign, first.1, second.1, third.1⟩ : NumberLiteral),
              third.2)) = some (literal, rest) →
        ∃ text, signed sign behind = text ++ rest ∧ NumberText literal text := by
    intro sign behind reads
    rcases Option.bind_eq_some_iff.mp reads with ⟨⟨whole, _⟩, first, reads⟩
    rcases Option.bind_eq_some_iff.mp reads with ⟨⟨fraction, _⟩, second, reads⟩
    rcases Option.bind_eq_some_iff.mp reads with ⟨⟨exponent, _⟩, third, same⟩
    cases same
    rcases isWhole_of_readWhole first with ⟨rfl, isWhole⟩
    rcases pointed_of_readFraction second with ⟨rfl, isDigit⟩
    rcases isPower_of_readPower third with ⟨power, rfl, powers⟩
    refine ⟨_, ?_, .mk isWhole isDigit powers⟩
    cases sign <;> simp [signed, pointed_eq_append whole]
  unfold readNumberLiteral at reads
  split at reads
  rename_i same
  split at same
  · cases same
    exact unsigned reads
  · cases same
    exact unsigned reads

end BlockForge.Json
