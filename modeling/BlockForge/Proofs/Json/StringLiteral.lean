import BlockForge.Json.Reader
import BlockForge.Json.Text
import Mathlib.Algebra.Ring.Parity

/-!
# String literals

`Denotes body text` is the grammar of string literals: what stands between the
quotes, piece by piece, and the text that it stands for.  The reader of string
literals accepts exactly this grammar and stops at the first quote that no
backslash escapes (`readChars_eq_some_iff`).

Nothing of a literal is a control character, and every quote within it stands
behind an odd number of backslashes.  `quotes` says so of the literals that are
written, together with the text that they are read as.
-/

namespace BlockForge.Json

/-! ## The grammar -/

/-- What may stand between the quotes of a string literal, and the text that it
stands for. -/
inductive Denotes : List Char → List Char → Prop
  | nil : Denotes [] []
  /-- A character that stands for itself. -/
  | plain {char : Char} {body text : List Char} (notQuote : char ≠ '"')
      (notBackslash : char ≠ '\\') (printed : ¬ char.toNat < 0x20)
      (rest : Denotes body text) : Denotes ([char] ++ body) (char :: text)
  /-- A short escape. -/
  | short {mark char : Char} {body text : List Char}
      (marks : shortEscape? mark = some char) (rest : Denotes body text) :
      Denotes (['\\', mark] ++ body) (char :: text)
  /-- The code of a character. -/
  | code {a b c d char : Char} {code : Nat} {body text : List Char}
      (digits : fourDigits? a b c d = some code)
      (codes : Text.charOfCode? code = some char) (rest : Denotes body text) :
      Denotes (['\\', 'u', a, b, c, d] ++ body) (char :: text)
  /-- A character beyond the first 65536, in two codes. -/
  | pair {a b c d e f g h char : Char} {high low : Nat} {body text : List Char}
      (highDigits : fourDigits? a b c d = some high)
      (lowDigits : fourDigits? e f g h = some low)
      (pairs : pairedChar? high low = some char) (rest : Denotes body text) :
      Denotes (['\\', 'u', a, b, c, d] ++ ['\\', 'u', e, f, g, h] ++ body)
        (char :: text)

/-- The first code of two is the code of no character. -/
theorem charOfCode?_of_pairedChar? {high low : Nat} {char : Char}
    (pairs : pairedChar? high low = some char) :
    Text.charOfCode? high = none := by
  unfold pairedChar? at pairs
  split at pairs
  · rename_i surrogates
    rw [Text.charOfCode?, dif_neg]
    rintro (below | above)
    · exact absurd surrogates.1 (by omega)
    · exact absurd surrogates.2.1 (by omega)
  · cases pairs

/-- The reader reads what the grammar allows, up to the closing quote. -/
theorem Denotes.readChars_append {body text : List Char}
    (denotes : Denotes body text) (rest : List Char) :
    readChars (body ++ '"' :: rest) = some (text, rest) := by
  induction denotes with
  | nil => simp [readChars]
  | plain notQuote notBackslash printed others others_ih =>
      rw [List.append_assoc, List.singleton_append, readChars.eq_def]
      split <;> simp_all
  | short marks others others_ih =>
      rename_i mark char body text
      have notCode : mark ≠ 'u' := by
        rintro rfl
        cases marks
      simp only [List.cons_append, List.nil_append]
      rw [readChars]
      · simp only [marks, others_ih]
        rfl
      · rintro a b c d after same
        exact absurd same notCode
  | code digits codes others others_ih =>
      simp only [List.cons_append, List.nil_append, readChars, digits, codes,
        others_ih]
      rfl
  | pair highDigits lowDigits pairs others others_ih =>
      simp only [List.cons_append, List.nil_append, readChars, highDigits,
        charOfCode?_of_pairedChar? pairs, lowDigits, Option.bind_some, pairs,
        others_ih]
      rfl

theorem exists_tail_of_map {char : Char} {text rest : List Char}
    {others : Option (List Char × List Char)}
    (reads : (others.map fun (chars, after) => (char :: chars, after)) =
      some (text, rest)) :
    ∃ tail, others = some (tail, rest) ∧ text = char :: tail := by
  rcases Option.map_eq_some_iff.mp reads with ⟨⟨tail, after⟩, found, same⟩
  cases same
  exact ⟨tail, found, rfl⟩

theorem exists_denotes {chars text rest : List Char}
    (reads : readChars chars = some (text, rest)) :
    ∃ body, chars = body ++ '"' :: rest ∧ Denotes body text := by
  fun_induction readChars chars generalizing text rest with
  | case1 => cases reads
  | case2 after =>
      cases reads
      exact ⟨[], rfl, .nil⟩
  | case4 a b c d rest code digits char codes rest_ih =>
      rcases exists_tail_of_map reads with ⟨tail, readsRest, rfl⟩
      rcases rest_ih readsRest with ⟨body, rfl, denotes⟩
      exact ⟨_, rfl, .code digits codes denotes⟩
  | case5 a b c d high highDigits notAlone e f g h rest char lowCode rest_ih =>
      rcases exists_tail_of_map reads with ⟨tail, readsRest, rfl⟩
      rcases rest_ih readsRest with ⟨body, rfl, denotes⟩
      rcases Option.bind_eq_some_iff.mp lowCode with ⟨low, lowDigits, pairs⟩
      exact ⟨_, rfl, .pair highDigits lowDigits pairs denotes⟩
  | case8 mark rest notCode char marks rest_ih =>
      rcases exists_tail_of_map reads with ⟨tail, readsRest, rfl⟩
      rcases rest_ih readsRest with ⟨body, rfl, denotes⟩
      exact ⟨_, rfl, .short marks denotes⟩
  | case11 char rest notQuote notCode notShort accepted rest_ih =>
      rcases exists_tail_of_map reads with ⟨tail, readsRest, rfl⟩
      rcases rest_ih readsRest with ⟨body, rfl, denotes⟩
      rw [not_or] at accepted
      exact ⟨_, rfl, .plain notQuote accepted.2 accepted.1 denotes⟩
  | case3 | case6 | case7 | case9 | case10 => cases reads

/-- The reader of string literals accepts the grammar, with the closing quote
behind it. -/
theorem readChars_eq_some_iff {chars text rest : List Char} :
    readChars chars = some (text, rest) ↔
      ∃ body, chars = body ++ '"' :: rest ∧ Denotes body text := by
  constructor
  · exact exists_denotes
  · rintro ⟨body, rfl, denotes⟩
    exact denotes.readChars_append rest

theorem Denotes.readString_append {body text : List Char}
    (denotes : Denotes body text) (rest : List Char) :
    readString ('"' :: (body ++ '"' :: rest)) =
      .ok (String.ofList text, rest) := by
  simp only [readString, denotes.readChars_append]

theorem Denotes.readValue_append {body text : List Char}
    (denotes : Denotes body text) (takes : NumberLiteral → Bool) (bound : Nat)
    (rest : List Char) :
    readValue takes (bound + 1) ('"' :: (body ++ '"' :: rest)) =
      .ok (.string (String.ofList text), rest) := by
  rw [readValue, dropBlanks, List.dropWhile_cons_of_neg (by decide)]
  simp only [denotes.readString_append]
  rfl

theorem exists_denotes_of_readString {chars rest : List Char} {text : String}
    (reads : readString chars = .ok (text, rest)) :
    ∃ body denoted, chars = '"' :: (body ++ '"' :: rest) ∧
      text = String.ofList denoted ∧ Denotes body denoted := by
  unfold readString at reads
  split at reads
  · split at reads
    · rename_i found
      cases reads
      rcases exists_denotes found with ⟨body, rfl, denotes⟩
      exact ⟨body, _, rfl, rfl, denotes⟩
    · cases reads
  · cases reads

/-! ## The characters of a literal -/

/-- A character that may stand in a literal without meaning anything by itself. -/
structure IsHarmless (char : Char) : Prop where
  notQuote : char ≠ '"'
  notBackslash : char ≠ '\\'
  printed : ¬ char.toNat < 0x20

theorem isHarmless_of_hexDigit? {char : Char} {digit : Nat}
    (digits : Text.hexDigit? char = some digit) : IsHarmless char := by
  have range : 48 ≤ char.toNat ∧ char.toNat ≤ 57 ∨
      65 ≤ char.toNat ∧ char.toNat ≤ 70 ∨
        97 ≤ char.toNat ∧ char.toNat ≤ 102 := by
    unfold Text.hexDigit? at digits
    dsimp only at digits
    split at digits
    · rename_i decimal
      left
      simpa [Char.isDigit, UInt32.le_iff_toNat_le] using decimal
    · split at digits
      · rename_i small
        exact .inr (.inr small)
      · split at digits
        · rename_i capital
          exact .inr (.inl capital)
        · cases digits
  refine ⟨?_, ?_, by omega⟩
  · rintro rfl
    revert range
    decide
  · rintro rfl
    revert range
    decide

theorem isHarmless_of_fourDigits? {a b c d : Char} {code : Nat}
    (digits : fourDigits? a b c d = some code) :
    ∀ char ∈ [a, b, c, d], IsHarmless char := by
  have each : ∀ (chars : List Char) (start : Nat),
      (chars.foldlM (fun value char => (Text.hexDigit? char).bind fun digit =>
        if digit < 16 then some (16 * value + digit) else none) start) =
          some code → ∀ char ∈ chars, IsHarmless char := by
    intro chars
    induction chars with
    | nil => simp
    | cons head chars chars_ih =>
        intro start reads
        rw [List.foldlM_cons] at reads
        rcases Option.bind_eq_some_iff.mp reads with ⟨value, first, others⟩
        rcases Option.bind_eq_some_iff.mp first with ⟨digit, isDigit, _⟩
        exact List.forall_mem_cons.mpr
          ⟨isHarmless_of_hexDigit? isDigit, chars_ih value others⟩
  exact each _ 0 digits

theorem printed_of_shortEscape? {mark char : Char}
    (marks : shortEscape? mark = some char) : ¬ mark.toNat < 0x20 := by
  unfold shortEscape? at marks
  split at marks
  all_goals first | decide | cases marks

/-- No control character stands in a literal. -/
theorem Denotes.printed {body text : List Char} (denotes : Denotes body text) :
    ∀ char ∈ body, ¬ char.toNat < 0x20 := by
  have backslash : ¬ '\\'.toNat < 0x20 := by decide
  have mark : ¬ 'u'.toNat < 0x20 := by decide
  have four : ∀ {a b c d : Char} {code : Nat}, fourDigits? a b c d = some code →
      ∀ char ∈ ['\\', 'u', a, b, c, d], ¬ char.toNat < 0x20 := by
    intro a b c d code digits
    rw [List.forall_mem_cons, List.forall_mem_cons]
    exact ⟨backslash, mark, fun char member =>
      (isHarmless_of_fourDigits? digits char member).printed⟩
  induction denotes with
  | nil => simp
  | plain notQuote notBackslash printed rest rest_ih =>
      exact List.forall_mem_append.mpr
        ⟨List.forall_mem_singleton.mpr printed, rest_ih⟩
  | short marks rest rest_ih =>
      exact List.forall_mem_append.mpr
        ⟨List.forall_mem_cons.mpr ⟨backslash, List.forall_mem_singleton.mpr
          (printed_of_shortEscape? marks)⟩, rest_ih⟩
  | code digits codes rest rest_ih =>
      exact List.forall_mem_append.mpr ⟨four digits, rest_ih⟩
  | pair highDigits lowDigits pairs rest rest_ih =>
      exact List.forall_mem_append.mpr
        ⟨List.forall_mem_append.mpr ⟨four highDigits, four lowDigits⟩, rest_ih⟩

/-! ## Escaped quotes -/

/-- The number of backslashes at the end of a text.  What follows the text is
escaped if it is odd. -/
def backslashes (chars : List Char) : Nat :=
  (chars.reverse.takeWhile (· == '\\')).length

theorem backslashes_of_last {chars : List Char}
    (last : ∀ char ∈ chars.getLast?, char ≠ '\\') : backslashes chars = 0 := by
  rw [← List.head?_reverse] at last
  rw [backslashes]
  cases shown : chars.reverse with
  | nil => rfl
  | cons char others =>
      have differs := last char (by rw [shown]; rfl)
      rw [List.takeWhile_cons_of_neg (by simpa using differs)]
      rfl

/-- Backslashes in pairs do not change what is escaped behind them. -/
theorem even_backslashes_append {first : List Char}
    (even : Even (backslashes first)) (second : List Char) :
    Even (backslashes (first ++ second)) ↔ Even (backslashes second) := by
  rw [backslashes, List.reverse_append, List.takeWhile_append]
  split
  · rename_i all
    rw [List.length_append, ← all, Nat.even_add]
    exact iff_true_right even
  · rfl

/-- Every quote in a text is escaped, and what follows the text is not. -/
structure EscapesQuotes (chars : List Char) : Prop where
  even : Even (backslashes chars)
  odd : ∀ front back, chars = front ++ '"' :: back → Odd (backslashes front)

theorem escapesQuotes_of_notMem {chars : List Char} (noQuote : '"' ∉ chars)
    (last : ∀ char ∈ chars.getLast?, char ≠ '\\') : EscapesQuotes chars where
  even := by
    rw [backslashes_of_last last]
    exact Even.zero
  odd := by
    rintro front back rfl
    exact absurd (by simp) noQuote

theorem escapesQuotes_short (mark : Char) : EscapesQuotes ['\\', mark] where
  even := by
    by_cases twice : mark = '\\'
    · rw [twice]
      decide
    · rw [backslashes_of_last (by simpa using twice)]
      exact Even.zero
  odd := by
    intro front back parts
    cases front with
    | nil => cases parts
    | cons first front =>
        cases front with
        | nil =>
            cases parts
            decide
        | cons second front => simp at parts

theorem EscapesQuotes.append {first second : List Char}
    (escapesFirst : EscapesQuotes first) (escapesSecond : EscapesQuotes second) :
    EscapesQuotes (first ++ second) where
  even := (even_backslashes_append escapesFirst.even second).mpr
    escapesSecond.even
  odd := by
    intro front back parts
    -- the quote is in the second text, where the pairs in front do not count,
    -- or in the first one
    rcases List.append_eq_append_iff.mp parts with
      ⟨behind, rfl, rest⟩ | ⟨within, rfl, rest⟩
    · rw [← Nat.not_even_iff_odd, even_backslashes_append escapesFirst.even,
        Nat.not_even_iff_odd]
      exact escapesSecond.odd behind back rest
    · cases within with
      | nil =>
          have odd := escapesSecond.odd [] back rest.symm
          exact absurd odd (by decide)
      | cons quote within =>
          rw [List.cons_append] at rest
          cases rest
          exact escapesFirst.odd front within rfl

theorem escapesQuotes_code {a b c d : Char} {code : Nat}
    (digits : fourDigits? a b c d = some code) :
    EscapesQuotes ['\\', 'u', a, b, c, d] := by
  have harmless := isHarmless_of_fourDigits? digits
  apply escapesQuotes_of_notMem
  · rw [List.mem_cons, List.mem_cons, not_or, not_or]
    exact ⟨by decide, by decide, fun member => (harmless _ member).notQuote rfl⟩
  · intro char member
    cases member
    exact (harmless d (by simp)).notBackslash

/-- Every quote of a literal is escaped but the one that closes it. -/
theorem Denotes.escapesQuotes {body text : List Char}
    (denotes : Denotes body text) : EscapesQuotes body := by
  induction denotes with
  | nil => exact escapesQuotes_of_notMem (by simp) (by simp)
  | plain notQuote notBackslash printed rest rest_ih =>
      refine EscapesQuotes.append (escapesQuotes_of_notMem ?_ ?_) rest_ih
      · simpa using Ne.symm notQuote
      · simpa using notBackslash
  | short marks rest rest_ih => exact (escapesQuotes_short _).append rest_ih
  | code digits codes rest rest_ih =>
      exact (escapesQuotes_code digits).append rest_ih
  | pair highDigits lowDigits pairs rest rest_ih =>
      exact ((escapesQuotes_code highDigits).append
        (escapesQuotes_code lowDigits)).append rest_ih

/-! ## Written literals -/

theorem charOfCode?_toNat (char : Char) :
    Text.charOfCode? char.toNat = some char := by
  have valid : char.toNat.isValidChar := char.valid
  rw [Text.charOfCode?, dif_pos valid]
  rfl

/-- The escape of a control character names its code. -/
theorem exists_fourDigits?_hexFour {code : Nat} (control : code < 0x20) :
    ∃ a b c d, hexFour code = [a, b, c, d] ∧
      fourDigits? a b c d = some code := by
  have digits : ∀ code < 0x20, (hexFour code).length = 4 ∧
      Text.baseValue? 16 (hexFour code) = some code := by
    decide +kernel
  rcases digits code control with ⟨length, value⟩
  rcases shown : hexFour code with _ | ⟨a, _ | ⟨b, _ | ⟨c, _ | ⟨d, _ | _⟩⟩⟩⟩ <;>
    rw [shown] at length value <;> simp at length
  exact ⟨a, b, c, d, rfl, value⟩

/-- How a string literal writes a character: by a short escape, by the escape of
its code if it is a control character, or by itself. -/
inductive Escaped (char : Char) : Prop
  | short (mark : Char) (written : escapeChar char = ['\\', mark])
      (marks : shortEscape? mark = some char)
  | code (control : char.toNat < 0x20)
      (written : escapeChar char = '\\' :: 'u' :: hexFour char.toNat)
  | itself (notQuote : char ≠ '"') (notBackslash : char ≠ '\\')
      (printed : ¬ char.toNat < 0x20) (written : escapeChar char = [char])

theorem escaped (char : Char) : Escaped char := by
  by_cases quote : char = '"'
  · exact .short '"' (by rw [quote]; rfl) (by rw [quote]; rfl)
  by_cases backslash : char = '\\'
  · exact .short '\\' (by rw [backslash]; rfl) (by rw [backslash]; rfl)
  by_cases backspace : char = '\x08'
  · exact .short 'b' (by rw [backspace]; rfl) (by rw [backspace]; rfl)
  by_cases formFeed : char = '\x0c'
  · exact .short 'f' (by rw [formFeed]; rfl) (by rw [formFeed]; rfl)
  by_cases lineFeed : char = '\n'
  · exact .short 'n' (by rw [lineFeed]; rfl) (by rw [lineFeed]; rfl)
  by_cases carriage : char = '\r'
  · exact .short 'r' (by rw [carriage]; rfl) (by rw [carriage]; rfl)
  by_cases tab : char = '\t'
  · exact .short 't' (by rw [tab]; rfl) (by rw [tab]; rfl)
  have rest : escapeChar char = if char.toNat < 0x20 then
      '\\' :: 'u' :: hexFour char.toNat else [char] := by
    simp only [escapeChar, quote, backslash, backspace, formFeed, lineFeed,
      carriage, tab, if_false]
  by_cases control : char.toNat < 0x20
  · exact .code control (rest.trans (if_pos control))
  · exact .itself quote backslash control (rest.trans (if_neg control))

/-- The literal that is written for a text denotes the text. -/
theorem denotes_flatMap (chars : List Char) :
    Denotes (chars.flatMap escapeChar) chars := by
  induction chars with
  | nil => exact .nil
  | cons char chars chars_ih =>
      rw [List.flatMap_cons]
      cases escaped char with
      | short mark written marks =>
          rw [written]
          exact .short marks chars_ih
      | code control written =>
          rcases exists_fourDigits?_hexFour control with ⟨a, b, c, d, shown, value⟩
          rw [written, shown]
          exact .code value (charOfCode?_toNat char) chars_ih
      | itself notQuote notBackslash printed written =>
          rw [written]
          exact .plain notQuote notBackslash printed chars_ih

theorem quoteChars_append (chars rest : List Char) :
    quoteChars chars ++ rest =
      '"' :: (chars.flatMap escapeChar ++ '"' :: rest) := by
  simp [quoteChars]

theorem readString_quoteChars (chars rest : List Char) :
    readString (quoteChars chars ++ rest) =
      .ok (String.ofList chars, rest) := by
  rw [quoteChars_append, (denotes_flatMap chars).readString_append]

theorem readValue_quoteChars (takes : NumberLiteral → Bool) (bound : Nat)
    (chars rest : List Char) :
    readValue takes (bound + 1) (quoteChars chars ++ rest) =
      .ok (.string (String.ofList chars), rest) := by
  rw [quoteChars_append, (denotes_flatMap chars).readValue_append]

theorem printed_of_mem_quoteChars {chars : List Char} :
    ∀ char ∈ quoteChars chars, ¬ char.toNat < 0x20 := by
  rw [quoteChars, List.forall_mem_cons, List.forall_mem_append,
    List.forall_mem_singleton]
  exact ⟨by decide, (denotes_flatMap chars).printed, by decide⟩

theorem lineFeed_notMem_quoteChars (chars : List Char) :
    '\n' ∉ quoteChars chars :=
  fun member => printed_of_mem_quoteChars _ member (by decide)

/-- What is written for a text is a string literal of this text, on a single
line. -/
structure Quotes (text : String) : Prop where
  /-- Between the quotes stands a literal of the text.  No quote in it closes it
  early, and the last one is not escaped. -/
  exists_body : ∃ body, (quote text).toList = '"' :: (body ++ ['"']) ∧
    Denotes body text.toList ∧ EscapesQuotes body
  /-- There are no control characters, and so no line ends. -/
  printed : ∀ char ∈ (quote text).toList, ¬ char.toNat < 0x20
  /-- Whatever follows, the literal is read, and nothing else. -/
  readString_eq : ∀ rest,
    readString ((quote text).toList ++ rest) = .ok (text, rest)
  readValue_eq : ∀ takes bound rest,
    readValue takes (bound + 1) ((quote text).toList ++ rest) =
      .ok (.string text, rest)
  readWith_eq : ∀ takes, readWith takes (quote text) = .ok (.string text)

theorem quotes (text : String) : Quotes text where
  exists_body := by
    have denotes := denotes_flatMap text.toList
    exact ⟨_, by rw [toList_quote, quoteChars], denotes, denotes.escapesQuotes⟩
  printed := by
    rw [toList_quote]
    exact printed_of_mem_quoteChars
  readString_eq := by
    intro rest
    rw [toList_quote, readString_quoteChars, String.ofList_toList]
  readValue_eq := by
    intro takes bound rest
    rw [toList_quote, readValue_quoteChars, String.ofList_toList]
  readWith_eq := by
    intro takes
    have read := readValue_quoteChars takes (quote text).toList.length
      text.toList []
    rw [List.append_nil, ← toList_quote, String.ofList_toList] at read
    rw [readWith, read]
    rfl

example : quote "\\\"\x01\n" = "\"\\\\\\\"\\u0001\\n\"" := by decide

end BlockForge.Json
