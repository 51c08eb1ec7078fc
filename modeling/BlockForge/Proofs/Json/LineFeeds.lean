import BlockForge.Proofs.Json.Grammar

/-!
# Line feeds in documents

Indentation works on the lines of a text and knows nothing of JSON.  It does no
harm to documents because of where their line feeds are: between the tokens,
where blanks do not count.  `IsDocument.relaid` says that a document stands for
the same value with any blanks put behind its line feeds, and
`IsDocument.lineFeedsBetween` that no line feed is within a string literal, as a
scan of the quotes and backslashes of the text tells.
-/

namespace BlockForge.Json

variable {takes : NumberLiteral → Bool}

/-! ## Blanks behind line feeds -/

/-- Blanks are put behind line feeds of a text. -/
inductive Relaid : List Char → List Char → Prop
  | nil : Relaid [] []
  | cons (char : Char) {chars others : List Char} (rest : Relaid chars others) :
      Relaid (char :: chars) (char :: others)
  | lead {lead chars others : List Char} (blank : AreBlank lead)
      (rest : Relaid chars others) :
      Relaid ('\n' :: chars) ('\n' :: (lead ++ others))

theorem Relaid.refl (chars : List Char) : Relaid chars chars := by
  induction chars with
  | nil => exact .nil
  | cons char chars chars_ih => exact .cons char chars_ih

theorem Relaid.append {first second others more : List Char}
    (relaid : Relaid first others) (behind : Relaid second more) :
    Relaid (first ++ second) (others ++ more) := by
  induction relaid with
  | nil => exact behind
  | cons char rest rest_ih => exact .cons char rest_ih
  | lead blank rest rest_ih =>
      rw [List.cons_append, List.cons_append, List.append_assoc]
      exact .lead blank rest_ih

/-- The parts of a text are relaid one by one. -/
theorem Relaid.exists_append {first second others : List Char}
    (relaid : Relaid (first ++ second) others) :
    ∃ front back, others = front ++ back ∧ Relaid first front ∧
      Relaid second back := by
  induction first generalizing others with
  | nil => exact ⟨[], others, rfl, .nil, relaid⟩
  | cons char first first_ih =>
      cases relaid with
      | cons _ rest =>
          rcases first_ih rest with ⟨front, back, rfl, head, tail⟩
          exact ⟨char :: front, back, rfl, .cons char head, tail⟩
      | lead blank rest =>
          rcases first_ih rest with ⟨front, back, rfl, head, tail⟩
          exact ⟨_, back, by simp, .lead blank head, tail⟩

theorem Relaid.exists_cons {char : Char} {chars others : List Char}
    (relaid : Relaid (char :: chars) others) (differs : char ≠ '\n') :
    ∃ rest, others = char :: rest ∧ Relaid chars rest := by
  cases relaid with
  | cons _ rest => exact ⟨_, rfl, rest⟩
  | lead blank rest => exact absurd rfl differs

/-- A text on a single line stays as it is. -/
theorem Relaid.eq_of_notMem {chars others : List Char}
    (relaid : Relaid chars others) (single : '\n' ∉ chars) : others = chars := by
  induction relaid with
  | nil => rfl
  | cons char rest rest_ih =>
      rw [List.mem_cons, not_or] at single
      rw [rest_ih single.2]
  | lead blank rest rest_ih => exact absurd (by simp) single

theorem Relaid.areBlank {chars others : List Char} (relaid : Relaid chars others)
    (blank : AreBlank chars) : AreBlank others := by
  induction relaid with
  | nil => exact blank
  | cons char rest rest_ih =>
      rcases List.forall_mem_cons.mp blank with ⟨head, tail⟩
      exact List.forall_mem_cons.mpr ⟨head, rest_ih tail⟩
  | lead leadBlank rest rest_ih =>
      rcases List.forall_mem_cons.mp blank with ⟨head, tail⟩
      exact List.forall_mem_cons.mpr
        ⟨head, List.forall_mem_append.mpr ⟨leadBlank, rest_ih tail⟩⟩

theorem relaid_leadLines {lead : List Char} (blank : AreBlank lead)
    (chars : List Char) : Relaid chars (Text.leadLines lead chars) := by
  induction chars with
  | nil => exact .nil
  | cons char chars chars_ih =>
      unfold Text.leadLines
      split
      · rename_i lineFeed
        rw [lineFeed.1]
        exact .lead blank chars_ih
      · exact .cons char chars_ih

/-- Indentation behind a line feed puts blanks behind line feeds. -/
theorem relaid_indentChars {lead : List Char} (blank : AreBlank lead)
    (chars : List Char) :
    Relaid ('\n' :: chars) ('\n' :: Text.indentChars lead chars) := by
  cases chars with
  | nil => exact .refl _
  | cons char chars => exact .lead blank (relaid_leadLines blank (char :: chars))

/-! ## Relaid documents -/

theorem Denotes.lineFeed_notMem {body text : List Char}
    (denotes : Denotes body text) : '\n' ∉ body :=
  fun member => denotes.printed _ member (by decide)

theorem KeyText.relaid {name others : List Char} {key : String}
    (names : KeyText name key) (relaid : Relaid name others) :
    KeyText others key := by
  rcases names with ⟨beforeBlank, denotes, behindBlank⟩
  rcases relaid.exists_append with ⟨before, _, rfl, relaidBefore, quoted⟩
  rcases quoted.exists_cons (by decide) with ⟨_, rfl, inQuotes⟩
  rcases inQuotes.exists_append with ⟨_, _, rfl, relaidBody, closed⟩
  rcases closed.exists_cons (by decide) with ⟨_, rfl, afterQuote⟩
  rcases afterQuote.exists_append with ⟨behind, _, rfl, relaidBehind, colon⟩
  rw [relaidBody.eq_of_notMem denotes.lineFeed_notMem,
    colon.eq_of_notMem (by decide)]
  exact .mk (relaidBefore.areBlank beforeBlank) denotes
    (relaidBehind.areBlank behindBlank)

/-- A stretch of a document stands for the same with blanks behind its line
feeds. -/
theorem StandsFor.relaid {chars others : List Char} {part : Part}
    (stands : StandsFor takes chars part) (relaid : Relaid chars others) :
    StandsFor takes others part := by
  induction stands generalizing others with
  | blanks blank inner inner_ih =>
      rcases relaid.exists_append with ⟨gap, chars, rfl, relaidGap, relaidInner⟩
      exact .blanks (relaidGap.areBlank blank) (inner_ih relaidInner)
  | string denotes =>
      rw [relaid.eq_of_notMem (by simp [denotes.lineFeed_notMem])]
      exact .string denotes
  | number spells taken =>
      rw [relaid.eq_of_notMem spells.lineFeed_notMem]
      exact .number spells taken
  | word listed =>
      have single : ∀ entry ∈ words.map Prod.fst, '\n' ∉ entry.toList := by
        decide
      rw [relaid.eq_of_notMem (single _ (List.mem_map_of_mem listed))]
      exact .word listed
  | emptyArray blank =>
      rcases relaid.exists_cons (by decide) with ⟨_, rfl, opened⟩
      rcases opened.exists_append with ⟨gap, _, rfl, relaidGap, closing⟩
      rw [closing.eq_of_notMem (by decide)]
      exact .emptyArray (relaidGap.areBlank blank)
  | array items items_ih =>
      rcases relaid.exists_cons (by decide) with ⟨_, rfl, opened⟩
      exact .array (items_ih opened)
  | emptyObject blank =>
      rcases relaid.exists_cons (by decide) with ⟨_, rfl, opened⟩
      rcases opened.exists_append with ⟨gap, _, rfl, relaidGap, closing⟩
      rw [closing.eq_of_notMem (by decide)]
      exact .emptyObject (relaidGap.areBlank blank)
  | object entries entries_ih =>
      rcases relaid.exists_cons (by decide) with ⟨_, rfl, opened⟩
      exact .object (entries_ih opened)
  | lastItem item blank item_ih =>
      rcases relaid.exists_append with ⟨chars, _, rfl, relaidItem, behind⟩
      rcases behind.exists_append with ⟨gap, _, rfl, relaidGap, closing⟩
      rw [closing.eq_of_notMem (by decide)]
      exact .lastItem (item_ih relaidItem) (relaidGap.areBlank blank)
  | nextItem item blank rest item_ih rest_ih =>
      rcases relaid.exists_append with ⟨chars, _, rfl, relaidItem, behind⟩
      rcases behind.exists_append with ⟨gap, _, rfl, relaidGap, closing⟩
      rcases closing.exists_cons (by decide) with ⟨_, rfl, more⟩
      exact .nextItem (item_ih relaidItem) (relaidGap.areBlank blank)
        (rest_ih more)
  | lastEntry names entry blank entry_ih =>
      rcases relaid.exists_append with ⟨name, _, rfl, relaidName, named⟩
      rcases named.exists_append with ⟨chars, _, rfl, relaidEntry, behind⟩
      rcases behind.exists_append with ⟨gap, _, rfl, relaidGap, closing⟩
      rw [closing.eq_of_notMem (by decide)]
      exact .lastEntry (names.relaid relaidName) (entry_ih relaidEntry)
        (relaidGap.areBlank blank)
  | nextEntry names entry blank rest entry_ih rest_ih =>
      rcases relaid.exists_append with ⟨name, _, rfl, relaidName, named⟩
      rcases named.exists_append with ⟨chars, _, rfl, relaidEntry, behind⟩
      rcases behind.exists_append with ⟨gap, _, rfl, relaidGap, closing⟩
      rcases closing.exists_cons (by decide) with ⟨_, rfl, more⟩
      exact .nextEntry (names.relaid relaidName) (entry_ih relaidEntry)
        (relaidGap.areBlank blank) (rest_ih more)

theorem IsDocument.relaid {chars others : List Char} {value : Value}
    (document : IsDocument takes chars value) (relaid : Relaid chars others) :
    IsDocument takes others value := by
  rcases document with ⟨front, gap, rfl, blank, stands⟩
  rcases relaid.exists_append with ⟨front, gap, rfl, relaidFront, relaidGap⟩
  exact ⟨front, gap, rfl, relaidGap.areBlank blank, stands.relaid relaidFront⟩

/-! ## Line feeds outside of string literals -/

/-- Where a character stands: between string literals, in one, or in one behind
the backslash that escapes it. -/
inductive Place where
  | between
  | inside
  | escaped
deriving DecidableEq, Repr

/-- The place behind a character. -/
def Place.next : Place → Char → Place
  | between, char => if char = '"' then inside else between
  | inside, char =>
    if char = '"' then between else if char = '\\' then escaped else inside
  | escaped, _ => inside

/-- The place behind a text. -/
def Place.after (place : Place) (chars : List Char) : Place :=
  chars.foldl Place.next place

@[simp]
theorem Place.after_append (place : Place) (first second : List Char) :
    place.after (first ++ second) = (place.after first).after second :=
  List.foldl_append

/-- No line feed of a text stands in a string literal. -/
def LineFeedsBetween (chars : List Char) : Prop :=
  ∀ front back, chars = front ++ '\n' :: back →
    Place.between.after front = .between

/-- A text has no line feed in a string literal, and all of its literals are
closed. -/
structure Tidy (chars : List Char) : Prop where
  lineFeedsBetween : LineFeedsBetween chars
  closes : Place.between.after chars = .between

theorem Tidy.append {first second : List Char} (tidy : Tidy first)
    (behind : Tidy second) : Tidy (first ++ second) where
  lineFeedsBetween := by
    intro front back parts
    rcases List.append_eq_append_iff.mp parts with
      ⟨rest, rfl, shape⟩ | ⟨rest, rfl, shape⟩
    · rw [Place.after_append, tidy.closes]
      exact behind.lineFeedsBetween rest back shape
    · cases rest with
      | nil => exact (by simpa using tidy.closes)
      | cons char rest =>
          cases shape
          exact tidy.lineFeedsBetween front rest rfl
  closes := by rw [Place.after_append, tidy.closes, behind.closes]

theorem after_of_notMem {chars : List Char} (noQuote : '"' ∉ chars) :
    Place.between.after chars = .between := by
  induction chars with
  | nil => rfl
  | cons char chars chars_ih =>
      rw [List.mem_cons, not_or] at noQuote
      have stays : Place.between.next char = .between :=
        if_neg (Ne.symm noQuote.1)
      rw [Place.after, List.foldl_cons, stays]
      exact chars_ih noQuote.2

theorem tidy_of_notMem {chars : List Char} (noQuote : '"' ∉ chars) :
    Tidy chars where
  lineFeedsBetween := by
    rintro front back rfl
    exact after_of_notMem fun member => noQuote (by simp [member])
  closes := after_of_notMem noQuote

theorem AreBlank.tidy {gap : List Char} (blank : AreBlank gap) : Tidy gap :=
  tidy_of_notMem fun member => absurd (blank _ member) (by decide)

theorem IsHarmless.next_inside {char : Char} (harmless : IsHarmless char) :
    Place.inside.next char = .inside := by
  simp only [Place.next, if_neg harmless.notQuote, if_neg harmless.notBackslash]

theorem after_inside_code {a b c d : Char} {code : Nat}
    (digits : fourDigits? a b c d = some code) :
    Place.inside.after ['\\', 'u', a, b, c, d] = .inside := by
  have harmless := isHarmless_of_fourDigits? digits
  have behind : Place.inside.after ['\\', 'u'] = .inside := by decide
  have split : ['\\', 'u', a, b, c, d] = ['\\', 'u'] ++ [a, b, c, d] := rfl
  rw [split, Place.after_append, behind]
  simp only [Place.after, List.foldl_cons, List.foldl_nil,
    (harmless a (by simp)).next_inside, (harmless b (by simp)).next_inside,
    (harmless c (by simp)).next_inside, (harmless d (by simp)).next_inside]

/-- A scan of what stands in a literal does not leave the literal. -/
theorem Denotes.after_inside {body text : List Char}
    (denotes : Denotes body text) : Place.inside.after body = .inside := by
  induction denotes with
  | nil => rfl
  | plain notQuote notBackslash printed rest rest_ih =>
      have harmless : IsHarmless _ := ⟨notQuote, notBackslash, printed⟩
      rw [List.singleton_append, Place.after, List.foldl_cons,
        harmless.next_inside]
      exact rest_ih
  | short marks rest rest_ih =>
      have piece : ∀ mark, Place.inside.after ['\\', mark] = .inside :=
        fun _ => rfl
      rw [Place.after_append, piece, rest_ih]
  | code digits codes rest rest_ih =>
      rw [Place.after_append, after_inside_code digits, rest_ih]
  | pair highDigits lowDigits pairs rest rest_ih =>
      rw [Place.after_append, Place.after_append, after_inside_code highDigits,
        after_inside_code lowDigits, rest_ih]

theorem Denotes.tidy {body text : List Char} (denotes : Denotes body text) :
    Tidy ('"' :: (body ++ ['"'])) where
  lineFeedsBetween := by
    intro front back parts
    have single : '\n' ∉ '"' :: (body ++ ['"']) := by
      simp [denotes.lineFeed_notMem]
    exact absurd (by simp [parts]) single
  closes := by
    have opening : Place.between.after ['"'] = .inside := by decide
    rw [← List.singleton_append, Place.after_append, opening,
      Place.after_append, denotes.after_inside]
    decide

theorem NumberText.quote_notMem {literal : NumberLiteral} {chars : List Char}
    (spells : NumberText literal chars) : '"' ∉ chars := by
  intro member
  rcases spells.isDigit_or_mem _ member with isDigit | other
  · cases isDigit
  · exact absurd other (by decide)

theorem KeyText.tidy {name : List Char} {key : String}
    (names : KeyText name key) : Tidy name := by
  rcases names with ⟨beforeBlank, denotes, behindBlank⟩
  rename_i before body behind text
  have shape : before ++ '"' :: (body ++ '"' :: (behind ++ [':'])) =
      before ++ ('"' :: (body ++ ['"']) ++ (behind ++ [':'])) := by simp
  rw [shape]
  exact beforeBlank.tidy.append (denotes.tidy.append
    (behindBlank.tidy.append (tidy_of_notMem (by decide))))

/-- Only the literals of a document have quotes. -/
theorem StandsFor.tidy {chars : List Char} {part : Part}
    (stands : StandsFor takes chars part) : Tidy chars := by
  have single : ∀ {char : Char}, '"' ∉ [char] → ∀ {rest : List Char}, Tidy rest →
      Tidy (char :: rest) :=
    fun noQuote _ rest => (tidy_of_notMem noQuote).append rest
  induction stands with
  | blanks blank inner inner_ih => exact blank.tidy.append inner_ih
  | string denotes => exact denotes.tidy
  | number spells taken => exact tidy_of_notMem spells.quote_notMem
  | word listed =>
      have noQuote : ∀ entry ∈ words.map Prod.fst, '"' ∉ entry.toList := by
        decide
      exact tidy_of_notMem (noQuote _ (List.mem_map_of_mem listed))
  | emptyArray blank | emptyObject blank =>
      exact single (by decide) (blank.tidy.append (tidy_of_notMem (by decide)))
  | array inner inner_ih | object inner inner_ih =>
      exact single (by decide) inner_ih
  | lastItem item blank item_ih =>
      exact item_ih.append (blank.tidy.append (tidy_of_notMem (by decide)))
  | nextItem item blank rest item_ih rest_ih =>
      exact item_ih.append (blank.tidy.append (single (by decide) rest_ih))
  | lastEntry names entry blank entry_ih =>
      exact names.tidy.append (entry_ih.append
        (blank.tidy.append (tidy_of_notMem (by decide))))
  | nextEntry names entry blank rest entry_ih rest_ih =>
      exact names.tidy.append (entry_ih.append
        (blank.tidy.append (single (by decide) rest_ih)))

theorem IsDocument.lineFeedsBetween {chars : List Char} {value : Value}
    (document : IsDocument takes chars value) : LineFeedsBetween chars := by
  rcases document with ⟨front, gap, rfl, blank, stands⟩
  exact (stands.tidy.append blank.tidy).lineFeedsBetween

end BlockForge.Json
