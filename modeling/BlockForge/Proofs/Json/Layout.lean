import BlockForge.Proofs.Json.Assembly
import BlockForge.Proofs.Json.Literals

/-!
# Documents laid out in lines

Documents grow from the inside out, and every level of nesting indents all
lines of the levels inside it.  `Lays takes text value` says that a reader reads
a text as a value however its lines are indented, so that the text can stand at
any depth, with any text behind it.

A text on a single line lays out what it is read as; `lays_array` and
`lays_object` add one level, and `read?_of_lays` reads the finished document.
-/

namespace BlockForge.Json

/-! ## Indented lines -/

/-- Put a lead after every line feed. -/
def leadWith (lead chars : List Char) : List Char :=
  chars.flatMap fun char => if char = '\n' then '\n' :: lead else [char]

theorem relaid_leadWith {lead : List Char} (blank : AreBlank lead)
    (chars : List Char) : Relaid chars (leadWith lead chars) := by
  induction chars with
  | nil => exact .nil
  | cons char chars chars_ih =>
      rw [leadWith, List.flatMap_cons]
      split
      · rename_i lineFeed
        rw [lineFeed]
        exact .lead blank chars_ih
      · exact .cons char chars_ih

theorem leadWith_of_notMem {lead chars : List Char} (blank : AreBlank lead)
    (single : '\n' ∉ chars) : leadWith lead chars = chars :=
  (relaid_leadWith blank chars).eq_of_notMem single

theorem leadWith_nil (chars : List Char) : leadWith [] chars = chars := by
  have same : (fun char => if char = '\n' then ['\n'] else [char]) =
      fun char => [char] := by
    funext char
    split
    · rename_i lineFeed
      rw [lineFeed]
    · rfl
  rw [leadWith, same, List.flatMap_singleton']

theorem areBlank_of_spaces {lead : List Char}
    (spaces : ∀ char ∈ lead, char = ' ') : AreBlank lead := by
  intro char member
  rw [spaces char member]
  rfl

/-- A text that has a last character, and none that ends a line. -/
def Closed (chars : List Char) : Prop :=
  ∃ last ∈ chars.getLast?, last ≠ '\n'

theorem Closed.ne_nil {chars : List Char} (closed : Closed chars) :
    chars ≠ [] := by
  rintro rfl
  rcases closed with ⟨last, member, _⟩
  cases member

/-! ## Layouts -/

theorem forall_mem_of_forall₂ {α β : Type} {related : α → β → Prop}
    {property : α → Prop} {firsts : List α} {seconds : List β}
    (all : List.Forall₂ related firsts seconds)
    (implies : ∀ {first second}, related first second → property first) :
    ∀ first ∈ firsts, property first := by
  induction all with
  | nil => simp
  | cons first others others_ih =>
      rw [List.forall_mem_cons]
      exact ⟨implies first, others_ih⟩

/-- However its lines are indented, a text is read as a value. -/
structure Lays (takes : NumberLiteral → Bool) (text : String) (value : Value) :
    Prop where
  reads : ∀ lead, (∀ char ∈ lead, char = ' ') →
    Reads takes (leadWith lead text.toList) value
  closed : Closed text.toList

variable {takes : NumberLiteral → Bool}

theorem Lays.ne_empty {text : String} {value : Value}
    (lays : Lays takes text value) : text ≠ "" := by
  rintro rfl
  exact lays.closed.ne_nil rfl

/-- A document that is laid out as a value is read as this value. -/
theorem readWith_of_lays {text : String} {value : Value}
    (lays : Lays takes text value) : readWith takes text = .ok value := by
  have read := lays.reads [] (by simp) (Nat.lt_succ_self _) ends_nil
  rw [leadWith_nil, List.append_nil] at read
  simp only [readWith, read]
  rfl

theorem read?_of_lays {text : String} {value : Value}
    (lays : Lays takes text value) : read? text = some value :=
  read?_of_readWith (readWith_of_lays lays)

/-- A document with no blanks behind it can stand at any depth. -/
theorem lays_of_readWith {text : String} {value : Value}
    (reads : readWith takes text = .ok value) {last : Char}
    (ends : text.toList.getLast? = some last) (solid : isBlank last = false) :
    Lays takes text value where
  reads := by
    intro lead spaces
    rcases readWith_eq_ok_iff.mp reads with ⟨front, gap, shape, blank, stands⟩
    have none : gap = [] := by
      by_contra some
      rw [shape, List.getLast?_append_of_ne_nil _ some] at ends
      rw [blank last (List.mem_of_getLast? ends)] at solid
      cases solid
    rw [none, List.append_nil] at shape
    rw [shape]
    exact (stands.relaid
      (relaid_leadWith (areBlank_of_spaces spaces) front)).readFrom
  closed := by
    refine ⟨last, ends, ?_⟩
    rintro rfl
    cases solid

/-- A text on a single line lays out the value that it is read as. -/
theorem lays_of_single {text : String} {value : Value}
    (reads : Reads takes text.toList value) (single : '\n' ∉ text.toList) :
    Lays takes text value where
  reads := by
    intro lead spaces
    rwa [leadWith_of_notMem (areBlank_of_spaces spaces) single]
  closed := by
    cases last : text.toList.getLast? with
    | none => exact absurd (List.getLast?_eq_none_iff.mp last) reads.ne_nil
    | some char =>
        refine ⟨char, last, ?_⟩
        rintro rfl
        exact single (List.mem_of_getLast? last)

theorem lays_quote (text : String) : Lays takes (quote text) (.string text) := by
  have reads : Reads takes _ _ := reads_quoteChars text.toList
  have single := lineFeed_notMem_quoteChars text.toList
  rw [← toList_quote] at reads single
  rw [String.ofList_toList] at reads
  exact lays_of_single reads single

theorem lays_null : Lays takes "null" .null :=
  lays_of_single reads_null (by decide)

theorem lays_boolText (value : Bool) :
    Lays takes (boolText value) (.bool value) :=
  lays_of_single (reads_boolText value) (by cases value <;> decide)

theorem lays_numberText (number : Binary64) :
    Lays NumberLiteral.isPlain (numberText number) (numberValue number) :=
  lays_of_single (reads_numberText number).1 (reads_numberText number).2

theorem lays_toString {number : Nat}
    (taken : takes ⟨false, Nat.toDigits 10 number, [], 0⟩ = true) :
    Lays takes (toString number)
      (.number (Decimal.nearest false ⟨number, 0⟩)) :=
  lays_of_single (reads_toString taken).1 (reads_toString taken).2

/-! ## Nesting -/

/-- Laid out texts are sequences of one document each. -/
theorem forall₂_readsSequence {texts : List String} {values : List Value}
    (lays : List.Forall₂ (Lays takes) texts values) :
    List.Forall₂ (ReadsSequence takes) texts (values.map fun value => [value]) := by
  rw [List.forall₂_map_right_iff]
  exact lays.imp fun _ _ lays => .single (readWith_of_lays lays)

theorem flatten_map_singleton (values : List Value) :
    (values.map fun value => [value]).flatten = values := by
  rw [← List.flatMap_def, List.flatMap_singleton']

/-- An array with one item per line is read as the array of what its items are
read as. -/
theorem lays_array {texts : List String} {values : List Value}
    (lays : List.Forall₂ (Lays takes) texts values) :
    Lays takes (array texts) (.array values) := by
  have reads := readWith_array (forall₂_readsSequence lays)
  rw [flatten_map_singleton] at reads
  exact lays_of_readWith reads (getLast?_array texts) rfl

/-- An entry of an object is laid out as a key and a value. -/
def LaysEntry (takes : NumberLiteral → Bool) (entry : String × String)
    (said : String × Value) : Prop :=
  entry.1 = said.1 ∧ Lays takes entry.2 said.2

/-- An object with one entry per line is read as the object of what its entries
are read as. -/
theorem lays_object {entries : List (String × String)}
    {said : List (String × Value)}
    (lays : List.Forall₂ (LaysEntry takes) entries said) :
    Lays takes (object entries) (.object said) := by
  have reads : readWith takes (object entries) = .ok (.object said) :=
    readWith_object (lays.imp fun _ _ lays => ⟨lays.1, readWith_of_lays lays.2⟩)
  exact lays_of_readWith reads (getLast?_object entries) rfl

/-- An array on a single line is read as the array of what its items are read
as. -/
theorem lays_inlineArray {texts : List String} {values : List Value}
    (lays : List.Forall₂ (Lays takes) texts values) (nonempty : texts ≠ []) :
    Lays takes (inlineArray texts) (.array values) := by
  have space : AreBlank " ".toList := List.forall_mem_singleton.mpr rfl
  have blank : AreBlank [] := fun _ impossible => nomatch impossible
  have items := readsSequence_intercalate space nonempty (forall₂_readsSequence lays)
  rw [flatten_map_singleton] at items
  have chars : (inlineArray texts).toList =
      '[' :: ((", ".intercalate texts).toList ++ ([] ++ [']'])) := by
    simp [inlineArray]
  have reads : readWith takes (inlineArray texts) = .ok (.array values) := by
    rw [readWith_eq_ok_iff, chars]
    exact ⟨_, [], (List.append_nil _).symm, blank,
      .array (items.standsFor blank)⟩
  have ends : (inlineArray texts).toList.getLast? = some ']' := by
    rw [chars, ← List.cons_append, List.nil_append, List.getLast?_append]
    rfl
  exact lays_of_readWith reads ends rfl

/-! ## Readers of laid out documents -/

/-- What a reader makes of a document in which numbers stand as they are
written: it reads the value if it takes all numbers, and otherwise it stops. -/
theorem readWith_of_lays_isPlain {text : String} {value : Value}
    (lays : Lays NumberLiteral.isPlain text value)
    (takes : NumberLiteral → Bool) :
    ((∀ number ∈ value.numbers, takesNumber takes number = true) →
        readWith takes text = .ok value) ∧
      ((∃ number ∈ value.numbers, takesNumber takes number = false) →
        ∃ rest, readWith takes text = .error (.outOfRange rest)) := by
  rcases exists_meets (readWith_of_lays lays) with
    ⟨literals, meets, numbers, plain⟩
  rw [← numbers]
  constructor
  · intro all
    refine meets.goes_on takes fun literal member => ?_
    have taken := all _ (List.mem_map_of_mem member)
    rwa [takesNumber_value (plain literal member)] at taken
  · rintro ⟨number, member, refused⟩
    rcases List.mem_map.mp member with ⟨literal, inLiterals, rfl⟩
    rw [takesNumber_value (plain literal inLiterals)] at refused
    exact meets.stops takes ⟨literal, inLiterals, refused⟩

end BlockForge.Json
