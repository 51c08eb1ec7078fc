import BlockForge.Proofs.Json.Nesting

/-!
# The grammar of documents

`StandsFor takes chars part` is the grammar of JSON texts, with the number
literals that a reader takes: which values there are, and where there may be
blanks.  `StandsFor.readFrom` and `soundWithin` say that the readers of values,
of items and of entries accept this grammar and nothing else, and
`readWith_eq_ok_iff` says so of whole documents.
-/

namespace BlockForge.Json

/-- What a stretch of a document stands for: a value, or the items of an array or
the entries of an object, with what closes them. -/
inductive Part where
  | value (value : Value)
  | items (values : List Value)
  | entries (said : List (String × Value))

/-- The key of an entry, with the colon behind it. -/
inductive KeyText : List Char → String → Prop
  | mk {before body behind text : List Char} (beforeBlank : AreBlank before)
      (denotes : Denotes body text) (behindBlank : AreBlank behind) :
      KeyText (before ++ '"' :: (body ++ '"' :: (behind ++ [':'])))
        (String.ofList text)

/-- The values that are written as words. -/
def words : List (String × Value) :=
  [("true", .bool true), ("false", .bool false), ("null", .null)]

/-- The grammar of JSON texts. -/
inductive StandsFor (takes : NumberLiteral → Bool) : List Char → Part → Prop
  | blanks {gap chars : List Char} {value : Value} (blank : AreBlank gap)
      (inner : StandsFor takes chars (.value value)) :
      StandsFor takes (gap ++ chars) (.value value)
  | string {body text : List Char} (denotes : Denotes body text) :
      StandsFor takes ('"' :: (body ++ ['"']))
        (.value (.string (String.ofList text)))
  | number {literal : NumberLiteral} {chars : List Char}
      (spells : NumberText literal chars) (taken : takes literal = true) :
      StandsFor takes chars (.value (.number literal.value))
  | word {word : String} {value : Value} (listed : (word, value) ∈ words) :
      StandsFor takes word.toList (.value value)
  | emptyArray {gap : List Char} (blank : AreBlank gap) :
      StandsFor takes ('[' :: (gap ++ [']'])) (.value (.array []))
  | array {chars : List Char} {values : List Value}
      (items : StandsFor takes chars (.items values)) :
      StandsFor takes ('[' :: chars) (.value (.array values))
  | emptyObject {gap : List Char} (blank : AreBlank gap) :
      StandsFor takes ('\x7b' :: (gap ++ ['\x7d'])) (.value (.object []))
  | object {chars : List Char} {said : List (String × Value)}
      (entries : StandsFor takes chars (.entries said)) :
      StandsFor takes ('\x7b' :: chars) (.value (.object said))
  | lastItem {chars gap : List Char} {value : Value}
      (item : StandsFor takes chars (.value value)) (blank : AreBlank gap) :
      StandsFor takes (chars ++ (gap ++ [']'])) (.items [value])
  | nextItem {chars gap rest : List Char} {value : Value} {values : List Value}
      (item : StandsFor takes chars (.value value)) (blank : AreBlank gap)
      (others : StandsFor takes rest (.items values)) :
      StandsFor takes (chars ++ (gap ++ ',' :: rest)) (.items (value :: values))
  | lastEntry {name chars gap : List Char} {key : String} {value : Value}
      (names : KeyText name key) (entry : StandsFor takes chars (.value value))
      (blank : AreBlank gap) :
      StandsFor takes (name ++ (chars ++ (gap ++ ['\x7d'])))
        (.entries [(key, value)])
  | nextEntry {name chars gap rest : List Char} {key : String} {value : Value}
      {said : List (String × Value)} (names : KeyText name key)
      (entry : StandsFor takes chars (.value value)) (blank : AreBlank gap)
      (others : StandsFor takes rest (.entries said)) :
      StandsFor takes (name ++ (chars ++ (gap ++ ',' :: rest)))
        (.entries ((key, value) :: said))

variable {takes : NumberLiteral → Bool}

/-! ## Readers accept the grammar -/

/-- A reader of values, items or entries reads a stretch of a document as what it
stands for, whatever follows. -/
def Part.ReadFrom (takes : NumberLiteral → Bool) (chars : List Char) :
    Part → Prop
  | .value found => Reads takes chars found
  | .items found => ∀ ⦃bound : Nat⦄ ⦃rest : List Char⦄, chars.length < bound →
      readItems takes bound (chars ++ rest) = .ok (found, rest)
  | .entries found => ∀ ⦃bound : Nat⦄ ⦃rest : List Char⦄,
      chars.length < bound →
        readEntries takes bound (chars ++ rest) = .ok (found, rest)

theorem KeyText.exists_afterKey {name : List Char} {key : String}
    (names : KeyText name key) (behind : List Char) :
    ∃ afterKey, readString (dropBlanks (name ++ behind)) = .ok (key, afterKey) ∧
      dropBlanks afterKey = ':' :: behind := by
  rcases names with ⟨beforeBlank, denotes, behindBlank⟩
  rename_i before body after text
  refine ⟨after ++ ':' :: behind, ?_, ?_⟩
  · have shape : before ++ '"' :: (body ++ '"' :: (after ++ [':'])) ++ behind =
        before ++ '"' :: (body ++ '"' :: (after ++ ':' :: behind)) := by simp
    rw [shape, dropBlanks_append beforeBlank]
    exact denotes.readString_append _
  · rw [dropBlanks_append behindBlank]
    rfl

theorem reads_of_mem_words {word : String} {value : Value}
    (listed : (word, value) ∈ words) : Reads takes word.toList value := by
  simp only [words, List.mem_cons, Prod.mk.injEq, List.not_mem_nil, or_false]
    at listed
  rcases listed with ⟨rfl, rfl⟩ | ⟨rfl, rfl⟩ | ⟨rfl, rfl⟩
  · exact reads_boolText true
  · exact reads_boolText false
  · exact reads_null

/-- What the grammar allows is read.  The induction is on how a stretch stands
for its part; a bound above its length is above that of every stretch inside. -/
theorem StandsFor.readFrom {chars : List Char} {part : Part}
    (stands : StandsFor takes chars part) : part.ReadFrom takes chars := by
  induction stands with
  | blanks blank inner inner_ih =>
      intro bound rest enough ends
      rw [List.length_append] at enough
      rw [List.append_assoc, readValue_blanks blank]
      exact inner_ih (by omega) ends
  | string denotes =>
      intro bound rest enough ends
      rcases exists_succ_of_lt enough with ⟨inner, rfl, _⟩
      rw [List.cons_append, List.append_assoc, List.singleton_append]
      exact denotes.readValue_append takes inner rest
  | number spells taken => exact reads_number spells taken
  | word listed => exact reads_of_mem_words listed
  | emptyArray blank =>
      intro bound rest enough ends
      rcases exists_succ_of_lt enough with ⟨inner, rfl, _⟩
      rw [List.cons_append, List.append_assoc]
      exact readValue_emptyArray (dropBlanks_append blank _)
  | array items items_ih =>
      intro bound rest enough ends
      rcases exists_succ_of_lt enough with ⟨inner, rfl, fits⟩
      have read := @items_ih inner rest fits
      exact readValue_array (dropBlanks_ne_of_readItems read) read
  | emptyObject blank =>
      intro bound rest enough ends
      rcases exists_succ_of_lt enough with ⟨inner, rfl, _⟩
      rw [List.cons_append, List.append_assoc]
      exact readValue_emptyObject (dropBlanks_append blank _)
  | object entries entries_ih =>
      intro bound rest enough ends
      rcases exists_succ_of_lt enough with ⟨inner, rfl, fits⟩
      have read := @entries_ih inner rest fits
      exact readValue_object (dropBlanks_ne_of_readEntries read) read
  | lastItem item blank item_ih =>
      intro bound rest enough
      simp only [List.length_append, List.length_cons] at enough
      rcases exists_succ_of_lt enough with ⟨inner, rfl, fits⟩
      simp only [List.append_assoc, List.singleton_append]
      have ends := ends_delimiter blank (by simp : ']' ∈ _) rest
      exact readItems_last (item_ih (by omega) ends) (dropBlanks_append blank _)
  | nextItem item blank others item_ih others_ih =>
      intro bound rest enough
      simp only [List.length_append, List.length_cons] at enough
      rcases exists_succ_of_lt enough with ⟨inner, rfl, fits⟩
      simp only [List.append_assoc, List.cons_append]
      have ends := ends_delimiter blank (by simp : ',' ∈ _)
      exact readItems_more (item_ih (by omega) (ends _)) (dropBlanks_append blank _)
        (others_ih (by omega))
  | lastEntry names entry blank entry_ih =>
      intro bound rest enough
      simp only [List.length_append, List.length_cons] at enough
      rcases exists_succ_of_lt enough with ⟨inner, rfl, fits⟩
      simp only [List.append_assoc, List.singleton_append]
      have ends := ends_delimiter blank (by simp : '\x7d' ∈ _) rest
      exact readEntries_last (names.exists_afterKey _) (entry_ih (by omega) ends)
        (dropBlanks_append blank _)
  | nextEntry names entry blank others entry_ih others_ih =>
      intro bound rest enough
      simp only [List.length_append, List.length_cons] at enough
      rcases exists_succ_of_lt enough with ⟨inner, rfl, fits⟩
      simp only [List.append_assoc, List.cons_append]
      have ends := ends_delimiter blank (by simp : ',' ∈ _)
      exact readEntries_more (names.exists_afterKey _) (entry_ih (by omega) (ends _))
        (dropBlanks_append blank _) (others_ih (by omega))

/-! ## Readers accept nothing else -/

/-- A reader reads nothing but stretches that stand for what it finds. -/
def Accepts {α : Type} (takes : NumberLiteral → Bool)
    (read : List Char → Except Fault (α × List Char)) (part : α → Part) : Prop :=
  ∀ ⦃chars : List Char⦄ ⦃found : α⦄ ⦃after : List Char⦄,
    read chars = .ok (found, after) →
      ∃ front, chars = front ++ after ∧ StandsFor takes front (part found)

/-- The readings within a bound. -/
structure SoundWithin (takes : NumberLiteral → Bool) (bound : Nat) : Prop where
  value : Accepts takes (readValue takes bound) .value
  items : Accepts takes (readItems takes bound) .items
  entries : Accepts takes (readEntries takes bound) .entries

theorem exists_of_bind_eq_ok {α β : Type} {step : Except Fault α}
    {next : α → Except Fault β} {result : β}
    (reads : (step >>= next) = .ok result) :
    ∃ found, step = .ok found ∧ next found = .ok result := by
  cases step with
  | error fault => cases reads
  | ok found => exact ⟨found, rfl, reads⟩

theorem exists_gap (chars : List Char) :
    ∃ gap, AreBlank gap ∧ chars = gap ++ dropBlanks chars :=
  ⟨chars.takeWhile isBlank, List.all_eq_true.mp List.all_takeWhile,
    List.takeWhile_append_dropWhile.symm⟩

theorem exists_gap_of_dropBlanks {chars solid : List Char}
    (drops : dropBlanks chars = solid) :
    ∃ gap, AreBlank gap ∧ chars = gap ++ solid := by
  rw [← drops]
  exact exists_gap chars

theorem standsFor_of_readWord {word : String} {value : Value}
    (listed : (word, value) ∈ words) :
    Accepts takes (readWord word value) .value := by
  intro chars found after reads
  unfold readWord at reads
  split at reads
  · rename_i front
    cases reads
    rcases List.isPrefixOf_iff_prefix.mp front with ⟨rest, rfl⟩
    refine ⟨word.toList, ?_, .word listed⟩
    rw [← String.length_toList, List.drop_left]
  · cases reads

theorem standsFor_of_readNumber : Accepts takes (readNumber takes) .value := by
  intro chars found after reads
  unfold readNumber at reads
  split at reads
  · rename_i literal rest read
    split at reads
    · rename_i taken
      cases reads
      rcases exists_numberText read with ⟨text, rfl, spells⟩
      exact ⟨text, rfl, .number spells taken⟩
    · cases reads
  · cases reads

/-- One more reading of a value is sound if the readings inside it are. -/
theorem readValue_sound {bound : Nat} (within : SoundWithin takes bound) :
    Accepts takes (readValue takes (bound + 1)) .value := by
  intro chars found after reads
  suffices solid : ∃ front, dropBlanks chars = front ++ after ∧
      StandsFor takes front (.value found) by
    rcases solid with ⟨front, shape, stands⟩
    rcases exists_gap chars with ⟨gap, blank, parts⟩
    refine ⟨gap ++ front, ?_, stands.blanks blank⟩
    rw [List.append_assoc, ← shape]
    exact parts
  simp only [readValue] at reads
  split at reads
  · cases reads
  · rename_i rest shape
    rcases exists_of_bind_eq_ok reads with ⟨⟨text, behind⟩, read, same⟩
    cases same
    rcases exists_denotes_of_readString read with
      ⟨body, denoted, chars, rfl, denotes⟩
    exact ⟨_, by simpa [shape] using chars, .string denotes⟩
  · rename_i rest shape
    split at reads
    · rename_i behind closing
      cases reads
      rcases exists_gap_of_dropBlanks closing with ⟨gap, blank, rfl⟩
      exact ⟨_, by simp [shape], .emptyArray blank⟩
    · rcases exists_of_bind_eq_ok reads with ⟨⟨items, behind⟩, read, same⟩
      cases same
      rcases within.items read with ⟨front, rfl, stands⟩
      exact ⟨_, by simp [shape], .array stands⟩
  · rename_i rest shape
    split at reads
    · rename_i behind closing
      cases reads
      rcases exists_gap_of_dropBlanks closing with ⟨gap, blank, rfl⟩
      exact ⟨_, by simp [shape], .emptyObject blank⟩
    · rcases exists_of_bind_eq_ok reads with ⟨⟨said, behind⟩, read, same⟩
      cases same
      rcases within.entries read with ⟨front, rfl, stands⟩
      exact ⟨_, by simp [shape], .object stands⟩
  · rename_i rest shape
    rw [shape]
    exact standsFor_of_readWord (by simp [words]) reads
  · rename_i rest shape
    rw [shape]
    exact standsFor_of_readWord (by simp [words]) reads
  · rename_i rest shape
    rw [shape]
    exact standsFor_of_readWord (by simp [words]) reads
  · rename_i shape
    rw [shape]
    exact standsFor_of_readNumber reads

theorem readItems_sound {bound : Nat} (within : SoundWithin takes bound) :
    Accepts takes (readItems takes (bound + 1)) .items := by
  intro chars found after reads
  rw [readItems] at reads
  rcases exists_of_bind_eq_ok reads with ⟨⟨item, afterItem⟩, read, goesOn⟩
  rcases within.value read with ⟨front, rfl, stands⟩
  dsimp only at goesOn
  split at goesOn
  · rename_i rest comma
    rcases exists_of_bind_eq_ok goesOn with ⟨⟨items, behind⟩, readOthers, same⟩
    cases same
    rcases within.items readOthers with ⟨others, rfl, standsOthers⟩
    rcases exists_gap_of_dropBlanks comma with ⟨gap, blank, rfl⟩
    exact ⟨_, by simp, .nextItem stands blank standsOthers⟩
  · rename_i behind closing
    cases goesOn
    rcases exists_gap_of_dropBlanks closing with ⟨gap, blank, rfl⟩
    exact ⟨_, by simp, .lastItem stands blank⟩
  · cases goesOn

theorem exists_keyText {chars afterKey behind : List Char} {key : String}
    (read : readString (dropBlanks chars) = .ok (key, afterKey))
    (colon : dropChar ':' (dropBlanks afterKey) = .ok behind) :
    ∃ name, chars = name ++ behind ∧ KeyText name key := by
  unfold dropChar at colon
  split at colon
  · rename_i char rest shape
    split at colon
    · rename_i isColon
      cases colon
      rw [isColon] at shape
      rcases exists_gap_of_dropBlanks shape with ⟨gap, blank, rfl⟩
      rcases exists_denotes_of_readString read with
        ⟨body, denoted, solid, rfl, denotes⟩
      rcases exists_gap_of_dropBlanks solid with ⟨before, beforeBlank, rfl⟩
      exact ⟨_, by simp, .mk beforeBlank denotes blank⟩
    · cases colon
  · cases colon

theorem readEntries_sound {bound : Nat} (within : SoundWithin takes bound) :
    Accepts takes (readEntries takes (bound + 1)) .entries := by
  intro chars found after reads
  rw [readEntries] at reads
  rcases exists_of_bind_eq_ok reads with ⟨⟨key, afterKey⟩, readKey, readsColon⟩
  rcases exists_of_bind_eq_ok readsColon with ⟨afterColon, colon, readsValue⟩
  rcases exists_of_bind_eq_ok readsValue with
    ⟨⟨value, afterValue⟩, read, goesOn⟩
  rcases exists_keyText readKey colon with ⟨name, rfl, names⟩
  rcases within.value read with ⟨front, rfl, stands⟩
  dsimp only at goesOn
  split at goesOn
  · rename_i rest comma
    rcases exists_of_bind_eq_ok goesOn with ⟨⟨entries, behind⟩, readOthers, same⟩
    cases same
    rcases within.entries readOthers with ⟨others, rfl, standsOthers⟩
    rcases exists_gap_of_dropBlanks comma with ⟨gap, blank, rfl⟩
    exact ⟨_, by simp, .nextEntry names stands blank standsOthers⟩
  · rename_i behind closing
    cases goesOn
    rcases exists_gap_of_dropBlanks closing with ⟨gap, blank, rfl⟩
    exact ⟨_, by simp, .lastEntry names stands blank⟩
  · cases goesOn

/-- What is read within a bound is allowed by the grammar. -/
theorem soundWithin : ∀ bound, SoundWithin takes bound
  | 0 =>
    { value := fun _ _ _ reads => nomatch reads
      items := fun _ _ _ reads => nomatch reads
      entries := fun _ _ _ reads => nomatch reads }
  | bound + 1 =>
    { value := readValue_sound (soundWithin bound)
      items := readItems_sound (soundWithin bound)
      entries := readEntries_sound (soundWithin bound) }

/-! ## Documents -/

/-- A text that the grammar allows as a document: a value with blanks around
it. -/
def IsDocument (takes : NumberLiteral → Bool) (chars : List Char)
    (value : Value) : Prop :=
  ∃ front gap, chars = front ++ gap ∧ AreBlank gap ∧
    StandsFor takes front (.value value)

/-- The reader reads the documents of the grammar as what they stand for. -/
theorem readWith_eq_ok_iff {text : String} {value : Value} :
    readWith takes text = .ok value ↔ IsDocument takes text.toList value := by
  constructor
  · intro reads
    rw [readWith] at reads
    rcases exists_of_bind_eq_ok reads with ⟨⟨found, rest⟩, read, reads⟩
    dsimp only at reads
    split at reads
    · rename_i blank
      cases reads
      rcases (soundWithin _).value read with ⟨front, shape, stands⟩
      rw [List.isEmpty_iff, dropBlanks_eq_nil_iff] at blank
      exact ⟨front, rest, shape, blank, stands⟩
    · cases reads
  · rintro ⟨front, gap, shape, blank, stands⟩
    have ends : Ends gap := by
      have nothing := ends_blanks blank ends_nil
      rwa [List.append_nil] at nothing
    have enough : front.length < text.toList.length + 1 := by
      rw [shape, List.length_append]
      omega
    have read := stands.readFrom enough ends
    rw [← shape] at read
    rw [readWith, read]
    have none : (dropBlanks gap).isEmpty = true := by
      rw [List.isEmpty_iff, dropBlanks_eq_nil_iff]
      exact blank
    change (if (dropBlanks gap).isEmpty = true then _ else _) = _
    rw [if_pos none]
    rfl

end BlockForge.Json
