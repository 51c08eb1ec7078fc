import BlockForge.Proofs.Json.LineFeeds

/-!
# Documents put together from documents

Objects and arrays are put together from the texts of their values, and all of
it is indented.  `keepsValues` says that nothing is lost on the way: the texts
may be any documents, of one line or several, and an item of an array may hold
several of them; the whole is read as the object or the array of what the parts
are read as.  The result can be a part again, so this goes on to any depth.
-/

namespace BlockForge.Json

variable {takes : NumberLiteral → Bool}

/-! ## Blanks around documents -/

theorem IsDocument.blanks {gap chars : List Char} {value : Value}
    (document : IsDocument takes chars value) (blank : AreBlank gap) :
    IsDocument takes (gap ++ chars) value := by
  rcases document with ⟨front, behind, rfl, behindBlank, stands⟩
  exact ⟨gap ++ front, behind, by simp, behindBlank, stands.blanks blank⟩

theorem readWith_append {gap text : String} {value : Value}
    (blank : AreBlank gap.toList) (reads : readWith takes text = .ok value) :
    readWith takes (gap ++ text) = .ok value := by
  rw [readWith_eq_ok_iff] at reads ⊢
  rw [String.toList_append]
  exact reads.blanks blank

theorem StandsFor.blanks_items {gap chars : List Char} {values : List Value}
    (stands : StandsFor takes chars (.items values)) (blank : AreBlank gap) :
    StandsFor takes (gap ++ chars) (.items values) := by
  cases stands with
  | lastItem item behind =>
      rw [← List.append_assoc]
      exact .lastItem (item.blanks blank) behind
  | nextItem item behind others =>
      rw [← List.append_assoc]
      exact .nextItem (item.blanks blank) behind others

theorem KeyText.blanks {gap name : List Char} {key : String}
    (names : KeyText name key) (blank : AreBlank gap) :
    KeyText (gap ++ name) key := by
  rcases names with ⟨beforeBlank, denotes, behindBlank⟩
  rw [← List.append_assoc]
  exact .mk (List.forall_mem_append.mpr ⟨blank, beforeBlank⟩) denotes behindBlank

theorem StandsFor.blanks_entries {gap chars : List Char}
    {said : List (String × Value)}
    (stands : StandsFor takes chars (.entries said)) (blank : AreBlank gap) :
    StandsFor takes (gap ++ chars) (.entries said) := by
  cases stands with
  | lastEntry names entry behind =>
      rw [← List.append_assoc]
      exact .lastEntry (names.blanks blank) entry behind
  | nextEntry names entry behind others =>
      rw [← List.append_assoc]
      exact .nextEntry (names.blanks blank) entry behind others

theorem areBlank_lineFeed : AreBlank ['\n'] := List.forall_mem_singleton.mpr rfl

/-! ## Sequences -/

/-- A text consists of documents with commas between them, at least one. -/
inductive ReadsSequence (takes : NumberLiteral → Bool) :
    String → List Value → Prop
  | single {text : String} {value : Value}
      (reads : readWith takes text = .ok value) :
      ReadsSequence takes text [value]
  | cons {text rest : String} {value : Value} {values : List Value}
      (reads : readWith takes text = .ok value)
      (others : ReadsSequence takes rest values) :
      ReadsSequence takes (text ++ "," ++ rest) (value :: values)

theorem ReadsSequence.blanks {gap text : String} {values : List Value}
    (sequence : ReadsSequence takes text values) (blank : AreBlank gap.toList) :
    ReadsSequence takes (gap ++ text) values := by
  cases sequence with
  | single reads => exact .single (readWith_append blank reads)
  | cons reads others =>
      rw [String.append_assoc, ← String.append_assoc, ← String.append_assoc]
      exact .cons (readWith_append blank reads) others

theorem ReadsSequence.append {first second : String} {values others : List Value}
    (sequence : ReadsSequence takes first values)
    (behind : ReadsSequence takes second others) :
    ReadsSequence takes (first ++ "," ++ second) (values ++ others) := by
  induction sequence with
  | single reads => exact .cons reads behind
  | cons reads rest rest_ih =>
      have joined := ReadsSequence.cons reads rest_ih
      simpa only [String.append_assoc, List.cons_append] using joined

/-- Sequences with commas and blanks between them make up one sequence. -/
theorem readsSequence_intercalate {gap : String} (blank : AreBlank gap.toList)
    {texts : List String} {parts : List (List Value)} (some : texts ≠ [])
    (sequences : List.Forall₂ (ReadsSequence takes) texts parts) :
    ReadsSequence takes (("," ++ gap).intercalate texts) parts.flatten := by
  induction sequences with
  | nil => exact absurd rfl some
  | cons first others others_ih =>
      cases others with
      | nil => simpa using first
      | cons second others =>
          have behind := (others_ih (by simp)).blanks blank
          rw [String.intercalate_cons_cons, List.flatten_cons]
          have joined := first.append behind
          simpa only [String.append_assoc] using joined

/-- A sequence in front of a closing bracket stands for the items of an array. -/
theorem ReadsSequence.standsFor {text : String} {values : List Value}
    (sequence : ReadsSequence takes text values) {gap : List Char}
    (blank : AreBlank gap) :
    StandsFor takes (text.toList ++ (gap ++ [']'])) (.items values) := by
  induction sequence with
  | single reads =>
      rcases readWith_eq_ok_iff.mp reads with
        ⟨front, behind, shape, behindBlank, stands⟩
      rw [shape, List.append_assoc, ← List.append_assoc behind]
      exact .lastItem stands
        (List.forall_mem_append.mpr ⟨behindBlank, blank⟩)
  | cons reads others others_ih =>
      rcases readWith_eq_ok_iff.mp reads with
        ⟨front, behind, shape, behindBlank, stands⟩
      have next := StandsFor.nextItem stands behindBlank others_ih
      simpa [shape] using next

/-- An entry of an object is written for a key and a value. -/
def ReadsAsEntry (takes : NumberLiteral → Bool) (entry : String × String)
    (member : String × Value) : Prop :=
  entry.1 = member.1 ∧ readWith takes entry.2 = .ok member.2

theorem keyText_quoteChars (key : String) :
    KeyText (quoteChars key.toList ++ [':']) key := by
  have blank : AreBlank [] := fun _ impossible => nomatch impossible
  have names := KeyText.mk blank (denotes_flatMap key.toList) blank
  rw [String.ofList_toList] at names
  simpa [quoteChars] using names

/-- Entries in front of a closing brace stand for the entries of an object. -/
theorem standsFor_entries {entries : List (String × String)}
    {said : List (String × Value)} (some : entries ≠ [])
    (reads : List.Forall₂ (ReadsAsEntry takes) entries said) {gap : List Char}
    (blank : AreBlank gap) :
    StandsFor takes
      ((",\n".intercalate (entries.map entryText)).toList ++ (gap ++ ['\x7d']))
      (.entries said) := by
  induction reads with
  | nil => exact absurd rfl some
  | cons first others others_ih =>
      rename_i entry member entries members
      rcases entry with ⟨key, text⟩
      rcases member with ⟨said, value⟩
      rcases first with ⟨same, reads⟩
      dsimp only at same reads
      subst same
      have names := keyText_quoteChars key
      have space : AreBlank [' '] := List.forall_mem_singleton.mpr rfl
      rcases readWith_eq_ok_iff.mp reads with
        ⟨front, behind, shape, behindBlank, stands⟩
      cases others with
      | nil =>
          have last := StandsFor.lastEntry names (stands.blanks space)
            (List.forall_mem_append.mpr ⟨behindBlank, blank⟩)
          simpa [entryText, shape] using last
      | cons second others =>
          have rest := (others_ih (by simp)).blanks_entries areBlank_lineFeed
          have next := StandsFor.nextEntry names (stands.blanks space)
            behindBlank rest
          simpa [entryText, shape] using next

/-! ## Brackets -/

/-- An indented body between brackets on lines of their own is relaid from the
body as it is. -/
theorem relaid_enclose (opening closing : Char) (body : String) :
    Relaid (opening :: '\n' :: (body.toList ++ ['\n', closing]))
      (enclose (String.singleton opening) (String.singleton closing)
        body).toList := by
  have spaces : AreBlank [' ', ' '] := by
    intro char member
    rcases List.mem_pair.mp member with rfl | rfl <;> rfl
  have relaid := (relaid_indentChars spaces body.toList).append
    (Relaid.refl ['\n', closing])
  have chars : (enclose (String.singleton opening) (String.singleton closing)
      body).toList =
        opening :: ('\n' :: Text.indentChars [' ', ' '] body.toList ++
          ['\n', closing]) := by
    simp [enclose]
  rw [chars]
  exact .cons opening relaid

theorem readWith_enclose {opening closing : Char} {body : String} {value : Value}
    (stands : StandsFor takes
      (opening :: '\n' :: (body.toList ++ ['\n', closing])) (.value value)) :
    readWith takes
        (enclose (String.singleton opening) (String.singleton closing) body) =
      .ok value := by
  rw [readWith_eq_ok_iff]
  have document : IsDocument takes _ value :=
    ⟨_, [], (List.append_nil _).symm, by simp [AreBlank], stands⟩
  exact document.relaid (relaid_enclose opening closing body)

theorem readWith_array {items : List String} {parts : List (List Value)}
    (sequences : List.Forall₂ (ReadsSequence takes) items parts) :
    readWith takes (array items) = .ok (.array parts.flatten) := by
  by_cases none : items = []
  · subst none
    cases sequences
    rfl
  · have notEmpty : items.isEmpty = false := by simpa using none
    simp only [array, notEmpty, Bool.false_eq_true, if_false]
    change readWith takes
      (enclose (String.singleton '[') (String.singleton ']') _) = _
    have lineFeed : AreBlank "\n".toList := areBlank_lineFeed
    have whole := readsSequence_intercalate lineFeed none sequences
    -- the body is in the grammar before it is indented
    apply readWith_enclose
    exact .array ((whole.standsFor areBlank_lineFeed).blanks_items
      areBlank_lineFeed)

theorem readWith_object {entries : List (String × String)}
    {said : List (String × Value)}
    (reads : List.Forall₂ (ReadsAsEntry takes) entries said) :
    readWith takes (object entries) = .ok (.object said) := by
  by_cases none : entries = []
  · subst none
    cases reads
    rfl
  · have notEmpty : entries.isEmpty = false := by simpa using none
    simp only [object, notEmpty, Bool.false_eq_true, if_false]
    change readWith takes
      (enclose (String.singleton '\x7b') (String.singleton '\x7d') _) = _
    apply readWith_enclose
    exact .object ((standsFor_entries none reads
      areBlank_lineFeed).blanks_entries areBlank_lineFeed)

/-! ## Nesting -/

/-- A text that can be a part of any document: no line feed stands in a string
literal, and none ends the text. -/
structure Settled (text : String) : Prop where
  lineFeedsBetween : LineFeedsBetween text.toList
  last_ne : text.toList.getLast? ≠ some '\n'

theorem lineFeedsBetween_of_readWith {text : String} {value : Value}
    (reads : readWith takes text = .ok value) : LineFeedsBetween text.toList :=
  (readWith_eq_ok_iff.mp reads).lineFeedsBetween

theorem getLast?_enclose (opening body : String) (closing : Char) :
    (enclose opening (String.singleton closing) body).toList.getLast? =
      some closing := by
  have chars : (enclose opening (String.singleton closing) body).toList =
      (opening ++ "\n" ++ Text.indent "  " body ++ "\n").toList ++
        [closing] := by
    simp [enclose]
  rw [chars, List.getLast?_append]
  rfl

theorem getLast?_array (items : List String) :
    (array items).toList.getLast? = some ']' := by
  unfold array
  split
  · rfl
  · exact getLast?_enclose "[" _ ']'

theorem getLast?_object (entries : List (String × String)) :
    (object entries).toList.getLast? = some '\x7d' := by
  unfold object
  split
  · rfl
  · exact getLast?_enclose "\x7b" _ '\x7d'

/-- A document that is put together from documents, to any depth: objects have a
part for every entry, and every item of an array has one part or several, with a
comma and blanks between them. -/
inductive Assembled (takes : NumberLiteral → Bool) : String → Value → Prop
  | document {text : String} {value : Value}
      (reads : readWith takes text = .ok value) : Assembled takes text value
  | object {entries : List (String × String × Value)}
      (each : ∀ entry ∈ entries, Assembled takes entry.2.1 entry.2.2) :
      Assembled takes
        (Json.object (entries.map fun entry => (entry.1, entry.2.1)))
        (.object (entries.map fun entry => (entry.1, entry.2.2)))
  | array {gap : String} {items : List (List (String × Value))}
      (blank : AreBlank gap.toList) (some : [] ∉ items)
      (each : ∀ item ∈ items, ∀ part ∈ item, Assembled takes part.1 part.2) :
      Assembled takes
        (Json.array (items.map fun item =>
          ("," ++ gap).intercalate (item.map Prod.fst)))
        (.array (items.flatten.map Prod.snd))

/-- The parts of an item are a sequence. -/
theorem readsSequence_parts {gap : String} (blank : AreBlank gap.toList)
    {item : List (String × Value)} (some : item ≠ [])
    (reads : ∀ part ∈ item, readWith takes part.1 = .ok part.2) :
    ReadsSequence takes (("," ++ gap).intercalate (item.map Prod.fst))
      (item.map Prod.snd) := by
  have parts : List.Forall₂ (ReadsSequence takes) (item.map Prod.fst)
      (item.map fun part => [part.2]) := by
    rw [List.forall₂_map_left_iff, List.forall₂_map_right_iff, List.forall₂_same]
    exact fun part member => .single (reads part member)
  have whole := readsSequence_intercalate blank (by simpa using some) parts
  rwa [← List.flatMap_def, ← List.map_eq_flatMap] at whole

theorem Assembled.readWith_eq {text : String} {value : Value}
    (assembled : Assembled takes text value) :
    readWith takes text = .ok value := by
  induction assembled with
  | document reads => exact reads
  | object each each_ih =>
      apply readWith_object
      rw [List.forall₂_map_left_iff, List.forall₂_map_right_iff,
        List.forall₂_same]
      exact fun entry member => ⟨rfl, each_ih entry member⟩
  | array blank some each each_ih =>
      rename_i gap items
      have sequences : List.Forall₂ (ReadsSequence takes)
          (items.map fun item => ("," ++ gap).intercalate (item.map Prod.fst))
          (items.map (List.map Prod.snd)) := by
        rw [List.forall₂_map_left_iff, List.forall₂_map_right_iff,
          List.forall₂_same]
        intro item member
        refine readsSequence_parts blank ?_ (each_ih item member)
        rintro rfl
        exact some member
      rw [readWith_array sequences, List.map_flatten]

/-- What objects and arrays say when they are put together from documents. -/
structure KeepsValues (takes : NumberLiteral → Bool) : Prop where
  /-- An object is read as its keys with what the texts of the values are read
  as, in order. -/
  object : ∀ {entries : List (String × String)} {said : List (String × Value)},
    List.Forall₂ (ReadsAsEntry takes) entries said →
      readWith takes (Json.object entries) = .ok (.object said) ∧
        Settled (Json.object entries)
  /-- An array is read as what its items are read as, one after the other. -/
  array : ∀ {items : List String} {parts : List (List Value)},
    List.Forall₂ (ReadsSequence takes) items parts →
      readWith takes (Json.array items) = .ok (.array parts.flatten) ∧
        Settled (Json.array items)
  /-- No document has a line feed in a string literal, so this need not be asked
  of the parts. -/
  lineFeedsBetween : ∀ {text : String} {value : Value},
    readWith takes text = .ok value → LineFeedsBetween text.toList
  /-- All of this goes on to any depth. -/
  nested : ∀ {text : String} {value : Value},
    Assembled takes text value → readWith takes text = .ok value

theorem keepsValues (takes : NumberLiteral → Bool) : KeepsValues takes where
  object := by
    intro entries said reads
    have whole := readWith_object reads
    refine ⟨whole, lineFeedsBetween_of_readWith whole, ?_⟩
    rw [getLast?_object]
    decide
  array := by
    intro items parts sequences
    have whole := readWith_array sequences
    refine ⟨whole, lineFeedsBetween_of_readWith whole, ?_⟩
    rw [getLast?_array]
    decide
  lineFeedsBetween := lineFeedsBetween_of_readWith
  nested := Assembled.readWith_eq

/-- An array with two elements in one item, on two lines, is the value of an
object. -/
theorem keepsValues_sample :
    readWith (fun _ => true)
        (object [("a\n", array ["true,\n null", "\n\"b\\n\" "])]) =
      .ok (.object [("a\n", .array [.bool true, .null, .string "b\n"])]) := by
  have keeps := keepsValues fun _ => true
  have first : readWith (fun _ => true) "true" = .ok (.bool true) := rfl
  have second : readWith (fun _ => true) "\n null" = .ok .null := rfl
  have third : readWith (fun _ => true) "\n\"b\\n\" " =
      .ok (.string "b\n") := rfl
  have joined : "true" ++ "," ++ "\n null" = "true,\n null" := by decide
  have item := ReadsSequence.cons first (.single second)
  rw [joined] at item
  have inner := keeps.array (.cons item (.cons (.single third) .nil))
  have entry : ReadsAsEntry (fun _ => true) ("a\n", _) ("a\n", _) :=
    ⟨rfl, inner.1⟩
  exact (keeps.object (.cons entry .nil)).1

end BlockForge.Json
