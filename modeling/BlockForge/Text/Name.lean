/-!
# Cleaned names

Names that reach generated text keep only letters, digits and the underscore
of ASCII.  Every maximal run of other characters is written as one underscore,
so a cleaned name is safe inside a quoted literal and inside an identifier.

`cleanName` is the cleaning itself and `lowerName` the cleaned lower-case form.
Cleaning hides most of what lower case is about, so `lowerVisible` lowers a text
only as far as its cleaned form can show.

A text of characters that a name may hold `IsName`; `cleanName_eq_self_iff` says
that these are the texts that cleaning leaves alone, and `IsName.lowerVisible`
that they stay names in lower case.
-/

namespace BlockForge.Text

/-- The characters a cleaned name consists of. -/
def isNameChar (char : Char) : Bool :=
  char.isAlphanum || char == '_'

/-- Clean the rest of a text; `inRun` says that the character before it was
replaced, so that a run leaves a single underscore. -/
def cleanFrom (inRun : Bool) : List Char → List Char
  | [] => []
  | char :: rest =>
    if isNameChar char then char :: cleanFrom false rest
    else if inRun then cleanFrom true rest
    else '_' :: cleanFrom true rest

/-- Write one underscore for every maximal run of characters that no name may
hold. -/
def cleanName (text : String) : String :=
  String.ofList (cleanFrom false text.toList)

@[simp]
theorem toList_cleanName (text : String) :
    (cleanName text).toList = cleanFrom false text.toList := by
  simp [cleanName]

/-- Every character of a cleaned text is a name character. -/
theorem isNameChar_of_mem_cleanFrom {inRun : Bool} {chars : List Char}
    {char : Char} (member : char ∈ cleanFrom inRun chars) :
    isNameChar char = true := by
  induction chars generalizing inRun with
  | nil => simp [cleanFrom] at member
  | cons head rest rest_ih =>
    simp only [cleanFrom] at member
    split at member
    · rename_i nameHead
      rcases List.mem_cons.1 member with rfl | inside
      · exact nameHead
      · exact rest_ih inside
    · split at member
      · exact rest_ih member
      · rcases List.mem_cons.1 member with rfl | inside
        · decide
        · exact rest_ih inside

/-- Cleaning leaves a text of name characters as it is. -/
theorem cleanFrom_of_forall {inRun : Bool} {chars : List Char}
    (clean : ∀ char ∈ chars, isNameChar char = true) :
    cleanFrom inRun chars = chars := by
  induction chars generalizing inRun with
  | nil => rfl
  | cons head rest rest_ih =>
    simp only [cleanFrom, clean head (by simp), if_true]
    rw [rest_ih fun char member => clean char (by simp [member])]

/-- A text that consists of name characters. -/
def IsName (text : String) : Prop :=
  ∀ char ∈ text.toList, isNameChar char = true

instance (text : String) : Decidable (IsName text) :=
  List.decidableBAll (fun char => isNameChar char = true) text.toList

theorem isName_cleanName (text : String) : IsName (cleanName text) := by
  intro char member
  rw [toList_cleanName] at member
  exact isNameChar_of_mem_cleanFrom member

/-- Cleaning leaves alone the texts that consist of name characters. -/
theorem cleanName_eq_self_iff {text : String} :
    cleanName text = text ↔ IsName text := by
  constructor
  · intro same
    rw [← same]
    exact isName_cleanName text
  · intro clean
    rw [cleanName, cleanFrom_of_forall clean, String.ofList_toList]

/-- The lower-case form of one character, as far as a cleaned name can show it.

Besides the capitals of ASCII, two characters have a lower-case form that holds
a name character: the Kelvin sign, whose lower-case form is `k`, and the dotted
capital I, whose lower-case form is `i` and a combining dot.  Any other character
stays as it is here: its lower-case form consists of characters that cleaning
replaces, and so is the character itself. -/
def lowerVisibleChar (char : Char) : List Char :=
  if char = '\u212a' then ['k']
  else if char = '\u0130' then ['i', '\u0307']
  else [char.toLower]

/-- Lower-case a text up to cleaning.  Capitals that no cleaned form can show stay
as they are; a name has no such capitals, so it is lower-cased as a whole. -/
def lowerVisible (text : String) : String :=
  String.ofList (text.toList.flatMap lowerVisibleChar)

@[simp]
theorem toList_lowerVisible (text : String) :
    (lowerVisible text).toList = text.toList.flatMap lowerVisibleChar := by
  simp [lowerVisible]

/-- A capital and its small letter are as far apart as `A` and `a`. -/
theorem small_of_capital {value : UInt32} (least : 'A'.val ≤ value)
    (most : value ≤ 'Z'.val) :
    'a'.val ≤ value + ('a'.val - 'A'.val) ∧
      value + ('a'.val - 'A'.val) ≤ 'z'.val := by
  have sum : (value + 32).toNat = value.toNat + 32 := by
    simp only [UInt32.le_iff_toNat_le] at most
    simp at most ⊢
    omega
  simp only [UInt32.le_iff_toNat_le] at least most ⊢
  simp [sum] at least most ⊢
  omega

theorem isAlphanum_of_isLower {char : Char} (small : char.isLower = true) :
    char.isAlphanum = true := by
  have letter : char.isAlpha = true := Bool.or_eq_true_iff.mpr (.inr small)
  exact Bool.or_eq_true_iff.mpr (.inl letter)

theorem isNameChar_of_isLower {char : Char} (small : char.isLower = true) :
    isNameChar char = true :=
  Bool.or_eq_true_iff.mpr (.inl (isAlphanum_of_isLower small))

theorem isUpper_iff {char : Char} :
    char.isUpper = true ↔ char.val ≥ 'A'.val ∧ char.val ≤ 'Z'.val :=
  decide_eq_true_iff

/-- Only capitals change in lower case. -/
theorem toLower_of_isUpper_eq_false {char : Char}
    (other : char.isUpper = false) : char.toLower = char := by
  have notCapital : ¬ (char.val ≥ 'A'.val ∧ char.val ≤ 'Z'.val) := by
    rw [← isUpper_iff, other]
    exact Bool.false_ne_true
  exact dif_neg notCapital

theorem isLower_toLower {char : Char} (capital : char.isUpper = true) :
    char.toLower.isLower = true := by
  have between := isUpper_iff.mp capital
  have bounds := small_of_capital between.1 between.2
  have lowered : char.toLower = _ := dif_pos between
  rw [lowered]
  exact Bool.and_eq_true_iff.mpr
    ⟨decide_eq_true bounds.1, decide_eq_true bounds.2⟩

theorem isNameChar_toLower {char : Char} (clean : isNameChar char = true) :
    isNameChar char.toLower = true := by
  cases capital : char.isUpper with
  | true => exact isNameChar_of_isLower (isLower_toLower capital)
  | false => rwa [toLower_of_isUpper_eq_false capital]

/-- The two characters with a lower-case form of their own are no name
characters. -/
theorem isNameChar_of_mem_lowerVisibleChar {char lowered : Char}
    (clean : isNameChar char = true) (member : lowered ∈ lowerVisibleChar char) :
    isNameChar lowered = true := by
  unfold lowerVisibleChar at member
  split at member
  · rename_i kelvin
    rw [kelvin] at clean
    exact absurd clean (by decide)
  · split at member
    · rename_i dotted
      rw [dotted] at clean
      exact absurd clean (by decide)
    · rw [List.mem_singleton.mp member]
      exact isNameChar_toLower clean

theorem IsName.lowerVisible {text : String} (isName : IsName text) :
    IsName (lowerVisible text) := by
  intro char member
  rw [toList_lowerVisible, List.mem_flatMap] at member
  rcases member with ⟨capital, inText, lowered⟩
  exact isNameChar_of_mem_lowerVisibleChar (isName capital inText) lowered

/-- The cleaned lower-case form of a text. -/
def lowerName (text : String) : String :=
  cleanName (lowerVisible text)

end BlockForge.Text
