import BlockForge.Proofs.Text.Runs
import Mathlib.Data.List.Basic

/-!
# Lowering and cleaning

A name is both lowered and cleaned, and it can matter what is done first.  A
character that no name may hold is cleaned away, unless it is lowered before and
its lower-case form starts with a letter.  Two characters are like this, and
`lowerName_eq_iff` says that the order does not matter exactly for the texts
without them.

Other characters may be lowered in any way that gives no name characters:
`cleanName_flatten` says that cleaning gives the same for all tables of
lower-case forms that do so.  Lowering a name changes nothing but the case of
letters (`lowerVisible_eq_iff`).
-/

namespace BlockForge.Text

/-- The characters that no name may hold although their lower-case forms start
with a letter: the Kelvin sign and the dotted capital I. -/
def hiddenLetters : List Char := ['\u212a', '\u0130']

theorem lowerVisibleChar_of_notMem {char : Char} (plain : char ∉ hiddenLetters) :
    lowerVisibleChar char = [char.toLower] := by
  simp only [hiddenLetters, List.mem_cons, List.not_mem_nil, or_false,
    not_or] at plain
  rw [lowerVisibleChar, if_neg plain.1, if_neg plain.2]

theorem isNameChar_hiddenLetters :
    ∀ char ∈ hiddenLetters, isNameChar char = false := by
  intro char hidden
  rcases List.mem_pair.mp hidden with rfl | rfl <;> decide

theorem toLower_of_isNameChar_eq_false {char : Char}
    (other : isNameChar char = false) : char.toLower = char := by
  have noLetterOrDigit : char.isAlphanum = false :=
    (Bool.or_eq_false_iff.mp other).1
  have noLetter : char.isAlpha = false :=
    (Bool.or_eq_false_iff.mp noLetterOrDigit).1
  exact toLower_of_isUpper_eq_false (Bool.or_eq_false_iff.mp noLetter).1

/-! ## Tables of lower-case forms -/

/-- What a table may have for a character, wherever it stands: one form for what
a cleaned text can show, and otherwise a run of characters that no name may
hold. -/
inductive LowersTo : Char → List Char → Prop
  | visible {char : Char}
      (shown : isNameChar char = true ∨ char ∈ hiddenLetters) :
      LowersTo char (lowerVisibleChar char)
  | other {char : Char} (hidden : isNameChar char = false)
      (plain : char ∉ hiddenLetters) (run : Run) (others : run.named = false) :
      LowersTo char run.chars

/-- Any two runs of other characters are cleaned alike. -/
theorem Run.cleanFrom_chars_of_other {run : Run} (others : run.named = false)
    (inRun : Bool) : cleanFrom inRun run.chars = if inRun then [] else ['_'] := by
  cases inRun with
  | true =>
      refine cleanFrom_true_of_forall fun char member => ?_
      rw [run.kind char member, others]
  | false =>
      rw [run.cleanFrom_chars, Run.cleaned, others]
      rfl

/-- The form in a table is cleaned as the visible form is, and so is what
follows. -/
theorem LowersTo.cleanFrom_append {char : Char} {form : List Char}
    (lowers : LowersTo char form) (inRun : Bool) {rest others : List Char}
    (same : ∀ inRun, cleanFrom inRun rest = cleanFrom inRun others) :
    cleanFrom inRun (form ++ rest) =
      cleanFrom inRun (lowerVisibleChar char ++ others) := by
  cases lowers with
  | visible shown => rw [Text.cleanFrom_append, Text.cleanFrom_append, same]
  | other hidden plain run ofOthers =>
      -- The character that is left as it is makes up a run by itself.
      have single : lowerVisibleChar char = (Run.single char).chars := by
        rw [lowerVisibleChar_of_notMem plain,
          toLower_of_isNameChar_eq_false hidden]
        rfl
      have alone : (Run.single char).named = false := hidden
      rw [Text.cleanFrom_append, Text.cleanFrom_append, single,
        Run.cleanFrom_chars_of_other ofOthers, Run.cleanFrom_chars_of_other alone,
        Run.endsInRun_chars, Run.endsInRun_chars, ofOthers, alone, same]

theorem cleanFrom_flatten {chars : List Char} {forms : List (List Char)}
    (lowers : List.Forall₂ LowersTo chars forms) :
    ∀ inRun, cleanFrom inRun forms.flatten =
      cleanFrom inRun (chars.flatMap lowerVisibleChar) := by
  induction lowers with
  | nil => exact fun _ => rfl
  | cons first others others_ih =>
      intro inRun
      rw [List.flatten_cons, List.flatMap_cons]
      exact first.cleanFrom_append inRun others_ih

/-- Whatever table a text is lowered by, its cleaned lower-case form is the
same. -/
theorem cleanName_flatten {text : String} {forms : List (List Char)}
    (lowers : List.Forall₂ LowersTo text.toList forms) :
    cleanName (String.ofList forms.flatten) = lowerName text := by
  apply String.toList_injective
  rw [lowerName, toList_cleanName, toList_cleanName, String.toList_ofList,
    toList_lowerVisible, cleanFrom_flatten lowers]

/-! ## Cleaning after lowering -/

/-- Without hidden letters, lowering neither makes nor unmakes a name
character, so it may be done before or after cleaning. -/
theorem cleanFrom_flatMap_lowerVisibleChar {chars : List Char}
    (plain : ∀ char ∈ chars, char ∉ hiddenLetters) :
    ∀ inRun, cleanFrom inRun (chars.flatMap lowerVisibleChar) =
      (cleanFrom inRun chars).flatMap lowerVisibleChar := by
  induction chars with
  | nil => exact fun _ => rfl
  | cons char chars chars_ih =>
      intro inRun
      rw [List.forall_mem_cons] at plain
      have rest := chars_ih plain.2
      rw [List.flatMap_cons, lowerVisibleChar_of_notMem plain.1,
        List.singleton_append]
      cases clean : isNameChar char with
      | true =>
          simp only [cleanFrom, isNameChar_toLower clean, clean, if_true, rest,
            List.flatMap_cons, lowerVisibleChar_of_notMem plain.1,
            List.singleton_append]
      | false =>
          have underscore : lowerVisibleChar '_' = ['_'] := by decide
          rw [toLower_of_isNameChar_eq_false clean]
          cases inRun <;>
            simp [cleanFrom, clean, rest, underscore]

/-! ## Letters and digits -/

/-- Cleaning loses and adds underscores only. -/
theorem countP_isAlphanum_cleanFrom (chars : List Char) :
    ∀ inRun, (cleanFrom inRun chars).countP Char.isAlphanum =
      chars.countP Char.isAlphanum := by
  induction chars with
  | nil => exact fun _ => rfl
  | cons char chars chars_ih =>
      intro inRun
      have underscore : Char.isAlphanum '_' = false := by decide
      cases clean : isNameChar char with
      | true =>
          simp only [cleanFrom, clean, if_true, List.countP_cons, chars_ih]
      | false =>
          have dropped : char.isAlphanum = false :=
            (Bool.or_eq_false_iff.mp clean).1
          cases inRun <;>
            simp [cleanFrom, clean, dropped, underscore, chars_ih]

/-- A letter stays a letter, any other character stays itself. -/
theorem isAlphanum_toLower (char : Char) :
    char.toLower.isAlphanum = char.isAlphanum := by
  cases capital : char.isUpper with
  | false => rw [toLower_of_isUpper_eq_false capital]
  | true =>
      have letter : char.isAlpha = true :=
        Bool.or_eq_true_iff.mpr (.inl capital)
      have alphanumeric : char.isAlphanum = true :=
        Bool.or_eq_true_iff.mpr (.inl letter)
      rw [alphanumeric, isAlphanum_of_isLower (isLower_toLower capital)]

/-- Lowering a text adds one letter for each hidden letter. -/
theorem countP_isAlphanum_lowerVisible (chars : List Char) :
    (chars.flatMap lowerVisibleChar).countP Char.isAlphanum =
      chars.countP Char.isAlphanum +
        chars.countP fun char => char ∈ hiddenLetters := by
  induction chars with
  | nil => rfl
  | cons char chars chars_ih =>
      rw [List.flatMap_cons, List.countP_append, chars_ih, List.countP_cons,
        List.countP_cons]
      by_cases hidden : char ∈ hiddenLetters
      · have one : (lowerVisibleChar char).countP Char.isAlphanum = 1 ∧
            char.isAlphanum = false := by
          rcases List.mem_pair.mp hidden with rfl | rfl <;> decide
        simp only [one, hidden, decide_true, if_true]
        simp
        omega
      · rw [lowerVisibleChar_of_notMem hidden, List.countP_singleton,
          isAlphanum_toLower]
        simp only [hidden, decide_false]
        simp
        omega

/-- It does not matter whether a text is lowered before or after cleaning exactly
if it holds no hidden letter. -/
theorem lowerName_eq_iff (text : String) :
    lowerName text = lowerVisible (cleanName text) ↔
      ∀ char ∈ text.toList, char ∉ hiddenLetters := by
  have lists : lowerName text = lowerVisible (cleanName text) ↔
      cleanFrom false (text.toList.flatMap lowerVisibleChar) =
        (cleanFrom false text.toList).flatMap lowerVisibleChar := by
    rw [← String.toList_inj, lowerName, toList_cleanName, toList_lowerVisible,
      toList_lowerVisible, toList_cleanName]
  rw [lists]
  constructor
  · intro same
    -- What is cleaned holds no hidden letter, so the right side has as many
    -- letters as the text.
    have none : (cleanFrom false text.toList).countP
        (fun char => char ∈ hiddenLetters) = 0 := by
      rw [List.countP_eq_zero]
      intro char member hidden
      have clean := isNameChar_of_mem_cleanFrom member
      rw [isNameChar_hiddenLetters char (of_decide_eq_true hidden)] at clean
      cases clean
    have letters := congrArg (List.countP Char.isAlphanum) same
    rw [countP_isAlphanum_cleanFrom, countP_isAlphanum_lowerVisible,
      countP_isAlphanum_lowerVisible, countP_isAlphanum_cleanFrom, none]
      at letters
    have no : text.toList.countP (fun char => char ∈ hiddenLetters) = 0 := by
      omega
    simpa [List.countP_eq_zero] using no
  · exact fun plain => cleanFrom_flatMap_lowerVisibleChar plain false

/-! ## Names in lower case -/

/-- Two texts differ at most in the case of letters. -/
def SameLetters (one other : String) : Prop :=
  one.toList.map Char.toLower = other.toList.map Char.toLower

theorem IsName.toList_lowerVisible {name : String} (isName : IsName name) :
    (Text.lowerVisible name).toList = name.toList.map Char.toLower := by
  have plain : ∀ char ∈ name.toList, lowerVisibleChar char = [char.toLower] := by
    intro char member
    apply lowerVisibleChar_of_notMem
    intro hidden
    have clean := isName char member
    rw [isNameChar_hiddenLetters char hidden] at clean
    cases clean
  rw [Text.toList_lowerVisible, List.flatMap_congr plain]
  exact List.flatMap_pure_eq_map Char.toLower name.toList

/-- Names are the same in lower case if they differ in the case of letters
only. -/
theorem lowerVisible_eq_iff {one other : String} (isName : IsName one)
    (otherIsName : IsName other) :
    lowerVisible one = lowerVisible other ↔ SameLetters one other := by
  rw [SameLetters, ← isName.toList_lowerVisible,
    ← otherIsName.toList_lowerVisible, String.toList_inj]

end BlockForge.Text
