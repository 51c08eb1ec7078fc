import BlockForge.Text.Name
import Mathlib.Data.List.Chain

/-!
# Maximal runs

A text falls into runs of characters that a name may hold and runs of other
characters.  Where the runs alternate they are maximal, and every text can be
cut like this.  Cleaning goes through a text once, with a flag for the character
before; what it writes is every run of name characters as it is and one
underscore for every other run.

`collapses` puts together what follows from this: cleaning a second time changes
nothing, the cleaned texts are the texts of name characters, and two texts are
cleaned one by one unless a run goes on from the first to the second.
-/

namespace BlockForge.Text

/-- The characters of a name are the letters and digits of ASCII and the
underscore. -/
theorem isNameChar_iff {char : Char} :
    isNameChar char = true ↔
      'A' ≤ char ∧ char ≤ 'Z' ∨ 'a' ≤ char ∧ char ≤ 'z' ∨
        '0' ≤ char ∧ char ≤ '9' ∨ char = '_' := by
  have capital : char.isUpper = true ↔ 'A' ≤ char ∧ char ≤ 'Z' := isUpper_iff
  have small : char.isLower = true ↔ 'a' ≤ char ∧ char ≤ 'z' :=
    Bool.and_eq_true_iff.trans (and_congr decide_eq_true_iff decide_eq_true_iff)
  have digit : char.isDigit = true ↔ '0' ≤ char ∧ char ≤ '9' :=
    Bool.and_eq_true_iff.trans (and_congr decide_eq_true_iff decide_eq_true_iff)
  have letter : char.isAlpha = true ↔ char.isUpper = true ∨ char.isLower = true :=
    Bool.or_eq_true_iff
  have alphanum : char.isAlphanum = true ↔
      char.isAlpha = true ∨ char.isDigit = true :=
    Bool.or_eq_true_iff
  rw [isNameChar, Bool.or_eq_true, beq_iff_eq, alphanum, letter, capital, small,
    digit, or_assoc, or_assoc]

/-! ## Runs -/

/-- Characters of one kind: all of them are name characters, or none. -/
structure Run where
  named : Bool
  chars : List Char
  ne_nil : chars ≠ []
  kind : ∀ char ∈ chars, isNameChar char = named

namespace Run

/-- A run of one character. -/
def single (char : Char) : Run where
  named := isNameChar char
  chars := [char]
  ne_nil := List.cons_ne_nil char []
  kind := by simp

/-- A run with one more character of its kind in front. -/
def cons (char : Char) (run : Run) (same : isNameChar char = run.named) :
    Run where
  named := run.named
  chars := char :: run.chars
  ne_nil := List.cons_ne_nil char run.chars
  kind := List.forall_mem_cons.mpr ⟨same, run.kind⟩

/-- What a cleaned text has for a run. -/
def cleaned (run : Run) : List Char :=
  if run.named then run.chars else ['_']

end Run

/-- Runs that make up a text.  Neighbours differ in kind, so none of the runs
could be longer. -/
structure MaximalRuns (runs : List Run) (chars : List Char) : Prop where
  flatMap_eq : runs.flatMap Run.chars = chars
  alternate : (runs.map Run.named).IsChain (· ≠ ·)

theorem exists_maximalRuns (chars : List Char) :
    ∃ runs, MaximalRuns runs chars := by
  induction chars with
  | nil => exact ⟨[], rfl, .nil⟩
  | cons char chars chars_ih =>
      rcases chars_ih with ⟨runs, rfl, alternate⟩
      cases runs with
      | nil => exact ⟨[.single char], rfl, .singleton _⟩
      | cons run runs =>
          by_cases same : isNameChar char = run.named
          · exact ⟨run.cons char same :: runs, rfl, alternate⟩
          · refine ⟨.single char :: run :: runs, rfl, ?_⟩
            exact List.isChain_cons_cons.mpr ⟨same, alternate⟩

/-! ## Cleaning run by run -/

/-- Whether cleaning is within a run of other characters behind a text. -/
def endsInRun (inRun : Bool) (chars : List Char) : Bool :=
  (chars.getLast?.map fun last => !isNameChar last).getD inRun

/-- Two parts of a text are cleaned one after the other, and the second is told
where the first ends. -/
theorem cleanFrom_append (inRun : Bool) (first second : List Char) :
    cleanFrom inRun (first ++ second) =
      cleanFrom inRun first ++ cleanFrom (endsInRun inRun first) second := by
  induction first generalizing inRun with
  | nil => rfl
  | cons char first first_ih =>
      have ends : endsInRun inRun (char :: first) =
          endsInRun (!isNameChar char) first := by
        cases first with
        | nil => rfl
        | cons next first =>
            rw [endsInRun, endsInRun, List.getLast?_cons_cons,
              List.getLast?_eq_some_getLast (List.cons_ne_nil next first)]
            rfl
      rw [ends, List.cons_append]
      cases clean : isNameChar char with
      | true =>
          simp only [cleanFrom, clean, if_true]
          rw [first_ih]
          rfl
      | false =>
          simp only [cleanFrom, clean, Bool.false_eq_true, if_false]
          cases inRun <;> simp [first_ih]

/-- Within a run, the underscore of the run is written already. -/
theorem cleanFrom_false_of_head {char : Char} {rest : List Char}
    (other : isNameChar char = false) :
    cleanFrom false (char :: rest) = '_' :: cleanFrom true (char :: rest) := by
  simp [cleanFrom, other]

/-- Where no run of other characters starts, it does not matter whether one
ended. -/
theorem cleanFrom_of_head {chars : List Char}
    (named : ∀ char ∈ chars.head?, isNameChar char = true) (inRun : Bool) :
    cleanFrom inRun chars = cleanFrom false chars := by
  cases chars with
  | nil => rfl
  | cons char rest => simp [cleanFrom, named char rfl]

theorem Run.endsInRun_chars (run : Run) (inRun : Bool) :
    endsInRun inRun run.chars = !run.named := by
  have last := List.getLast?_eq_some_getLast run.ne_nil
  rw [endsInRun, last, Option.map_some, Option.getD_some,
    run.kind _ (List.getLast_mem run.ne_nil)]

theorem cleanFrom_true_of_forall {chars : List Char}
    (other : ∀ char ∈ chars, isNameChar char = false) :
    cleanFrom true chars = [] := by
  induction chars with
  | nil => rfl
  | cons char rest rest_ih =>
      rw [List.forall_mem_cons] at other
      simp [cleanFrom, other.1, rest_ih other.2]

/-- A run is cleaned to itself or to an underscore. -/
theorem Run.cleanFrom_chars (run : Run) :
    cleanFrom false run.chars = run.cleaned := by
  rcases run with ⟨named, chars, some, kind⟩
  cases named with
  | true => exact cleanFrom_of_forall kind
  | false =>
      rcases List.exists_cons_of_ne_nil some with ⟨char, rest, rfl⟩
      rw [cleanFrom_false_of_head (kind char (by simp)),
        cleanFrom_true_of_forall kind]
      rfl

/-- Maximal runs are cleaned one by one. -/
theorem cleanFrom_flatMap_chars {runs : List Run}
    (alternate : (runs.map Run.named).IsChain (· ≠ ·)) :
    cleanFrom false (runs.flatMap Run.chars) = runs.flatMap Run.cleaned := by
  induction runs with
  | nil => rfl
  | cons run runs runs_ih =>
      have others := runs_ih alternate.tail
      rw [List.flatMap_cons, List.flatMap_cons, cleanFrom_append,
        run.cleanFrom_chars, run.endsInRun_chars, ← others]
      congr 1
      cases named : run.named with
      | true => rfl
      | false =>
          -- The next run is one of name characters, as runs alternate.
          apply cleanFrom_of_head
          intro char member
          cases runs with
          | nil => cases member
          | cons next runs =>
              have differs := (List.isChain_cons_cons.mp alternate).1
              rw [List.flatMap_cons, List.head?_append_of_ne_nil _ next.ne_nil]
                at member
              rw [next.kind char (List.mem_of_mem_head? member)]
              simpa [named] using differs

/-! ## Cleaned texts -/

/-- A character that no name may hold. -/
def IsOther (char : Char) : Prop := isNameChar char = false

/-- A run of other characters goes on from one text to the next. -/
def RunGoesOn (first second : String) : Prop :=
  (∃ last ∈ first.toList.getLast?, IsOther last) ∧
    ∃ head ∈ second.toList.head?, IsOther head

theorem cleanName_append_of_runGoesOn {first second : String}
    (goesOn : RunGoesOn first second) :
    ∃ rest, cleanName second = "_" ++ rest ∧
      cleanName (first ++ second) = cleanName first ++ rest := by
  rcases goesOn with ⟨⟨last, isLast, otherLast⟩, head, isHead, otherHead⟩
  refine ⟨String.ofList (cleanFrom true second.toList), ?_, ?_⟩
  · rcases List.head?_eq_some_iff.mp isHead with ⟨rest, chars⟩
    apply String.toList_injective
    rw [toList_cleanName, chars, cleanFrom_false_of_head otherHead]
    simp
  · have inRun : endsInRun false first.toList = true := by
      rw [endsInRun, Option.mem_def.mp isLast]
      simpa [IsOther] using otherLast
    apply String.toList_injective
    simp [cleanFrom_append, inRun]

theorem cleanName_append_of_not_runGoesOn {first second : String}
    (stops : ¬ RunGoesOn first second) :
    cleanName (first ++ second) = cleanName first ++ cleanName second := by
  apply String.toList_injective
  simp only [toList_cleanName, String.toList_append, cleanFrom_append,
    List.append_cancel_left_eq]
  cases inRun : endsInRun false first.toList with
  | false => rfl
  | true =>
      apply cleanFrom_of_head
      intro head isHead
      by_contra other
      refine stops ⟨?_, head, isHead, by simpa [IsOther] using other⟩
      cases isLast : first.toList.getLast? with
      | none =>
          rw [endsInRun, isLast] at inRun
          cases inRun
      | some last =>
          rw [endsInRun, isLast] at inRun
          exact ⟨last, rfl, by simpa [IsOther] using inRun⟩

/-- How cleaning a text collapses its runs. -/
structure Collapses (text : String) : Prop where
  exists_maximalRuns : ∃ runs, MaximalRuns runs text.toList
  /-- Each maximal run of other characters is replaced by one underscore. -/
  eq_cleaned : ∀ runs, MaximalRuns runs text.toList →
    cleanName text = String.ofList (runs.flatMap Run.cleaned)
  cleanName_cleanName : cleanName (cleanName text) = cleanName text
  eq_self_iff : cleanName text = text ↔
    ∀ char ∈ text.toList, 'A' ≤ char ∧ char ≤ 'Z' ∨ 'a' ≤ char ∧ char ≤ 'z' ∨
      '0' ≤ char ∧ char ≤ '9' ∨ char = '_'
  /-- A run that goes on in the next text has one underscore in the two. -/
  append_of_runGoesOn : ∀ next, RunGoesOn text next →
    ∃ rest, cleanName next = "_" ++ rest ∧
      cleanName (text ++ next) = cleanName text ++ rest
  /-- Otherwise the two texts are cleaned one by one. -/
  append_of_not_runGoesOn : ∀ next, ¬ RunGoesOn text next →
    cleanName (text ++ next) = cleanName text ++ cleanName next

/-- Cleaning writes one underscore for every maximal run of characters that no
name may hold, and nothing else is changed. -/
theorem collapses (text : String) : Collapses text where
  exists_maximalRuns := exists_maximalRuns text.toList
  eq_cleaned := by
    intro runs maximal
    rw [cleanName, ← maximal.flatMap_eq,
      cleanFrom_flatMap_chars maximal.alternate]
  cleanName_cleanName := cleanName_eq_self_iff.mpr (isName_cleanName text)
  eq_self_iff := by
    rw [cleanName_eq_self_iff]
    exact forall₂_congr fun char member => isNameChar_iff
  append_of_runGoesOn := fun _ goesOn => cleanName_append_of_runGoesOn goesOn
  append_of_not_runGoesOn := fun _ stops =>
    cleanName_append_of_not_runGoesOn stops

example : cleanName "  _go -- on!" = "__go_on_" := by decide

end BlockForge.Text
