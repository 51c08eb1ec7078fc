import BlockForge.Text.Lines

/-!
# Lines and indentation

A text is a list of lines and the news whether the last of them is closed by a
line feed: `lines` and `isClosed` take a text apart and `joinLines` puts it
together again.  Indentation is what this view says it is: the lead stands
before every line, and the end of the text stays.

The final theorem is about a lead on a single line.  Such a lead changes neither
the number of lines nor the end of the text, so that a second lead meets the same
lines, and removing the lead from every line gives the text back.
-/

namespace BlockForge.Text

/-! ## Lines -/

/-- The lines of a text without their line feeds.  What follows the last line
feed is a line only if it is not empty. -/
def lines : List Char → List (List Char)
  | [] => []
  | char :: rest =>
    if char = '\n' then [] :: lines rest
    else
      match lines rest with
      | [] => [[char]]
      | line :: others => (char :: line) :: others

/-- Whether a line feed closes the last line of a text. -/
def isClosed (chars : List Char) : Bool :=
  chars.getLast? = some '\n'

/-- Lines as one text, with a line feed after the last line if it is closed. -/
def joinLines (closed : Bool) : List (List Char) → List Char
  | [] => []
  | [line] => line ++ if closed then ['\n'] else []
  | line :: next :: others =>
    line ++ '\n' :: joinLines closed (next :: others)

@[simp]
theorem lines_lineFeed (rest : List Char) :
    lines ('\n' :: rest) = [] :: lines rest := rfl

theorem lines_singleton (char : Char) :
    lines [char] = [if char = '\n' then [] else [char]] := by
  by_cases lineFeed : char = '\n' <;> simp [lines, lineFeed]

theorem lines_cons_of_eq {char : Char} {rest line : List Char}
    {others : List (List Char)} (differs : char ≠ '\n')
    (listed : lines rest = line :: others) :
    lines (char :: rest) = (char :: line) :: others := by
  simp [lines, differs, listed]

theorem exists_lines_eq {chars : List Char} (some : chars ≠ []) :
    ∃ line others, lines chars = line :: others := by
  cases chars with
  | nil => exact absurd rfl some
  | cons char rest =>
      unfold lines
      split
      · exact ⟨[], lines rest, rfl⟩
      · split <;> exact ⟨_, _, rfl⟩

/-- A text without line feeds leads the first line of what follows it. -/
theorem lines_append {front : List Char} (single : '\n' ∉ front)
    {chars line : List Char} {others : List (List Char)}
    (listed : lines chars = line :: others) :
    lines (front ++ chars) = (front ++ line) :: others := by
  induction front with
  | nil => exact listed
  | cons char front front_ih =>
      rw [List.mem_cons, not_or] at single
      exact lines_cons_of_eq (Ne.symm single.1) (front_ih single.2)

@[simp]
theorem isClosed_cons_cons (first second : Char) (rest : List Char) :
    isClosed (first :: second :: rest) = isClosed (second :: rest) := by
  simp [isClosed]

theorem isClosed_append {front chars : List Char} (some : chars ≠ []) :
    isClosed (front ++ chars) = isClosed chars := by
  rcases List.exists_cons_of_ne_nil some with ⟨char, rest, rfl⟩
  simp [isClosed, List.getLast?_append]

theorem joinLines_append_cons (closed : Bool) (front line : List Char)
    (others : List (List Char)) :
    joinLines closed ((front ++ line) :: others) =
      front ++ joinLines closed (line :: others) := by
  cases others <;> simp [joinLines]

theorem joinLines_cons_cons (closed : Bool) (char : Char) (line : List Char)
    (others : List (List Char)) :
    joinLines closed ((char :: line) :: others) =
      char :: joinLines closed (line :: others) :=
  joinLines_append_cons closed [char] line others

theorem joinLines_singleton (char : Char) :
    joinLines (isClosed [char]) [if char = '\n' then [] else [char]] = [char] := by
  by_cases lineFeed : char = '\n' <;> simp [joinLines, isClosed, lineFeed]

/-- The lines and the end of a text make up the text. -/
theorem joinLines_lines (chars : List Char) :
    joinLines (isClosed chars) (lines chars) = chars := by
  induction chars with
  | nil => rfl
  | cons char rest rest_ih =>
      cases rest with
      | nil => rw [lines_singleton, joinLines_singleton]
      | cons next rest =>
          rcases exists_lines_eq (List.cons_ne_nil next rest) with
            ⟨line, others, listed⟩
          rw [isClosed_cons_cons]
          rw [listed] at rest_ih
          by_cases lineFeed : char = '\n'
          · rw [lineFeed, lines_lineFeed, listed, joinLines, rest_ih]
            rfl
          · rw [lines_cons_of_eq lineFeed listed, joinLines_cons_cons, rest_ih]

/-! ## Leads -/

section Leads

variable (lead : List Char)

theorem leadLines_singleton (char : Char) : leadLines lead [char] = [char] := by
  simp [leadLines]

theorem leadLines_ne_nil {chars : List Char} (some : chars ≠ []) :
    leadLines lead chars ≠ [] := by
  rcases List.exists_cons_of_ne_nil some with ⟨char, rest, rfl⟩
  unfold leadLines
  split <;> exact List.cons_ne_nil _ _

theorem isClosed_leadLines (chars : List Char) :
    isClosed (leadLines lead chars) = isClosed chars := by
  induction chars with
  | nil => rfl
  | cons char rest rest_ih =>
      cases rest with
      | nil => rw [leadLines_singleton]
      | cons next rest =>
          have some := leadLines_ne_nil lead (List.cons_ne_nil next rest)
          rw [isClosed_cons_cons, ← rest_ih, leadLines]
          split
          · rw [← List.cons_append, isClosed_append some]
          · rw [← List.singleton_append, isClosed_append some]

/-- The lead comes before all lines but the first. -/
theorem leadLines_eq_joinLines {chars line : List Char}
    {others : List (List Char)} (listed : lines chars = line :: others) :
    leadLines lead chars =
      joinLines (isClosed chars) (line :: others.map (lead ++ ·)) := by
  induction chars generalizing line others with
  | nil => cases listed
  | cons char rest rest_ih =>
      cases rest with
      | nil =>
          rw [lines_singleton] at listed
          cases listed
          rw [leadLines_singleton, List.map_nil, joinLines_singleton]
      | cons next rest =>
          rcases exists_lines_eq (List.cons_ne_nil next rest) with
            ⟨second, later, listedRest⟩
          have leads := rest_ih listedRest
          rw [isClosed_cons_cons]
          by_cases lineFeed : char = '\n'
          · rw [lineFeed, lines_lineFeed, listedRest] at listed
            cases listed
            rw [leadLines, if_pos ⟨lineFeed, List.cons_ne_nil next rest⟩, leads,
              List.map_cons, joinLines, joinLines_append_cons, lineFeed]
            rfl
          · rw [lines_cons_of_eq lineFeed listedRest] at listed
            cases listed
            rw [leadLines, if_neg fun both => lineFeed both.1, leads,
              joinLines_cons_cons]

/-- Indentation puts the lead before every line and leaves the end of the text
as it is. -/
theorem indentChars_eq_joinLines (chars : List Char) :
    indentChars lead chars =
      joinLines (isClosed chars) ((lines chars).map (lead ++ ·)) := by
  by_cases none : chars = []
  · rw [none]
    rfl
  · rcases exists_lines_eq none with ⟨line, others, listed⟩
    rw [indentChars_of_ne_nil lead none, leadLines_eq_joinLines lead listed,
      listed, List.map_cons, joinLines_append_cons]

theorem isClosed_indentChars (chars : List Char) :
    isClosed (indentChars lead chars) = isClosed chars := by
  by_cases none : chars = []
  · rw [none]
    rfl
  · rw [indentChars_of_ne_nil lead none,
      isClosed_append (leadLines_ne_nil lead none), isClosed_leadLines]

end Leads

section SingleLine

variable {lead : List Char} (single : '\n' ∉ lead)

include single

theorem lines_leadLines {chars line : List Char} {others : List (List Char)}
    (listed : lines chars = line :: others) :
    lines (leadLines lead chars) = line :: others.map (lead ++ ·) := by
  induction chars generalizing line others with
  | nil => cases listed
  | cons char rest rest_ih =>
      by_cases none : rest = []
      · subst none
        rw [lines_singleton] at listed
        cases listed
        rw [leadLines_singleton, lines_singleton, List.map_nil]
      · rcases exists_lines_eq none with ⟨second, later, listedRest⟩
        have leads := rest_ih listedRest
        by_cases lineFeed : char = '\n'
        · rw [lineFeed, lines_lineFeed, listedRest] at listed
          cases listed
          rw [leadLines, if_pos ⟨lineFeed, none⟩, lineFeed, lines_lineFeed,
            lines_append single leads]
          rfl
        · rw [lines_cons_of_eq lineFeed listedRest] at listed
          cases listed
          rw [leadLines, if_neg fun both => lineFeed both.1,
            lines_cons_of_eq lineFeed leads]

/-- A lead on a single line makes no further lines. -/
theorem lines_indentChars (chars : List Char) :
    lines (indentChars lead chars) = (lines chars).map (lead ++ ·) := by
  by_cases none : chars = []
  · rw [none]
    rfl
  · rcases exists_lines_eq none with ⟨line, others, listed⟩
    rw [indentChars_of_ne_nil lead none,
      lines_append single (lines_leadLines single listed), listed,
      List.map_cons]

end SingleLine

/-! ## Removing a lead -/

/-- Remove a lead from the start of a line that has it. -/
def dropLead (lead line : List Char) : List Char :=
  if lead <+: line then line.drop lead.length else line

/-- Remove a lead from the start of every line that has it. -/
def unindent (lead text : String) : String :=
  String.ofList (joinLines (isClosed text.toList)
    ((lines text.toList).map (dropLead lead.toList)))

theorem dropLead_append (lead line : List Char) :
    dropLead lead (lead ++ line) = line := by
  rw [dropLead, if_pos (List.prefix_append lead line), List.drop_left]

/-- How a text is indented by a lead on a single line. -/
structure IndentsBy (lead text : String) : Prop where
  /-- A further lead is put before the first one. -/
  indent_indent : ∀ outer,
    indent outer (indent lead text) = indent (outer ++ lead) text
  /-- The lead stands before every line, in front of what the line was. -/
  lines_eq : lines (indent lead text).toList =
    (lines text.toList).map (lead.toList ++ ·)
  /-- The lead can be removed from every line. -/
  unindent_eq : unindent lead (indent lead text) = text
  /-- There are as many lines as before. -/
  length_eq : (lines (indent lead text).toList).length =
    (lines text.toList).length
  /-- The last line is closed if it was. -/
  isClosed_eq : isClosed (indent lead text).toList = isClosed text.toList

/-- A lead without line feeds stands before the lines that the text has, so leads
compose, and a lead can be removed. -/
theorem indentsBy {lead : String} (single : '\n' ∉ lead.toList) (text : String) :
    IndentsBy lead text where
  indent_indent := by
    intro outer
    apply String.toList_injective
    calc (indent outer (indent lead text)).toList
        = joinLines (isClosed (indentChars lead.toList text.toList))
            ((lines (indentChars lead.toList text.toList)).map
              (outer.toList ++ ·)) := by
          rw [toList_indent, toList_indent, indentChars_eq_joinLines]
      _ = joinLines (isClosed text.toList)
            ((lines text.toList).map ((outer ++ lead).toList ++ ·)) := by
          rw [isClosed_indentChars, lines_indentChars single]
          simp [Function.comp_def]
      _ = (indent (outer ++ lead) text).toList := by
          rw [toList_indent, indentChars_eq_joinLines]
  lines_eq := by rw [toList_indent, lines_indentChars single]
  unindent_eq := by
    rw [unindent, toList_indent, isClosed_indentChars, lines_indentChars single,
      List.map_map]
    have drops : dropLead lead.toList ∘ (lead.toList ++ ·) = id :=
      funext fun line => dropLead_append lead.toList line
    rw [drops, List.map_id, joinLines_lines, String.ofList_toList]
  length_eq := by
    rw [toList_indent, lines_indentChars single, List.length_map]
  isClosed_eq := by rw [toList_indent, isClosed_indentChars]

theorem indentsBy_spaces :
    '\n' ∉ "  ".toList ∧ IndentsBy "  " "a\n\nb\n" ∧
      indent "> " (indent "  " "a\n\nb\n") = ">   a\n>   \n>   b\n" := by
  have single : '\n' ∉ "  ".toList := by decide
  have indents := indentsBy single "a\n\nb\n"
  refine ⟨single, indents, ?_⟩
  rw [indents.indent_indent]
  decide

end BlockForge.Text
