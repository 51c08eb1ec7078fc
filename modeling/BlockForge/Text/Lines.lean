/-!
# Lines of a text

A line feed ends a line.  `indent` puts a lead before every line of a text; a
final line feed starts no further line, and the empty text has no line at all.
`splitLines` lists the lines of a text without their line ends.
-/

namespace BlockForge.Text

/-- Put `lead` after every line feed that another character follows. -/
def leadLines (lead : List Char) : List Char → List Char
  | [] => []
  | char :: rest =>
    if char = '\n' ∧ rest ≠ [] then char :: (lead ++ leadLines lead rest)
    else char :: leadLines lead rest

/-- Put `lead` before every line. -/
def indentChars (lead : List Char) : List Char → List Char
  | [] => []
  | char :: rest => lead ++ leadLines lead (char :: rest)

/-- Put `lead` before every line of `text`. -/
def indent (lead text : String) : String :=
  String.ofList (indentChars lead.toList text.toList)

@[simp]
theorem toList_indent (lead text : String) :
    (indent lead text).toList = indentChars lead.toList text.toList := by
  simp [indent]

theorem indentChars_of_ne_nil (lead : List Char) {chars : List Char}
    (nonempty : chars ≠ []) :
    indentChars lead chars = lead ++ leadLines lead chars := by
  cases chars with
  | nil => exact absurd rfl nonempty
  | cons char rest => rfl

/-- The pieces of a text between the separators; there is always one piece. -/
def splitAtChar (separator : Char) : List Char → List (List Char)
  | [] => [[]]
  | char :: rest =>
    if char = separator then [] :: splitAtChar separator rest
    else
      match splitAtChar separator rest with
      | [] => [[char]]
      | piece :: pieces => (char :: piece) :: pieces

/-- Drop a carriage return that closes a line. -/
def dropReturn (line : List Char) : List Char :=
  if line.getLast? = some '\r' then line.dropLast else line

/-- The lines of a text: a carriage return before a line feed belongs to the
line end, and what follows the last line feed is a line only if it is not
empty. -/
def splitLines (text : String) : List String :=
  let pieces := splitAtChar '\n' text.toList
  let closed := pieces.dropLast.map dropReturn
  let lines :=
    match pieces.getLast? with
    | some [] => closed
    | some last => closed ++ [last]
    | none => closed
  lines.map String.ofList

end BlockForge.Text
