/-!
# Blank characters

The characters with the Unicode property White_Space, and trimming by it.
-/

namespace BlockForge.Text

/-- Whether a character has the property White_Space. -/
def isBlank (char : Char) : Bool :=
  let code := char.toNat
  (0x9 ≤ code && code ≤ 0xD) || code == 0x20 || code == 0x85 || code == 0xA0
    || code == 0x1680 || (0x2000 ≤ code && code ≤ 0x200A)
    || code == 0x2028 || code == 0x2029 || code == 0x202F
    || code == 0x205F || code == 0x3000

/-- Drop the blanks at the end of a text. -/
def dropBlankEnd (chars : List Char) : List Char :=
  (chars.reverse.dropWhile isBlank).reverse

/-- Drop the blanks at both ends of a text. -/
def trim (chars : List Char) : List Char :=
  dropBlankEnd (chars.dropWhile isBlank)

/-- A text without blanks is its own trimmed form. -/
theorem trim_of_forall {chars : List Char}
    (solid : ∀ char ∈ chars, isBlank char = false) : trim chars = chars := by
  have keep : ∀ list : List Char, (∀ char ∈ list, isBlank char = false) →
      list.dropWhile isBlank = list := by
    intro list listSolid
    cases list with
    | nil => rfl
    | cons head rest => simp [listSolid head (by simp)]
  have back : ∀ char ∈ chars.reverse, isBlank char = false :=
    fun char member => solid char (by simpa using member)
  rw [trim, dropBlankEnd, keep chars solid, keep _ back, List.reverse_reverse]

end BlockForge.Text
