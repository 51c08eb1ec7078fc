import BlockForge.Proofs.Json.Token
import Mathlib.Data.List.TakeWhile

/-!
# Steps of the readers

What the readers of values, of items and of entries make of a text is told by
its first token and by what they make of the rest.  Each step is an equation
here: the blanks in front, one item or entry and what follows it, and the
brackets around all of them.
-/

namespace BlockForge.Json

variable {takes : NumberLiteral → Bool}

/-! ## Blanks -/

/-- Characters that a document has between its tokens. -/
def AreBlank (gap : List Char) : Prop :=
  ∀ char ∈ gap, isBlank char = true

section Blanks

variable {gap : List Char} (blank : AreBlank gap)

include blank

theorem dropBlanks_append (chars : List Char) :
    dropBlanks (gap ++ chars) = dropBlanks chars :=
  List.dropWhile_append_of_pos blank

theorem readValue_blanks (bound : Nat) (chars : List Char) :
    readValue takes bound (gap ++ chars) = readValue takes bound chars := by
  cases bound with
  | zero => rfl
  | succ bound => simp only [readValue, dropBlanks_append blank]

theorem ends_blanks {rest : List Char} (ends : Ends rest) :
    Ends (gap ++ rest) := by
  cases gap with
  | nil => exact ends
  | cons char gap => exact ends_cons (.inl (blank char (by simp)))

theorem ends_delimiter {char : Char} (delimits : char ∈ [',', ']', '\x7d'])
    (rest : List Char) : Ends (gap ++ char :: rest) :=
  ends_blanks blank (ends_cons (.inr delimits))

end Blanks

theorem dropBlanks_eq_nil_iff {chars : List Char} :
    dropBlanks chars = [] ↔ AreBlank chars :=
  List.dropWhile_eq_nil_iff

/-! ## Items and entries -/

section Steps

variable {bound : Nat} {chars after rest : List Char} {value : Value}

theorem readItems_last
    (read : readValue takes bound chars = .ok (value, after))
    (closing : dropBlanks after = ']' :: rest) :
    readItems takes (bound + 1) chars = .ok ([value], rest) := by
  simp only [readItems, read, bind, Except.bind, closing]
  rfl

theorem readItems_more {more : List Char} {values : List Value}
    (read : readValue takes bound chars = .ok (value, after))
    (comma : dropBlanks after = ',' :: more)
    (others : readItems takes bound more = .ok (values, rest)) :
    readItems takes (bound + 1) chars = .ok (value :: values, rest) := by
  simp only [readItems, read, bind, Except.bind, comma, others]
  rfl

section Entry

variable {key : String} {behind : List Char}
  (reads : ∃ afterKey, readString (dropBlanks chars) = .ok (key, afterKey) ∧
    dropBlanks afterKey = ':' :: behind)
  (read : readValue takes bound behind = .ok (value, after))

include reads read

theorem readEntries_last (closing : dropBlanks after = '\x7d' :: rest) :
    readEntries takes (bound + 1) chars = .ok ([(key, value)], rest) := by
  rcases reads with ⟨afterKey, name, colon⟩
  simp only [readEntries, name, bind, Except.bind, colon, dropChar, if_pos, read,
    closing]
  rfl

theorem readEntries_more {more : List Char} {entries : List (String × Value)}
    (comma : dropBlanks after = ',' :: more)
    (others : readEntries takes bound more = .ok (entries, rest)) :
    readEntries takes (bound + 1) chars = .ok ((key, value) :: entries, rest) := by
  rcases reads with ⟨afterKey, name, colon⟩
  simp only [readEntries, name, bind, Except.bind, colon, dropChar, if_pos, read,
    comma, others]
  rfl

end Entry

end Steps

/-! ## Brackets -/

/-- No items start with a closing bracket. -/
theorem dropBlanks_ne_of_readItems {bound : Nat} {chars rest : List Char}
    {values : List Value} (reads : readItems takes bound chars = .ok (values, rest))
    (after : List Char) : dropBlanks chars ≠ ']' :: after := by
  intro closing
  cases bound with
  | zero => cases reads
  | succ bound =>
      have fails : readValue takes bound chars = .error .malformed := by
        cases bound with
        | zero => rfl
        | succ bound =>
            rw [readValue, closing]
            rfl
      rw [readItems, fails] at reads
      cases reads

/-- No entries start with a closing brace. -/
theorem dropBlanks_ne_of_readEntries {bound : Nat} {chars rest : List Char}
    {said : List (String × Value)}
    (reads : readEntries takes bound chars = .ok (said, rest))
    (after : List Char) : dropBlanks chars ≠ '\x7d' :: after := by
  intro closing
  cases bound with
  | zero => cases reads
  | succ bound =>
      rw [readEntries, closing] at reads
      cases reads

theorem readValue_emptyArray {bound : Nat} {chars rest : List Char}
    (closing : dropBlanks chars = ']' :: rest) :
    readValue takes (bound + 1) ('[' :: chars) = .ok (.array [], rest) := by
  have solid : dropBlanks ('[' :: chars) = '[' :: chars := rfl
  simp only [readValue, solid, closing]

theorem readValue_emptyObject {bound : Nat} {chars rest : List Char}
    (closing : dropBlanks chars = '\x7d' :: rest) :
    readValue takes (bound + 1) ('\x7b' :: chars) = .ok (.object [], rest) := by
  have solid : dropBlanks ('\x7b' :: chars) = '\x7b' :: chars := rfl
  simp only [readValue, solid, closing]

theorem readValue_array {bound : Nat} {chars rest : List Char} {values : List Value}
    (nonempty : ∀ after, dropBlanks chars ≠ ']' :: after)
    (items : readItems takes bound chars = .ok (values, rest)) :
    readValue takes (bound + 1) ('[' :: chars) = .ok (.array values, rest) := by
  have solid : dropBlanks ('[' :: chars) = '[' :: chars := rfl
  simp only [readValue, solid]
  rw [items]
  rfl

theorem readValue_object {bound : Nat} {chars rest : List Char}
    {said : List (String × Value)}
    (nonempty : ∀ after, dropBlanks chars ≠ '\x7d' :: after)
    (entries : readEntries takes bound chars = .ok (said, rest)) :
    readValue takes (bound + 1) ('\x7b' :: chars) =
      .ok (.object said, rest) := by
  have solid : dropBlanks ('\x7b' :: chars) = '\x7b' :: chars := rfl
  simp only [readValue, solid]
  rw [entries]
  rfl

end BlockForge.Json
