/-!
# Occurrences

A text occurs in another one if the other one is the text with something before
and something after it, possibly nothing.
-/

namespace BlockForge.Text

/-- Whether a list of characters goes on somewhere with `needle`. -/
def occursFrom (needle : List Char) : List Char → Bool
  | [] => needle.isEmpty
  | char :: rest =>
    needle.isPrefixOf (char :: rest) || occursFrom needle rest

/-- Whether `needle` occurs in `text`. -/
def occursIn (needle text : String) : Bool :=
  occursFrom needle.toList text.toList

/-- The texts in which a text occurs are those that hold it somewhere. -/
theorem occursFrom_iff {needle chars : List Char} :
    occursFrom needle chars = true ↔
      ∃ before after, chars = before ++ needle ++ after := by
  induction chars with
  | nil =>
    constructor
    · intro empty
      exact ⟨[], [], by simpa [occursFrom] using empty⟩
    · rintro ⟨before, after, found⟩
      have parts := List.append_eq_nil_iff.1 found.symm
      simp [occursFrom, (List.append_eq_nil_iff.1 parts.1).2]
  | cons char rest rest_ih =>
    simp only [occursFrom, Bool.or_eq_true, List.isPrefixOf_iff_prefix, rest_ih]
    constructor
    · rintro (⟨after, found⟩ | ⟨before, after, found⟩)
      · exact ⟨[], after, by simpa using found.symm⟩
      · exact ⟨char :: before, after, by simp [found]⟩
    · rintro ⟨before, after, found⟩
      cases before with
      | nil => exact .inl ⟨after, by simpa using found.symm⟩
      | cons head others =>
        simp only [List.cons_append, List.cons.injEq] at found
        exact .inr ⟨others, after, by simpa using found.2⟩

end BlockForge.Text
