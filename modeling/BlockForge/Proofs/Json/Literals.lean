import BlockForge.Json.Reader
import Mathlib.Tactic.SplitIfs

/-!
# The number literals of a text

Readers differ in the number literals that they take, and in nothing else: what
one reader makes of a text tells what every other reader makes of it.
`exists_meets` names the literals that a reader meets on its way through a text.
They have the numbers of the value that is read, in their order, and a reader
that refuses one of them stops there.
-/

namespace BlockForge.Json

namespace Value

mutual

/-- The numbers in a value, in the order of the document. -/
def numbers : Value → List Binary64
  | number value => [value]
  | array items => itemNumbers items
  | object members => entryNumbers members
  | _ => []

/-- The numbers in the items of an array. -/
def itemNumbers : List Value → List Binary64
  | [] => []
  | item :: rest => numbers item ++ itemNumbers rest

/-- The numbers in the values of an object. -/
def entryNumbers : List (String × Value) → List Binary64
  | [] => []
  | (_, value) :: rest => numbers value ++ entryNumbers rest

end

end Value

/-! ## Steps of a reader -/

/-- A step of a reader meets literals.  A reader that takes all of them goes on
with a result; every other one stops at a literal. -/
structure Meets {α : Type} (step : (NumberLiteral → Bool) → Except Fault α)
    (literals : List NumberLiteral) (result : α) : Prop where
  goes_on : ∀ takes, (∀ literal ∈ literals, takes literal = true) →
    step takes = .ok result
  stops : ∀ takes, (∃ literal ∈ literals, takes literal = false) →
    ∃ rest, step takes = .error (.outOfRange rest)

theorem Meets.bind {α β : Type}
    {first : (NumberLiteral → Bool) → Except Fault α} {early : List NumberLiteral}
    {middle : α} (meets : Meets first early middle)
    {next : α → (NumberLiteral → Bool) → Except Fault β}
    {late : List NumberLiteral} {result : β}
    (others : Meets (next middle) late result) :
    Meets (fun takes => first takes >>= fun found => next found takes)
      (early ++ late) result where
  goes_on := by
    intro takes all
    rw [List.forall_mem_append] at all
    rw [meets.goes_on takes all.1]
    exact others.goes_on takes all.2
  stops := by
    rintro takes ⟨literal, member, refused⟩
    by_cases takesEarly : ∀ literal ∈ early, takes literal = true
    · have inLate : literal ∈ late := by
        refine (List.mem_append.mp member).resolve_left fun inEarly => ?_
        rw [takesEarly literal inEarly] at refused
        cases refused
      rw [meets.goes_on takes takesEarly]
      exact others.stops takes ⟨literal, inLate, refused⟩
    · have refusesEarly : ∃ literal ∈ early, takes literal = false := by
        simpa using takesEarly
      rcases meets.stops takes refusesEarly with ⟨rest, stopped⟩
      exact ⟨rest, by rw [stopped]; rfl⟩

/-- What a step gives is told by literals, all of which are taken: every reader
meets them, and together with the numbers before the step they have the numbers
of the result. -/
def Explained {α : Type} (takes : NumberLiteral → Bool)
    (step : (NumberLiteral → Bool) → Except Fault α) (before : List Binary64)
    (numbers : α → List Binary64) : Prop :=
  ∀ result, step takes = .ok result →
    ∃ literals, Meets step literals result ∧
      before ++ literals.map NumberLiteral.value = numbers result ∧
        ∀ literal ∈ literals, takes literal = true

section

variable {α β : Type} {takes : NumberLiteral → Bool}
  {step : (NumberLiteral → Bool) → Except Fault α} {before : List Binary64}
  {numbers : α → List Binary64}

/-- A step that has no part in reading numbers meets no literals. -/
theorem explained_of_const {outcome : Except Fault α}
    (same : ∀ result, outcome = .ok result → before = numbers result) :
    Explained takes (fun _ => outcome) before numbers := by
  intro result reads
  refine ⟨[], ⟨fun _ _ => reads, ?_⟩, ?_, by simp⟩
  · rintro takes ⟨literal, impossible, _⟩
    cases impossible
  · simpa using same result reads

theorem explained_error (fault : Fault) :
    Explained takes (fun _ => .error fault) before numbers :=
  explained_of_const fun _ impossible => by cases impossible

theorem Explained.bind {middle : α → List Binary64}
    (explained : Explained takes step before middle)
    {next : α → (NumberLiteral → Bool) → Except Fault β}
    {total : β → List Binary64}
    (others : ∀ found, Explained takes (next found) (middle found) total) :
    Explained takes (fun takes => step takes >>= fun found => next found takes)
      before total := by
  intro result reads
  dsimp only at reads
  cases outcome : step takes with
  | error fault =>
      rw [outcome] at reads
      cases reads
  | ok found =>
      rw [outcome] at reads
      rcases explained found outcome with ⟨early, meets, firstNumbers, takesEarly⟩
      rcases others found result reads with ⟨late, rest, lastNumbers, takesLate⟩
      refine ⟨early ++ late, meets.bind rest, ?_, ?_⟩
      · rw [List.map_append, ← List.append_assoc, firstNumbers, lastNumbers]
      · exact List.forall_mem_append.mpr ⟨takesEarly, takesLate⟩

theorem Explained.map {middle : α → List Binary64}
    (explained : Explained takes step before middle) (wrap : α → β)
    {total : β → List Binary64}
    (same : ∀ found, middle found = total (wrap found)) :
    Explained takes (fun takes => step takes >>= fun found => .ok (wrap found))
      before total := by
  refine explained.bind fun found => explained_of_const ?_
  intro result wrapped
  cases wrapped
  exact same found

end

section

variable (takes : NumberLiteral → Bool) (before : List Binary64)

theorem explained_readNumber (chars : List Char) :
    Explained takes (fun takes => readNumber takes chars) before
      fun result => before ++ result.1.numbers := by
  intro result reads
  unfold readNumber at reads ⊢
  cases found : readNumberLiteral chars with
  | none =>
      rw [found] at reads
      cases reads
  | some read =>
      rcases read with ⟨literal, rest⟩
      simp only [found] at reads ⊢
      cases taken : takes literal with
      | false =>
          rw [taken] at reads
          cases reads
      | true =>
          rw [taken] at reads
          cases reads
          refine ⟨[literal], ⟨?_, ?_⟩, rfl, by simpa using taken⟩
          · intro takes all
            exact if_pos (all literal (by simp))
          · intro takes refused
            refine ⟨rest, if_neg ?_⟩
            simpa using refused

theorem numbers_of_readWord {word : String} {value : Value}
    (none : value.numbers = []) {chars : List Char} :
    ∀ result, readWord word value chars = .ok result →
      result.1.numbers = [] := by
  intro result reads
  unfold readWord at reads
  split_ifs at reads
  cases reads
  exact none

/-! ## Readers -/

/-- What explains one more reading within a bound. -/
structure ExplainedWithin (takes : NumberLiteral → Bool) (bound : Nat) :
    Prop where
  value : ∀ chars before,
    Explained takes (fun takes => readValue takes bound chars) before
      fun result => before ++ result.1.numbers
  items : ∀ chars before,
    Explained takes (fun takes => readItems takes bound chars) before
      fun result => before ++ Value.itemNumbers result.1
  entries : ∀ chars before,
    Explained takes (fun takes => readEntries takes bound chars) before
      fun result => before ++ Value.entryNumbers result.1

variable {bound : Nat}

/-- What explains the readings inside a value explains the reading of the
value. -/
theorem explained_readValue (within : ExplainedWithin takes bound)
    (chars : List Char) :
    Explained takes (fun takes => readValue takes (bound + 1) chars) before
      fun result => before ++ result.1.numbers := by
  have unnumbered : ∀ {outcome : Except Fault (Value × List Char)},
      (∀ result, outcome = .ok result → result.1.numbers = []) →
        Explained takes (fun _ => outcome) before
          fun result => before ++ result.1.numbers := by
    intro outcome none
    refine explained_of_const fun result reads => ?_
    rw [none result reads, List.append_nil]
  simp only [readValue]
  split
  · exact explained_error .malformed
  · rename_i rest _
    refine unnumbered fun result reads => ?_
    cases read : readString ('"' :: rest) with
    | error fault =>
        rw [read] at reads
        cases reads
    | ok found =>
        rw [read] at reads
        cases reads
        rfl
  · split
    · refine unnumbered fun result empty => ?_
      cases empty
      rfl
    · exact (within.items _ before).map
        (fun found => (Value.array found.1, found.2)) fun _ => rfl
  · split
    · refine unnumbered fun result empty => ?_
      cases empty
      rfl
    · exact (within.entries _ before).map
        (fun found => (Value.object found.1, found.2)) fun _ => rfl
  · exact unnumbered (numbers_of_readWord rfl)
  · exact unnumbered (numbers_of_readWord rfl)
  · exact unnumbered (numbers_of_readWord rfl)
  · exact explained_readNumber takes before _

theorem explained_readItems (within : ExplainedWithin takes bound)
    (chars : List Char) :
    Explained takes (fun takes => readItems takes (bound + 1) chars) before
      fun result => before ++ Value.itemNumbers result.1 := by
  simp only [readItems]
  refine (within.value chars before).bind fun found => ?_
  rcases found with ⟨item, afterItem⟩
  dsimp only
  split
  · rename_i rest _
    refine (within.items rest (before ++ item.numbers)).map _ fun others => ?_
    exact List.append_assoc ..
  · refine explained_of_const fun result last => ?_
    cases last
    simp [Value.itemNumbers]
  · exact explained_error .malformed

theorem explained_readEntries (within : ExplainedWithin takes bound)
    (chars : List Char) :
    Explained takes (fun takes => readEntries takes (bound + 1) chars) before
      fun result => before ++ Value.entryNumbers result.1 := by
  have unchanged : ∀ {α : Type} (outcome : Except Fault α),
      Explained takes (fun _ => outcome) before fun _ => before :=
    fun outcome => explained_of_const fun _ _ => rfl
  simp only [readEntries]
  refine (unchanged _).bind fun key => ?_
  rcases key with ⟨key, afterKey⟩
  refine (unchanged _).bind fun afterColon => ?_
  refine (within.value afterColon before).bind fun found => ?_
  rcases found with ⟨value, afterValue⟩
  dsimp only
  split
  · rename_i rest _
    refine (within.entries rest (before ++ value.numbers)).map _
      fun others => ?_
    exact List.append_assoc ..
  · refine explained_of_const fun result last => ?_
    cases last
    simp [Value.entryNumbers]
  · exact explained_error .malformed

/-- One more reading is explained within every bound. -/
theorem explainedWithin : ∀ bound, ExplainedWithin takes bound
  | 0 =>
    { value := fun _ _ => explained_error .malformed
      items := fun _ _ => explained_error .malformed
      entries := fun _ _ => explained_error .malformed }
  | bound + 1 =>
    { value := fun chars before =>
        explained_readValue takes before (explainedWithin bound) chars
      items := fun chars before =>
        explained_readItems takes before (explainedWithin bound) chars
      entries := fun chars before =>
        explained_readEntries takes before (explainedWithin bound) chars }

end

/-! ## Documents -/

/-- The literals that every reader meets in a document that one reader reads:
they have the numbers of its value. -/
theorem exists_meets {takes : NumberLiteral → Bool} {text : String}
    {value : Value} (reads : readWith takes text = .ok value) :
    ∃ literals, Meets (fun takes => readWith takes text) literals value ∧
      literals.map NumberLiteral.value = value.numbers ∧
        ∀ literal ∈ literals, takes literal = true := by
  have explained : Explained takes (fun takes => readWith takes text) []
      Value.numbers := by
    simp only [readWith]
    refine ((explainedWithin takes _).value text.toList []).bind fun found => ?_
    rcases found with ⟨value, rest⟩
    refine explained_of_const fun result last => ?_
    dsimp only at last
    split_ifs at last
    cases last
    rfl
  exact explained value reads

/-- What a reader reads is read by the one that takes all literals. -/
theorem read?_of_readWith {takes : NumberLiteral → Bool} {text : String}
    {value : Value} (reads : readWith takes text = .ok value) :
    read? text = some value := by
  rcases exists_meets reads with ⟨literals, meets, _, _⟩
  have all := meets.goes_on (fun _ => true) fun _ _ => rfl
  rw [read?, show readWith (fun _ => true) text = .ok value from all]
  rfl

end BlockForge.Json
