import BlockForge.BlockFile.Load
import Mathlib.Data.List.Nodup
import Mathlib.Data.Nat.Find
import Mathlib.Order.Bounds.Basic

/-!
# Options of a dropdown that its fields imply

A file need not list the options of a dropdown: they are found in the fields,
index by index, up to the first index without a field.  `Collects` is this
search, which no number bounds.  It ends because the fields of different
indices have different keys and a table has only so many of them;
`implies_options` says what it finds and which fields matter to it.
-/

namespace BlockForge

namespace FieldKey

/-- The keys, without an index, that show that there is an option. -/
def optionKeys : List String := [source, optionValue, optionText]

/-- A key with an index tells what it was made from. -/
theorem indexed_inj {first second : String} (isFirst : first ∈ optionKeys)
    (isSecond : second ∈ optionKeys) {index other : Nat}
    (same : indexed first index = indexed second other) :
    first = second ∧ index = other := by
  have nonempty : ∀ key ∈ optionKeys, key.toList ≠ [] := by decide
  have initials : ∀ key ∈ optionKeys, ∀ next ∈ optionKeys,
      key.toList.head? = next.toList.head? → key = next := by
    decide
  have heads := congrArg (fun key => key.toList.head?) same
  rw [head?_indexed (nonempty first isFirst),
    head?_indexed (nonempty second isSecond)] at heads
  have keys := initials first isFirst second isSecond heads
  subst keys
  exact ⟨rfl, indexed_injective first same⟩

end FieldKey

namespace FieldTable

/-- A table has a field for the option of an index. -/
def HasOption (fields : FieldTable) (index : Nat) : Prop :=
  ∃ key ∈ FieldKey.optionKeys,
    (fields.get? (FieldKey.indexed key index)).isSome = true

theorem mem_keys_of_get? {fields : FieldTable} {key : String}
    (found : (fields.get? key).isSome = true) :
    key ∈ fields.entries.map Prod.fst := by
  rcases List.lookup_isSome_iff.mp found with ⟨entry, member, same⟩
  rw [beq_iff_eq.mp same]
  exact List.mem_map_of_mem member

/-- A table has options for at most as many indices as it has fields. -/
theorem le_length_of_hasOption {fields : FieldTable} {count : Nat}
    (all : ∀ index < count, fields.HasOption index) :
    count ≤ fields.entries.length := by
  have named : ∀ index, ∃ name, index < count →
      (∃ key ∈ FieldKey.optionKeys, name = FieldKey.indexed key index) ∧
        name ∈ fields.entries.map Prod.fst := by
    intro index
    by_cases less : index < count
    · rcases all index less with ⟨key, isKey, found⟩
      exact ⟨_, fun _ => ⟨⟨key, isKey, rfl⟩, mem_keys_of_get? found⟩⟩
    · exact ⟨"", fun impossible => absurd impossible less⟩
  choose name named using named
  have distinct : ((List.range count).map name).Nodup := by
    apply List.Nodup.map_on _ List.nodup_range
    intro first isFirst second isSecond same
    rcases (named first (List.mem_range.mp isFirst)).1 with ⟨key, isKey, shown⟩
    rcases (named second (List.mem_range.mp isSecond)).1 with
      ⟨other, isOther, shownOther⟩
    rw [shown, shownOther] at same
    exact (FieldKey.indexed_inj isKey isOther same).2
  have inside : (List.range count).map name ⊆ fields.entries.map Prod.fst := by
    intro key member
    rcases List.mem_map.mp member with ⟨index, inRange, rfl⟩
    exact (named index (List.mem_range.mp inRange)).2
  simpa using distinct.length_le_of_subset inside

/-- There is a first index without a field. -/
theorem exists_gap (fields : FieldTable) :
    ∃ gap, IsLeast {index | ¬ fields.HasOption index} gap ∧
      gap ≤ fields.entries.length := by
  classical
  have some : ∃ index, ¬ fields.HasOption index := by
    by_contra none
    rw [not_exists_not] at none
    have many := le_length_of_hasOption fun index
      (_ : index < fields.entries.length + 1) => none index
    omega
  refine ⟨Nat.find some, ⟨Nat.find_spec some, fun index gap =>
    Nat.find_min' some gap⟩, le_length_of_hasOption fun index less => ?_⟩
  exact not_not.mp (Nat.find_min some less)

end FieldTable

namespace Blueprint

variable {fields : FieldTable}

theorem optionAt?_eq_none_iff {index : Nat} :
    optionAt? fields index = none ↔ ¬ fields.HasOption index := by
  simp only [optionAt?, FieldTable.HasOption, FieldKey.optionKeys,
    List.mem_cons, List.not_mem_nil, or_false, exists_eq_or_imp,
    exists_eq_left]
  split_ifs with image text
  · simp [image]
  · simp [text]
  · simp [image, text]

/-- What an option shows if there is one: a picture if there is a source of
one. -/
def shownAt (fields : FieldTable) (index : Nat) : OptionKind :=
  if (fields.get? (FieldKey.indexed FieldKey.source index)).isSome then .image
  else .text

theorem optionAt?_eq_some_iff {index : Nat} {kind : OptionKind} :
    optionAt? fields index = some kind ↔
      fields.HasOption index ∧ kind = shownAt fields index := by
  simp only [optionAt?, shownAt, FieldTable.HasOption, FieldKey.optionKeys,
    List.mem_cons, List.not_mem_nil, or_false, exists_eq_or_imp,
    exists_eq_left]
  split_ifs with image text
  · simp only [Option.some.injEq, image, true_or, true_and]
    exact eq_comm
  · simp only [Option.some.injEq, text, or_true, true_and]
    exact eq_comm
  · simp [image, text]

/-! ## The options below the first gap -/

theorem optionAt?_of_lt {gap index : Nat}
    (least : IsLeast {index | ¬ fields.HasOption index} gap)
    (less : index < gap) :
    optionAt? fields index = some (shownAt fields index) := by
  refine optionAt?_eq_some_iff.mpr ⟨?_, rfl⟩
  by_contra none
  exact absurd (least.2 none) (Nat.not_le.mpr less)

/-- The options are those of the indices below the first gap. -/
theorem impliedOptions_eq {gap : Nat}
    (least : IsLeast {index | ¬ fields.HasOption index} gap)
    (bounded : gap ≤ fields.entries.length) :
    impliedOptions fields = (List.range gap).map (shownAt fields) := by
  rcases Nat.exists_eq_add_of_le bounded with ⟨more, size⟩
  have below : (List.range gap).map (optionAt? fields) =
      (List.range gap).map fun index => some (shownAt fields index) :=
    List.map_congr_left fun index inRange =>
      optionAt?_of_lt least (List.mem_range.mp inRange)
  have stops : (((List.range more).map (gap + ·)).map
      (optionAt? fields)).takeWhile Option.isSome = [] := by
    cases more with
    | zero => rfl
    | succ more =>
        have none : optionAt? fields gap = none :=
          optionAt?_eq_none_iff.mpr least.1
        simp [List.range_succ_eq_map, none]
  rw [impliedOptions, size, List.range_add, List.map_append, below,
    List.takeWhile_append_of_pos (by simp), stops, List.append_nil,
    List.filterMap_map]
  exact congrFun List.filterMap_eq_map _

/-- The fields imply an option for each index below the first gap. -/
theorem exists_impliedOptions_eq (fields : FieldTable) :
    ∃ gap, IsLeast {index | ¬ fields.HasOption index} gap ∧
      impliedOptions fields = (List.range gap).map (shownAt fields) := by
  rcases fields.exists_gap with ⟨gap, least, bounded⟩
  exact ⟨gap, least, impliedOptions_eq least bounded⟩

/-! ## The search -/

/-- The search for options goes on from those found so far: it takes the next
one as long as there are fields for it, and ends at the first index without. -/
inductive Collects (fields : FieldTable) :
    List OptionKind → List OptionKind → Prop
  | stop {found : List OptionKind} :
    optionAt? fields found.length = none → Collects fields found found
  | next {found options : List OptionKind} {kind : OptionKind} :
    optionAt? fields found.length = some kind →
      Collects fields (found ++ [kind]) options → Collects fields found options

theorem Collects.unique {found options others : List OptionKind}
    (first : Collects fields found options)
    (second : Collects fields found others) : options = others := by
  induction first with
  | stop none =>
      cases second with
      | stop => rfl
      | next some => cases none.symm.trans some
  | next some _ rest_ih =>
      cases second with
      | stop none => cases none.symm.trans some
      | next other rest =>
          cases some.symm.trans other
          exact rest_ih rest

/-- From every index up to the first gap on, the search ends at the gap. -/
theorem collects_of_le {gap : Nat}
    (least : IsLeast {index | ¬ fields.HasOption index} gap) {count : Nat}
    (le : count ≤ gap) :
    Collects fields ((List.range count).map (shownAt fields))
      ((List.range gap).map (shownAt fields)) := by
  induction le using Nat.decreasingInduction with
  | self =>
      refine .stop ?_
      rw [List.length_map, List.length_range, optionAt?_eq_none_iff]
      exact least.1
  | of_succ count less rest =>
      rw [List.range_succ, List.map_append] at rest
      refine .next ?_ rest
      rw [List.length_map, List.length_range]
      exact optionAt?_of_lt least less

/-- The search ends, with the implied options. -/
theorem collects_iff {options : List OptionKind} :
    Collects fields [] options ↔ options = impliedOptions fields := by
  rcases exists_impliedOptions_eq fields with ⟨gap, least, implied⟩
  have ends : Collects fields [] (impliedOptions fields) := by
    rw [implied]
    exact collects_of_le least (Nat.zero_le gap)
  exact ⟨fun collects => collects.unique ends, fun same => same ▸ ends⟩

/-! ## What matters to the search -/

/-- The options that fields imply, and on what fields they depend. -/
structure ImpliesOptions (fields : FieldTable) (options : List OptionKind) :
    Prop where
  /-- The search ends, and finds these options. -/
  collects_iff : ∀ found, Collects fields [] found ↔ found = options
  /-- There is an option for each index below the first without a field. -/
  length_isLeast : IsLeast {index | ¬ fields.HasOption index} options.length
  getElem_iff : ∀ index (inside : index < options.length),
    options[index] = .image ↔
      (fields.get? (FieldKey.indexed FieldKey.source index)).isSome = true
  /-- Only the keys of options up to the first gap matter. -/
  eq_of_keys : ∀ others : FieldTable,
    (∀ key ∈ FieldKey.optionKeys, ∀ index ≤ options.length,
      (others.get? (FieldKey.indexed key index)).isSome =
        (fields.get? (FieldKey.indexed key index)).isSome) →
      impliedOptions others = options
  insert_of_lt : ∀ key ∈ FieldKey.optionKeys, ∀ index, options.length < index →
    ∀ value,
      impliedOptions (fields.insert (FieldKey.indexed key index) value) = options
  /-- A further field takes no option away. -/
  length_le_insert : ∀ key value,
    options.length ≤ (impliedOptions (fields.insert key value)).length

theorem isLeast_congr {others : FieldTable} {gap : Nat}
    (least : IsLeast {index | ¬ fields.HasOption index} gap)
    (same : ∀ key ∈ FieldKey.optionKeys, ∀ index ≤ gap,
      (others.get? (FieldKey.indexed key index)).isSome =
        (fields.get? (FieldKey.indexed key index)).isSome) :
    IsLeast {index | ¬ others.HasOption index} gap := by
  have sameOption : ∀ index ≤ gap,
      (others.HasOption index ↔ fields.HasOption index) := by
    intro index le
    refine exists_congr fun key => and_congr_right fun isKey => ?_
    rw [same key isKey index le]
  refine ⟨fun has => least.1 ((sameOption gap le_rfl).mp has), ?_⟩
  intro index none
  by_contra less
  have before : index ≤ gap := Nat.le_of_not_le less
  exact less (least.2 fun has => none ((sameOption index before).mpr has))

theorem shownAt_congr {others : FieldTable} {index : Nat}
    (same : ∀ key ∈ FieldKey.optionKeys,
      (others.get? (FieldKey.indexed key index)).isSome =
        (fields.get? (FieldKey.indexed key index)).isSome) :
    shownAt others index = shownAt fields index := by
  rw [shownAt, shownAt, same FieldKey.source (by decide)]

/-- A further field leaves the keys of other indices alone. -/
theorem isSome_insert_indexed {key other : String}
    (isKey : key ∈ FieldKey.optionKeys) (isOther : other ∈ FieldKey.optionKeys)
    {index place : Nat} (differs : index ≠ place) (value : FieldValue) :
    ((fields.insert (FieldKey.indexed key place) value).get?
        (FieldKey.indexed other index)).isSome =
      (fields.get? (FieldKey.indexed other index)).isSome := by
  rw [FieldTable.get?_insert, if_neg]
  exact fun same => differs (FieldKey.indexed_inj isOther isKey same).2

theorem hasOption_insert {index : Nat} (has : fields.HasOption index)
    (key : String) (value : FieldValue) :
    (fields.insert key value).HasOption index := by
  rcases has with ⟨own, isKey, found⟩
  refine ⟨own, isKey, ?_⟩
  rw [FieldTable.get?_insert]
  split_ifs
  · rfl
  · exact found

/-- Fields imply an option for each index up to the first one without a field,
and the search for them ends. -/
theorem implies_options (fields : FieldTable) :
    ImpliesOptions fields (impliedOptions fields) := by
  rcases exists_impliedOptions_eq fields with ⟨gap, least, implied⟩
  have length : (impliedOptions fields).length = gap := by
    rw [implied, List.length_map, List.length_range]
  have eq_of_keys : ∀ others : FieldTable,
      (∀ key ∈ FieldKey.optionKeys, ∀ index ≤ gap,
        (others.get? (FieldKey.indexed key index)).isSome =
          (fields.get? (FieldKey.indexed key index)).isSome) →
        impliedOptions others = impliedOptions fields := by
    intro others same
    rcases exists_impliedOptions_eq others with ⟨otherGap, otherLeast, shown⟩
    have sameGap := otherLeast.unique (isLeast_congr least same)
    rw [shown, implied, sameGap]
    refine List.map_congr_left fun index inRange => shownAt_congr ?_
    exact fun key isKey =>
      same key isKey index (Nat.le_of_lt (List.mem_range.mp inRange))
  refine
    { collects_iff := fun _ => collects_iff
      length_isLeast := length ▸ least
      getElem_iff := ?_
      eq_of_keys := length ▸ eq_of_keys
      insert_of_lt := ?_
      length_le_insert := ?_ }
  · intro index inside
    simp [implied, shownAt, Option.isSome_iff_ne_none]
  · intro key isKey place beyond value
    rw [length] at beyond
    refine eq_of_keys _ fun other isOther index le => ?_
    exact isSome_insert_indexed isKey isOther (by omega) value
  · intro key value
    rcases exists_impliedOptions_eq (fields.insert key value) with
      ⟨otherGap, otherLeast, shown⟩
    rw [length, shown, List.length_map, List.length_range]
    exact least.2 fun has => otherLeast.1 (hasOption_insert has key value)

end Blueprint

end BlockForge
