import BlockForge.Fixture.Category
import Mathlib.Data.List.Sort
import Mathlib.Data.String.Basic

/-!
# The selected categories

A category is a path, and a request selects the categories that its components
lead to: `glue` selects `glue` and `glue/deep`, never `gluey`.  The program
compares texts; `selects_iff` shows that the comparison is the one of the
components, whatever slashes there are.

`selects_by_components` describes the selection for all available categories and
all requests: which categories it has, each once and with what is kept under it,
and that the order of the requests does not matter.
-/

namespace BlockForge.Fixture.Category

/-! ## Components -/

/-- The parts of a path between its slashes. -/
def components (path : String) : List (List Char) :=
  path.toList.splitOn '/'

theorem components_injective : Function.Injective components := by
  intro first second same
  have joined := congrArg (List.intercalate ['/']) same
  rw [components, components, List.intercalate_splitOn,
    List.intercalate_splitOn] at joined
  exact String.toList_injective joined

theorem components_ne_nil (path : String) : components path ≠ [] :=
  List.splitOn_ne_nil _ _

/-- Pieces in front of other pieces are joined in front of a slash. -/
theorem intercalate_append {first second : List (List Char)} (some : first ≠ [])
    (others : second ≠ []) :
    List.intercalate ['/'] (first ++ second) =
      List.intercalate ['/'] first ++ '/' :: List.intercalate ['/'] second := by
  induction first with
  | nil => exact absurd rfl some
  | cons piece first first_ih =>
      cases first with
      | nil => simp [List.intercalate_cons_of_ne_nil others]
      | cons next first =>
          have rest := first_ih (by simp)
          rw [List.cons_append] at rest ⊢
          rw [List.cons_append, List.intercalate_cons_cons, rest,
            List.intercalate_cons_cons]
          simp

/-- A name selects the categories with its components in front. -/
theorem selects_iff {name category : String} :
    selects name category = true ↔ components name <+: components category := by
  rw [selects, Bool.or_eq_true, decide_eq_true_eq, List.isPrefixOf_iff_prefix]
  constructor
  · rintro (rfl | ⟨rest, below⟩)
    · exact List.prefix_refl _
    · refine ⟨rest.splitOn '/', ?_⟩
      have path : category.toList = name.toList ++ '/' :: rest := by
        simpa using below.symm
      rw [components, components, path, List.splitOn_append_cons_self]
  · rintro ⟨others, parts⟩
    by_cases none : others = []
    · rw [none, List.append_nil] at parts
      exact .inl (components_injective parts.symm)
    · right
      refine ⟨List.intercalate ['/'] others, ?_⟩
      have joined := congrArg (List.intercalate ['/']) parts
      rw [intercalate_append (components_ne_nil name) none, components,
        components, List.intercalate_splitOn, List.intercalate_splitOn] at joined
      simpa using joined

/-! ## Requests -/

/-- A request is a name with slashes around it, and the name has no slashes at
its ends. -/
structure Wraps (request name : String) : Prop where
  exists_slashes : ∃ before after,
    (∀ char ∈ before, char = '/') ∧ (∀ char ∈ after, char = '/') ∧
      request.toList = before ++ (name.toList ++ after)
  head_ne : ∀ char ∈ name.toList.head?, char ≠ '/'
  last_ne : ∀ char ∈ name.toList.getLast?, char ≠ '/'

/-- The slashes in front of a text that starts with another character are
dropped, and nothing else. -/
theorem dropWhile_slashes {slashes chars : List Char}
    (isSlash : ∀ char ∈ slashes, char = '/')
    (head_ne : ∀ char ∈ chars.head?, char ≠ '/') :
    (slashes ++ chars).dropWhile (· == '/') = chars := by
  rw [List.dropWhile_append_of_pos (by simpa using isSlash)]
  cases chars with
  | nil => rfl
  | cons char chars =>
      rw [List.dropWhile_cons_of_neg (by simpa using head_ne char rfl)]

/-- The slashes in front of a request can be told from those behind it, also
where the name is empty. -/
theorem Wraps.exists_front {request name : String}
    (wraps : Wraps request name) :
    ∃ before after, (∀ char ∈ before, char = '/') ∧
      (∀ char ∈ after, char = '/') ∧
        request.toList = before ++ (name.toList ++ after) ∧
          ∀ char ∈ (name.toList ++ after).head?, char ≠ '/' := by
  rcases wraps.exists_slashes with ⟨before, after, isBefore, isAfter, text⟩
  by_cases none : name.toList = []
  · refine ⟨before ++ after, [], ?_, by simp, by simp [text, none], by simp [none]⟩
    intro char member
    exact (List.mem_append.mp member).elim (isBefore char) (isAfter char)
  · refine ⟨before, after, isBefore, isAfter, text, ?_⟩
    rw [List.head?_append_of_ne_nil _ none]
    exact wraps.head_ne

theorem Wraps.eq_trimSlashes {request name : String}
    (wraps : Wraps request name) : name = trimSlashes request := by
  rcases wraps.exists_front with
    ⟨before, after, isBefore, isAfter, text, head_ne⟩
  have behind : (name.toList ++ after).reverse.dropWhile (· == '/') =
      name.toList.reverse := by
    rw [List.reverse_append]
    apply dropWhile_slashes
    · simpa using isAfter
    · simpa using wraps.last_ne
  have front : request.toList.dropWhile (· == '/') = name.toList ++ after := by
    rw [text]
    exact dropWhile_slashes isBefore head_ne
  simp only [trimSlashes, front, behind, List.reverse_reverse,
    String.ofList_toList]

theorem wraps_trimSlashes (request : String) :
    Wraps request (trimSlashes request) := by
  let front := request.toList.dropWhile (· == '/')
  let back := front.reverse.dropWhile (· == '/')
  have name : (trimSlashes request).toList = back.reverse :=
    String.toList_ofList
  have around : front =
      back.reverse ++ (front.reverse.takeWhile (· == '/')).reverse := by
    rw [← List.reverse_append, List.takeWhile_append_dropWhile,
      List.reverse_reverse]
  have isSlash : ∀ {chars : List Char}, ∀ char ∈ chars.takeWhile (· == '/'),
      char = '/' := by
    intro chars char member
    simpa using List.all_eq_true.mp List.all_takeWhile char member
  have head_ne : ∀ chars : List Char,
      ∀ char ∈ (chars.dropWhile (· == '/')).head?, char ≠ '/' := by
    intro chars char member
    have stops := List.head?_dropWhile_not (· == '/') chars
    rw [Option.mem_def.mp member] at stops
    simpa using stops
  refine ⟨⟨request.toList.takeWhile (· == '/'),
    (front.reverse.takeWhile (· == '/')).reverse, isSlash, ?_, ?_⟩, ?_, ?_⟩
  · intro char member
    exact isSlash char (List.mem_reverse.mp member)
  · rw [name, ← around, List.takeWhile_append_dropWhile]
  · rw [name]
    intro char member
    apply head_ne request.toList char
    have some : back.reverse ≠ [] := by
      rintro none
      rw [none] at member
      cases member
    change char ∈ front.head?
    rwa [around, List.head?_append_of_ne_nil _ some]
  · rw [name, List.getLast?_reverse]
    exact head_ne _

/-- A request covers a category if the components of the request, without the
slashes at its ends, lead to the category. -/
def Covers (request category : String) : Prop :=
  ∃ name, Wraps request name ∧ components name <+: components category

theorem covers_iff {request category : String} :
    Covers request category ↔ selects (trimSlashes request) category = true := by
  rw [selects_iff]
  constructor
  · rintro ⟨name, wraps, leads⟩
    rwa [← wraps.eq_trimSlashes]
  · exact fun leads => ⟨_, wraps_trimSlashes request, leads⟩

/-! ## The selection -/

theorem nodup_eraseDups {α : Type} [DecidableEq α] (items : List α) :
    items.eraseDups.Nodup := by
  induction h : items.length using Nat.strongRecOn generalizing items with
  | ind size items_ih =>
      cases items with
      | nil => simp
      | cons item items =>
          rw [List.eraseDups_cons, List.nodup_cons, List.mem_eraseDups]
          refine ⟨by simp, items_ih _ ?_ _ rfl⟩
          rw [← h, List.length_cons]
          exact Nat.lt_succ_of_le (List.length_filter_le ..)

theorem mem_select {available requests : List String} {category : String} :
    category ∈ select available requests ↔
      category ∈ available ∧ isSelected requests category = true := by
  rw [select, List.mem_filter, List.mem_mergeSort, List.mem_eraseDups]

/-- The selected categories ascend, so each of them is there once. -/
theorem sortedLT_select (available requests : List String) :
    (select available requests).SortedLT := by
  have ascends : (available.eraseDups.mergeSort (· ≤ ·)).SortedLE :=
    List.sortedLE_mergeSort
  have distinct : (available.eraseDups.mergeSort (· ≤ ·)).Nodup :=
    (List.mergeSort_perm ..).nodup_iff.mpr (nodup_eraseDups available)
  exact ((ascends.sortedLT_of_nodup distinct).pairwise.filter _).sortedLT

/-- Some request covers a category that requests select. -/
theorem isSelected_iff {requests : List String} (some : requests ≠ [])
    {category : String} :
    isSelected requests category = true ↔
      ∃ request ∈ requests, Covers request category := by
  simp [isSelected, some, covers_iff]

theorem isSelected_nil (category : String) : isSelected [] category = true :=
  rfl

/-- Requests select the same if they are the same but for their order and
repetitions. -/
theorem isSelected_congr {first second : List String}
    (same : ∀ request, request ∈ first ↔ request ∈ second) (category : String) :
    isSelected first category = isSelected second category := by
  rw [Bool.eq_iff_iff]
  by_cases none : first = []
  · subst none
    have noSecond : second = [] :=
      List.eq_nil_iff_forall_not_mem.mpr fun request member =>
        List.not_mem_nil ((same request).mpr member)
    rw [noSecond]
  · have some : second ≠ [] := by
      rcases List.exists_mem_of_ne_nil first none with ⟨request, member⟩
      exact List.ne_nil_of_mem ((same request).mp member)
    rw [isSelected_iff none, isSelected_iff some]
    simp only [same]

section

variable {α : Type} {content : String → α}

theorem mem_selectWith {available requests : List String} {entry : String × α} :
    entry ∈ selectWith content available requests ↔
      (entry.1 ∈ available ∧ entry.2 = content entry.1) ∧
        isSelected requests entry.1 = true := by
  rcases entry with ⟨category, held⟩
  rw [selectWith, List.mem_map]
  constructor
  · rintro ⟨name, member, same⟩
    cases same
    rw [mem_select] at member
    exact ⟨⟨member.1, rfl⟩, member.2⟩
  · rintro ⟨⟨member, same⟩, selected⟩
    exact ⟨category, mem_select.mpr ⟨member, selected⟩,
      Prod.ext rfl same.symm⟩

theorem map_fst_selectWith (content : String → α)
    (available requests : List String) :
    (selectWith content available requests).map Prod.fst =
      select available requests := by
  simp [selectWith, Function.comp_def]

end

/-- How requests select from a table that has a content for each of its
categories. -/
structure SelectsBelow {α : Type} (content : String → α)
    (available requests : List String) : Prop where
  /-- Selected are the entries of the categories that a request covers. -/
  mem_iff : requests ≠ [] → ∀ entry,
    entry ∈ selectWith content available requests ↔
      (entry.1 ∈ available ∧ entry.2 = content entry.1) ∧
        ∃ request ∈ requests, Covers request entry.1
  /-- Each category is there once. -/
  ascends : ((selectWith content available requests).map Prod.fst).SortedLT
  /-- The order of the categories and of the requests, and how often they are
  listed, do not matter. -/
  eq_of_same : ∀ categories others,
    (∀ category, category ∈ categories ↔ category ∈ available) →
      (∀ request, request ∈ others ↔ request ∈ requests) →
        selectWith content categories others =
          selectWith content available requests
  /-- The selection is the union of those of the single requests. -/
  mem_iff_single : requests ≠ [] → ∀ entry,
    entry ∈ selectWith content available requests ↔
      ∃ request ∈ requests, entry ∈ selectWith content available [request]
  /-- Without a request the whole table is selected. -/
  mem_without : ∀ entry, entry ∈ selectWith content available [] ↔
    entry.1 ∈ available ∧ entry.2 = content entry.1

/-- Requests select the categories that their components lead to, whatever
categories there are. -/
theorem selects_by_components {α : Type} (content : String → α)
    (available requests : List String) :
    SelectsBelow content available requests where
  mem_iff := by
    intro some entry
    rw [mem_selectWith, isSelected_iff some]
  ascends := by
    rw [map_fst_selectWith]
    exact sortedLT_select available requests
  eq_of_same := by
    intro categories others sameCategories sameRequests
    rw [selectWith, selectWith]
    congr 1
    apply (sortedLT_select ..).eq_of_mem_iff (sortedLT_select ..)
    intro category
    rw [mem_select, mem_select, sameCategories, isSelected_congr sameRequests]
  mem_iff_single := by
    intro some entry
    simp only [mem_selectWith, isSelected_iff some,
      isSelected_iff (List.cons_ne_nil _ _), List.mem_singleton,
      exists_eq_left]
    tauto
  mem_without := by
    intro entry
    rw [mem_selectWith, isSelected_nil]
    simp

example : select ["ab", "a/b", "a", "b"] ["/a//", "a"] = ["a", "a/b"] := by
  cbv

end BlockForge.Fixture.Category
