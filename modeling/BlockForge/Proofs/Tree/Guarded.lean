import BlockForge.Tree
import Mathlib.Data.Finset.Card
import Mathlib.Data.List.Perm.Subperm
import Mathlib.Data.Nat.Find
import Mathlib.Logic.Function.Iterate

/-!
# Guarded walks

On a tree whose links loop, the search for a block creator above a node and the
listing of a chain still end, because both remember the ids that they met and
stop at the first one that comes up again.  `climb` and `gather` are these two
loops; what decreases is the number of nodes that they have not met.

`exists_fewest` is the reason that stopping there misses no block creator,
`prefix_gather` the reason that it cuts a chain nowhere earlier than it has to.
`guardedWalks` states both for `isLive` and `chain`, which bound the number of
their steps.
-/

namespace BlockForge

/-- The id that a link leads to from an optional id in a number of steps. -/
def hop (link : NodeId → Option NodeId) (count : Nat) (place : Option NodeId) :
    Option NodeId :=
  (fun place => place.bind link)^[count] place

/-- The first ids of the sequence in which a link leads from each id to the next
one: as many as asked for, or all of them. -/
def trail (link : NodeId → Option NodeId) : Nat → Option NodeId → List NodeId
  | 0, _ => []
  | _ + 1, none => []
  | count + 1, some id => id :: trail link count (link id)

/-! ## Sequences of ids -/

section

variable {link : NodeId → Option NodeId} {place : Option NodeId} {id : NodeId}
  {count : Nat}

theorem hop_succ :
    hop link (count + 1) (some id) = hop link count (link id) := rfl

theorem hop_add (more : Nat) :
    hop link (more + count) place = hop link more (hop link count place) :=
  Function.iterate_add_apply _ more count place

theorem hop_none : hop link count none = none :=
  Function.iterate_fixed rfl count

theorem mem_trail : id ∈ trail link count place ↔
    ∃ steps < count, hop link steps place = some id := by
  induction count generalizing place with
  | zero => simp [trail]
  | succ count count_ih =>
      cases place with
      | none => simp [trail, hop_none]
      | some first =>
          rw [trail, List.mem_cons, count_ih, Nat.exists_lt_succ_left]
          simp only [hop_succ]
          rw [hop, Function.iterate_zero_apply, Option.some_inj, eq_comm]

theorem length_trail (leads : hop link count place = some id) :
    (trail link count place).length = count := by
  induction count generalizing place with
  | zero => rfl
  | succ count count_ih =>
      cases place with
      | none => cases hop_none.symm.trans leads
      | some first =>
          rw [trail, List.length_cons, @count_ih (link first) leads]

/-- The ids on the way to another one have a link. -/
theorem link_ne_none (leads : hop link count place = some id) {passed : NodeId}
    (member : passed ∈ trail link count place) : link passed ≠ none := by
  rcases mem_trail.mp member with ⟨steps, before, here⟩
  intro stuck
  have further : hop link (count - (steps + 1) + (steps + 1)) place = none := by
    rw [hop_add, Nat.add_comm steps 1, hop_add, here, hop_succ, stuck, hop_none,
      hop_none]
  rw [Nat.sub_add_cancel before, leads] at further
  cases further

/-- The fewest steps that lead to an id pass no id twice. -/
theorem nodup_trail (leads : hop link count place = some id)
    (fewest : ∀ fewer < count, 0 < fewer → hop link fewer place ≠ some id) :
    (trail link count place).Nodup := by
  induction count generalizing place with
  | zero => exact List.nodup_nil
  | succ count count_ih =>
      cases place with
      | none => exact List.nodup_nil
      | some first =>
          rw [trail, List.nodup_cons]
          constructor
          · intro again
            rcases mem_trail.mp again with ⟨steps, before, back⟩
            rw [← hop_succ] at back
            apply fewest (count - steps) (by omega) (by omega)
            rw [← leads, ← back, ← hop_add, back]
            congr 1
            omega
          · apply count_ih leads
            intro fewer less positive
            exact fewest (fewer + 1) (by omega) (by omega)

end

namespace BlockTree

/-! ## The loops -/

/-- The number of nodes that are not among the ids met. -/
def unmet (tree : BlockTree) (met : List NodeId) : Nat :=
  (Finset.range tree.size \ met.toFinset).card

/-- An id that comes up for the first time leaves fewer nodes unmet, unless it
belongs to no node and nothing comes behind it. -/
theorem unmet_link_lt (tree : BlockTree) {link : NodeId → Option NodeId}
    (ends : ∀ id, tree.size ≤ id → link id = none) {met : List NodeId}
    {id : NodeId} (fresh : id ∉ met) :
    2 * tree.unmet (id :: met) + (link id).toList.length <
      2 * tree.unmet met + 1 := by
  unfold unmet
  rw [List.toFinset_cons, Finset.sdiff_insert]
  by_cases inside : id < tree.size
  · have unmetHere : id ∈ Finset.range tree.size \ met.toFinset := by
      simp [inside, fresh]
    have less := Finset.card_erase_lt_of_mem unmetHere
    have atMost : (link id).toList.length ≤ 1 := Option.length_toList_le
    omega
  · have atMost : ((Finset.range tree.size \ met.toFinset).erase id).card ≤ _ :=
      Finset.card_erase_le
    rw [ends id (Nat.le_of_not_lt inside), Option.toList_none, List.length_nil]
    omega

/-- Whether a block creator is met on the way up from an optional node, before
an id comes up that was met. -/
def climb (tree : BlockTree) (met : List NodeId) : Option NodeId → Bool
  | none => false
  | some parent =>
    if tree.kind parent = some .blockCreator then true
    else if parent ∈ met then false
    else tree.climb (parent :: met) (tree.surroundingParent parent)
termination_by place => 2 * tree.unmet met + place.toList.length
decreasing_by
  exact tree.unmet_link_lt (fun id outside => (tree.absent id outside).2.2.2) ‹_›

/-- The chain from an optional node up to the first id that was met. -/
def gather (tree : BlockTree) (met : List NodeId) : Option NodeId → List NodeId
  | none => []
  | some id =>
    if id ∈ met then []
    else id :: tree.gather (id :: met) (tree.nextSibling id)
termination_by place => 2 * tree.unmet met + place.toList.length
decreasing_by
  exact tree.unmet_link_lt (fun id outside => (tree.absent id outside).2.2.1) ‹_›

/-! ## Reach of a block creator -/

variable {tree : BlockTree} {node : NodeId}

/-- Whether going up from a node, one step at least, leads to a block
creator. -/
def Reaches (tree : BlockTree) (node : NodeId) : Prop :=
  ∃ count ≥ 1, ∃ creator,
    hop tree.surroundingParent count (some node) = some creator ∧
      tree.kind creator = some .blockCreator

/-- A block creator above a node is reached on a way that passes no id twice,
not even the node itself. -/
theorem exists_fewest (reaches : tree.Reaches node) :
    ∃ count creator,
      hop tree.surroundingParent count (tree.surroundingParent node) =
          some creator ∧
        tree.kind creator = some .blockCreator ∧
        (trail tree.surroundingParent (count + 1) (some node)).Nodup := by
  classical
  rcases Nat.find_spec reaches with ⟨positive, creator, leads, isCreator⟩
  rcases Nat.exists_eq_add_of_le' positive with ⟨count, steps⟩
  rw [steps] at leads
  refine ⟨count, creator, leads, isCreator, nodup_trail leads ?_⟩
  intro fewer less positive again
  exact Nat.find_min reaches (steps ▸ less) ⟨positive, creator, again, isCreator⟩

theorem reaches_of_hop {count : Nat} {creator : NodeId}
    (leads : hop tree.surroundingParent count (tree.surroundingParent node) =
      some creator)
    (isCreator : tree.kind creator = some .blockCreator) : tree.Reaches node :=
  ⟨count + 1, by omega, creator, leads, isCreator⟩

theorem exists_hop_of_climb {met : List NodeId} {place : Option NodeId}
    (climbs : tree.climb met place = true) :
    ∃ count creator, hop tree.surroundingParent count place = some creator ∧
      tree.kind creator = some .blockCreator := by
  fun_induction climb tree met place with
  | case1 met => cases climbs
  | case2 met parent isCreator => exact ⟨0, parent, rfl, isCreator⟩
  | case3 met parent _ _ => cases climbs
  | case4 met parent _ _ climb_ih =>
      rcases climb_ih climbs with ⟨count, creator, leads, isCreator⟩
      exact ⟨count + 1, creator, leads, isCreator⟩

/-- The guard lets a way pass that meets neither an id twice nor an id met
before. -/
theorem climb_of_hop {count : Nat} {met : List NodeId} {place : Option NodeId}
    {creator : NodeId}
    (leads : hop tree.surroundingParent count place = some creator)
    (isCreator : tree.kind creator = some .blockCreator)
    (distinct : (trail tree.surroundingParent count place).Nodup)
    (fresh : ∀ id ∈ trail tree.surroundingParent count place, id ∉ met) :
    tree.climb met place = true := by
  induction count generalizing met place with
  | zero =>
      cases leads
      rw [climb, if_pos isCreator]
  | succ count count_ih =>
      cases place with
      | none => cases hop_none.symm.trans leads
      | some first =>
          rw [trail, List.nodup_cons] at distinct
          rw [trail, List.forall_mem_cons] at fresh
          rw [climb, if_neg fresh.1]
          split_ifs
          · rfl
          · apply count_ih leads distinct.2
            intro id member
            rw [List.mem_cons, not_or]
            exact ⟨ne_of_mem_of_not_mem member distinct.1, fresh.2 id member⟩

theorem climb_iff : tree.climb [node] (tree.surroundingParent node) = true ↔
    tree.Reaches node := by
  constructor
  · intro climbs
    rcases exists_hop_of_climb climbs with ⟨count, creator, leads, isCreator⟩
    exact reaches_of_hop leads isCreator
  · intro reaches
    rcases exists_fewest reaches with ⟨count, creator, leads, isCreator, distinct⟩
    rw [trail, List.nodup_cons] at distinct
    apply climb_of_hop leads isCreator distinct.2
    intro id member
    rw [List.mem_singleton]
    exact ne_of_mem_of_not_mem member distinct.1

theorem ancestors_eq_trail {count : Nat} : tree.ancestors count node =
    trail tree.surroundingParent count (tree.surroundingParent node) := by
  induction count generalizing node with
  | zero => rfl
  | succ count count_ih =>
      rw [ancestors]
      cases tree.surroundingParent node with
      | none => rfl
      | some parent => exact congrArg (parent :: ·) count_ih

/-- As many steps as there are nodes are enough to reach a block creator. -/
theorem isLive_iff_reaches : tree.isLive node = true ↔ tree.Reaches node := by
  rw [isLive, List.any_eq_true, ancestors_eq_trail]
  constructor
  · rintro ⟨creator, member, isCreator⟩
    rcases mem_trail.mp member with ⟨count, _, leads⟩
    exact reaches_of_hop leads (of_decide_eq_true isCreator)
  · intro reaches
    rcases exists_fewest reaches with ⟨count, creator, leads, isCreator, distinct⟩
    refine ⟨creator, mem_trail.mpr ⟨count, ?_, leads⟩, decide_eq_true isCreator⟩
    have above : hop tree.surroundingParent (count + 1) (some node) =
        some creator := leads
    have inside : trail tree.surroundingParent (count + 1) (some node) ⊆
        List.range tree.size := by
      intro id member
      rw [List.mem_range]
      by_contra outside
      exact link_ne_none above member
        (tree.absent id (Nat.le_of_not_lt outside)).2.2.2
    have atMost := (distinct.subperm inside).length_le
    rwa [length_trail above, List.length_range] at atMost

/-! ## Chains -/

theorem exists_gather_eq_trail (met : List NodeId) (place : Option NodeId) :
    ∃ count, tree.gather met place = trail tree.nextSibling count place := by
  fun_induction gather tree met place with
  | case1 met => exact ⟨0, rfl⟩
  | case2 met id _ => exact ⟨0, rfl⟩
  | case3 met id _ gather_ih =>
      rcases gather_ih with ⟨count, same⟩
      exact ⟨count + 1, by rw [trail, same]⟩

theorem gather_fresh (met : List NodeId) (place : Option NodeId) :
    (tree.gather met place).Nodup ∧ ∀ id ∈ tree.gather met place, id ∉ met := by
  fun_induction gather tree met place with
  | case1 met => simp
  | case2 met id _ => simp
  | case3 met id fresh gather_ih =>
      rcases gather_ih with ⟨distinct, below⟩
      simp only [List.mem_cons, not_or] at below
      constructor
      · exact List.nodup_cons.mpr ⟨fun again => (below id again).1 rfl, distinct⟩
      · rw [List.forall_mem_cons]
        exact ⟨fresh, fun other member => (below other member).2⟩

/-- No part of the sequence without repetition is longer than what the guard
lets pass. -/
theorem prefix_gather {count : Nat} {met : List NodeId} {place : Option NodeId}
    (distinct : (trail tree.nextSibling count place).Nodup)
    (fresh : ∀ id ∈ trail tree.nextSibling count place, id ∉ met) :
    trail tree.nextSibling count place <+: tree.gather met place := by
  induction count generalizing met place with
  | zero => exact List.nil_prefix
  | succ count count_ih =>
      cases place with
      | none => exact List.nil_prefix
      | some first =>
          rw [trail, List.nodup_cons] at distinct
          rw [trail, List.forall_mem_cons] at fresh
          rw [trail, gather, if_neg fresh.1, List.prefix_cons_inj]
          apply count_ih distinct.2
          intro id member
          rw [List.mem_cons, not_or]
          exact ⟨ne_of_mem_of_not_mem member distinct.1, fresh.2 id member⟩

theorem chainFrom_eq_gather {fuel : Nat} {met : List NodeId}
    {place : Option NodeId} (enough : tree.unmet met < fuel) :
    tree.chainFrom fuel met place = tree.gather met place := by
  induction fuel generalizing met place with
  | zero => cases enough
  | succ fuel fuel_ih =>
      cases place with
      | none => rw [chainFrom, gather]
      | some id =>
          rw [chainFrom, gather]
          split_ifs with again
          · rfl
          · congr 1
            have less := tree.unmet_link_lt
              (fun id outside => (tree.absent id outside).2.2.1) again
            cases next : tree.nextSibling id with
            | none => cases fuel <;> rw [chainFrom, gather]
            | some next =>
                apply fuel_ih
                rw [next, Option.toList_some, List.length_singleton] at less
                omega

theorem chain_eq_gather (node : NodeId) (name : String) :
    tree.chain node name = tree.gather [] (tree.slotTarget node name) := by
  apply chainFrom_eq_gather
  rw [unmet, List.toFinset_nil, Finset.sdiff_empty, Finset.card_range]
  exact Nat.lt_succ_self tree.size

theorem exists_chain_eq_trail (node : NodeId) (name : String) :
    ∃ count, tree.chain node name =
      trail tree.nextSibling count (tree.slotTarget node name) := by
  rw [chain_eq_gather]
  exact exists_gather_eq_trail [] _

/-! ## Both walks -/

/-- What the guarded walks find on a tree, whatever its links are. -/
structure GuardedWalks (tree : BlockTree) : Prop where
  isLive_eq : ∀ node,
    tree.isLive node = tree.climb [node] (tree.surroundingParent node)
  isLive_iff : ∀ node, tree.isLive node = true ↔ tree.Reaches node
  chain_eq : ∀ node name,
    tree.chain node name = tree.gather [] (tree.slotTarget node name)
  chain_eq_trail : ∀ node name, ∃ count, tree.chain node name =
    trail tree.nextSibling count (tree.slotTarget node name)
  chain_nodup : ∀ node name, (tree.chain node name).Nodup
  chain_longest : ∀ node name count,
    (trail tree.nextSibling count (tree.slotTarget node name)).Nodup →
      trail tree.nextSibling count (tree.slotTarget node name) <+:
        tree.chain node name

/-- Both walks end on every tree.  A node is live if going up from it, once or
more, leads to a block creator; a chain is the longest part without repetition
that its sequence of siblings begins with. -/
theorem guardedWalks (tree : BlockTree) : tree.GuardedWalks where
  isLive_eq := by
    intro node
    rw [Bool.eq_iff_iff, isLive_iff_reaches, climb_iff]
  isLive_iff := fun _ => isLive_iff_reaches
  chain_eq := chain_eq_gather
  chain_eq_trail := exists_chain_eq_trail
  chain_nodup := by
    intro node name
    rw [chain_eq_gather]
    exact (gather_fresh [] _).1
  chain_longest := by
    intro node name count distinct
    rw [chain_eq_gather]
    exact prefix_gather distinct fun _ _ => List.not_mem_nil

end BlockTree

end BlockForge
