import BlockForge.Proofs.Workspace.Attachment
import Mathlib.Data.Finset.Card
import Mathlib.Order.Interval.Finset.Nat

/-!
# The links of a workspace

Every workspace that edits can build is arranged, whichever edits succeed or
fail.  So its links agree: `WellLinked` lists what that means for the ids, the
slots, the chains and the parents, and `run_wellLinked` is the main theorem.
-/

namespace BlockForge

/-- Every id that a node stores. -/
def Node.links (node : Node) : List NodeId :=
  node.slots.filterMap Slot.target ++ node.parent.toList ++
    node.previous.toList ++ node.next.toList

namespace Workspace

/-- The chain in a slot, as the next links list it. -/
def slotChain (workspace : Workspace) (owner : NodeId) (name : String) :
    List NodeId :=
  workspace.follow workspace.size (workspace.target? owner name)

/-- The links of a workspace agree with one another. -/
structure WellLinked (workspace : Workspace) : Prop where
  /-- Every node stores its own place as its id. -/
  id_eq : ∀ {id node}, workspace.node? id = some node → node.id = id
  /-- Every link leads to a node. -/
  link_lt : ∀ {id node link}, workspace.node? id = some node →
    link ∈ node.links → link < workspace.size
  slotNames_nodup : ∀ {id node}, workspace.node? id = some node →
    (node.slots.map Slot.name).Nodup
  next_iff_previous : ∀ {first second},
    workspace.next? first = some second ↔
      workspace.previous? second = some first
  /-- Neighbours hang in the same node. -/
  parent_eq_of_next : ∀ {first second},
    workspace.next? first = some second →
      workspace.parent? first = workspace.parent? second
  /-- The members of the chains in the slots of a node are the nodes whose
  parent it is, each in the chain of a single slot. -/
  parent_iff : ∀ {id owner},
    workspace.parent? id = some owner ↔
      ∃! name, name ∈ workspace.tree.slotNames owner ∧
        id ∈ workspace.slotChain owner name
  slotChain_nodup : ∀ owner name, (workspace.slotChain owner name).Nodup
  /-- The listing of a chain leaves out nothing at its end. -/
  slotChain_closed : ∀ {owner name id following},
    id ∈ workspace.slotChain owner name →
      workspace.next? id = some following →
        following ∈ workspace.slotChain owner name
  target_iff : ∀ {owner name id}, id ∈ workspace.slotChain owner name →
    (workspace.target? owner name = some id ↔ workspace.previous? id = none)
  /-- A node that hangs nowhere has no neighbours. -/
  loose : ∀ {id}, workspace.parent? id = none →
    workspace.previous? id = none ∧ workspace.next? id = none
  /-- Every way up ends, in fewer steps than there are nodes. -/
  ends : ∀ {id}, id < workspace.size →
    ∃ steps top, steps < workspace.size ∧
      (fun above : Option NodeId => above.bind workspace.parent?)^[steps]
          (some id) = some top ∧
        workspace.parent? top = none
  fits : ∀ {owner name id}, id ∈ workspace.slotChain owner name →
    ∃ kind, workspace.kind? id = some kind ∧ kind.fits name = true
  single : ∀ {owner name}, Slot.isType name = true →
    (workspace.slotChain owner name).length ≤ 1
  creator_loose : ∀ {id}, workspace.kind? id = some .blockCreator →
    workspace.parent? id = none

/-- How many ids below a bound have a smaller number. -/
def rank (order : NodeId → Nat) (bound : Nat) (id : NodeId) : Nat :=
  ((Finset.range bound).filter fun other => order other < order id).card

theorem rank_le (order : NodeId → Nat) (bound : Nat) (id : NodeId) :
    rank order bound id ≤ bound := by
  calc
    rank order bound id ≤ (Finset.range bound).card :=
      Finset.card_filter_le _ _
    _ = bound := Finset.card_range bound

theorem rank_lt_rank {order : NodeId → Nat} {bound : Nat}
    {first second : NodeId} (inside : first < bound)
    (less : order first < order second) :
    rank order bound first < rank order bound second := by
  apply Finset.card_lt_card
  rw [Finset.ssubset_iff_of_subset]
  · refine ⟨first, ?_, ?_⟩
    · simp [inside, less]
    · simp
  · intro other member
    rw [Finset.mem_filter] at member ⊢
    exact ⟨member.1, member.2.trans less⟩

theorem rank_lt {order : NodeId → Nat} {bound : Nat} {id : NodeId}
    (inside : id < bound) : rank order bound id < bound := by
  have least : rank order bound id < (Finset.range bound).card := by
    apply Finset.card_lt_card
    rw [Finset.ssubset_iff_of_subset (Finset.filter_subset _ _)]
    exact ⟨id, Finset.mem_range.mpr inside, by simp⟩
  simpa using least

namespace Arranged

variable {workspace : Workspace} {chains : NodeId → String → List NodeId}
  {order : NodeId → Nat}

/-- The numbers of an arrangement can be chosen below the number of nodes. -/
theorem toRank (arranged : workspace.Arranged chains order) :
    workspace.Arranged chains (rank order workspace.size) := by
  refine { arranged with ascending := ?_ }
  intro owner name
  apply (arranged.ascending owner name).imp_of_mem
  intro upper lower upperMember lowerMember less
  apply rank_lt_rank ?_ less
  rcases List.mem_cons.mp upperMember with same | inChain
  · subst same
    rcases List.mem_cons.mp lowerMember with same | inChain
    · exact absurd less (by rw [same]; exact lt_irrefl _)
    · rcases arranged.exists_owner inChain with ⟨_, found, _⟩
      exact lt_size_of_node? found
  · exact arranged.lt_size_of_mem inChain

theorem slotChain_eq (arranged : workspace.Arranged chains order)
    (owner : NodeId) (name : String) :
    workspace.slotChain owner name = chains owner name := by
  rw [slotChain, arranged.target_eq]
  exact arranged.follow_eq (arranged.length_le_size owner name) [] rfl

/-- A node with any link to where it hangs is in a chain. -/
theorem exists_mem (arranged : workspace.Arranged chains order) {id : NodeId}
    {node : Node} (found : workspace.node? id = some node)
    (linked : ¬ (node.parent = none ∧ node.previous = none ∧
      node.next = none)) :
    ∃ owner name, id ∈ chains owner name := by
  by_contra outside
  apply linked
  apply arranged.loose found
  intro owner name member
  exact outside ⟨owner, name, member⟩

theorem exists_mem_of_parent? (arranged : workspace.Arranged chains order)
    {id owner : NodeId} (parent : workspace.parent? id = some owner) :
    ∃ name, id ∈ chains owner name := by
  rcases Option.bind_eq_some_iff.mp parent with ⟨node, found, parent_eq⟩
  rcases arranged.exists_mem found (by simp [parent_eq]) with
    ⟨other, name, member⟩
  cases parent.symm.trans (arranged.parent?_eq member)
  exact ⟨name, member⟩

/-- The way to the right of a link in a chain. -/
theorem exists_split_of_next? (arranged : workspace.Arranged chains order)
    {first second : NodeId} (next : workspace.next? first = some second) :
    ∃ owner name before after,
      chains owner name = before ++ first :: second :: after := by
  rcases Option.bind_eq_some_iff.mp next with ⟨node, found, next_eq⟩
  rcases arranged.exists_mem found (by simp [next_eq]) with
    ⟨owner, name, member⟩
  rcases arranged.exists_sitsIn member with
    ⟨before, after, same, split, foundSame, sits⟩
  cases found.symm.trans foundSame
  rcases List.head?_eq_some_iff.mp (sits.next_eq.symm.trans next_eq) with
    ⟨rest, after_eq⟩
  exact ⟨owner, name, before, rest, by rw [split, after_eq]⟩

theorem exists_split_of_previous? (arranged : workspace.Arranged chains order)
    {first second : NodeId}
    (previous : workspace.previous? second = some first) :
    ∃ owner name before after,
      chains owner name = before ++ first :: second :: after := by
  rcases Option.bind_eq_some_iff.mp previous with ⟨node, found, previous_eq⟩
  rcases arranged.exists_mem found (by simp [previous_eq]) with
    ⟨owner, name, member⟩
  rcases arranged.exists_sitsIn member with
    ⟨before, after, same, split, foundSame, sits⟩
  cases found.symm.trans foundSame
  rcases List.getLast?_eq_some_iff.mp
    (sits.previous_eq.symm.trans previous_eq) with ⟨rest, before_eq⟩
  exact ⟨owner, name, rest, after, by rw [split, before_eq]; simp⟩

theorem next?_of_split (arranged : workspace.Arranged chains order)
    {owner id : NodeId} {name : String} {before after : List NodeId}
    (split : chains owner name = before ++ id :: after) :
    workspace.next? id = after.head? := by
  rcases arranged.sits split with ⟨node, found, sits⟩
  simp [next?, found, sits.next_eq]

theorem previous?_of_split (arranged : workspace.Arranged chains order)
    {owner id : NodeId} {name : String} {before after : List NodeId}
    (split : chains owner name = before ++ id :: after) :
    workspace.previous? id = before.getLast? := by
  rcases arranged.sits split with ⟨node, found, sits⟩
  simp [previous?, found, sits.previous_eq]

theorem order_lt_of_mem (arranged : workspace.Arranged chains order)
    {owner id : NodeId} {name : String} (member : id ∈ chains owner name) :
    order owner < order id :=
  List.rel_of_pairwise_cons (arranged.ascending owner name) member

/-- A way up takes no more steps than the number of its start says. -/
theorem exists_top (arranged : workspace.Arranged chains order) :
    ∀ (bound : Nat) (id : NodeId), order id ≤ bound →
      ∃ steps top, steps ≤ bound ∧
        (fun above : Option NodeId => above.bind workspace.parent?)^[steps]
            (some id) = some top ∧
          workspace.parent? top = none := by
  intro bound
  induction bound with
  | zero =>
      intro id least
      refine ⟨0, id, le_rfl, rfl, ?_⟩
      cases parent : workspace.parent? id with
      | none => rfl
      | some owner =>
          rcases arranged.exists_mem_of_parent? parent with ⟨name, member⟩
          have less := arranged.order_lt_of_mem member
          omega
  | succ bound bound_ih =>
      intro id atMost
      cases parent : workspace.parent? id with
      | none => exact ⟨0, id, Nat.zero_le _, rfl, parent⟩
      | some owner =>
          rcases arranged.exists_mem_of_parent? parent with ⟨name, member⟩
          have less := arranged.order_lt_of_mem member
          rcases bound_ih owner (by omega) with ⟨steps, top, few, way, ends⟩
          refine ⟨steps + 1, top, by omega, ?_, ends⟩
          rw [Function.iterate_succ_apply, Option.bind_some, parent]
          exact way

/-- What hangs in a slot is found under the name of the slot. -/
theorem target?_of_mem_slots (arranged : workspace.Arranged chains order)
    {id : NodeId} {node : Node} (found : workspace.node? id = some node)
    {slot : Slot} (member : slot ∈ node.slots) :
    workspace.target? id slot.name = slot.target := by
  rcases arranged.slotNames found with ⟨members, names⟩
  have located : node.slot? slot.name = some slot := by
    apply Node.slot?_eq_some_of_mem ?_ member
    rw [names]
    exact node.kind.slotsWith_nodup members
  simp [target?, found, Node.target?, located]

/-- What hangs in a slot is a node. -/
theorem target_lt_size (arranged : workspace.Arranged chains order)
    {id target : NodeId} {node : Node} (found : workspace.node? id = some node)
    (member : target ∈ node.slots.filterMap Slot.target) :
    target < workspace.size := by
  rcases List.mem_filterMap.mp member with ⟨slot, inSlots, target_eq⟩
  have hangs := (arranged.target?_of_mem_slots found inSlots).trans target_eq
  exact arranged.lt_size_of_mem (arranged.mem_of_target? hangs)

/-! ## Agreement of the links -/

theorem next?_iff_previous? (arranged : workspace.Arranged chains order)
    {first second : NodeId} :
    workspace.next? first = some second ↔
      workspace.previous? second = some first := by
  constructor
  · intro next
    rcases arranged.exists_split_of_next? next with
      ⟨owner, name, before, after, split⟩
    have shifted :
        chains owner name = (before ++ [first]) ++ second :: after := by
      rw [split]
      simp
    rw [arranged.previous?_of_split shifted]
    simp
  · intro previous
    rcases arranged.exists_split_of_previous? previous with
      ⟨owner, name, before, after, split⟩
    rw [arranged.next?_of_split split]
    rfl

/-- Neighbours are in one chain. -/
theorem exists_mem_of_next? (arranged : workspace.Arranged chains order)
    {first second : NodeId} (next : workspace.next? first = some second) :
    ∃ owner name, first ∈ chains owner name ∧ second ∈ chains owner name := by
  rcases arranged.exists_split_of_next? next with
    ⟨owner, name, before, after, split⟩
  exact ⟨owner, name, by simp [split], by simp [split]⟩

theorem link_lt_size (arranged : workspace.Arranged chains order)
    {id link : NodeId} {node : Node} (found : workspace.node? id = some node)
    (member : link ∈ node.links) : link < workspace.size := by
  simp only [Node.links, List.mem_append, Option.mem_toList] at member
  rcases member with ((target | parent) | previous) | next
  · exact arranged.target_lt_size found target
  · have parent_eq : workspace.parent? id = some link := by
      simpa [parent?, found] using parent
    rcases arranged.exists_mem_of_parent? parent_eq with ⟨name, inChain⟩
    rcases arranged.exists_owner inChain with ⟨_, foundOwner, _⟩
    exact lt_size_of_node? foundOwner
  · have previous_eq : workspace.previous? id = some link := by
      simpa [previous?, found] using previous
    rcases arranged.exists_mem_of_next?
      (arranged.next?_iff_previous?.mpr previous_eq) with ⟨owner, name, inChain, _⟩
    exact arranged.lt_size_of_mem inChain
  · have next_eq : workspace.next? id = some link := by
      simpa [next?, found] using next
    rcases arranged.exists_mem_of_next? next_eq with ⟨owner, name, _, inChain⟩
    exact arranged.lt_size_of_mem inChain

/-- A parent has its child in the chain of a single slot. -/
theorem parent?_iff (arranged : workspace.Arranged chains order)
    {id owner : NodeId} :
    workspace.parent? id = some owner ↔
      ∃! name, name ∈ workspace.tree.slotNames owner ∧
        id ∈ workspace.slotChain owner name := by
  constructor
  · intro parent
    rcases arranged.exists_mem_of_parent? parent with ⟨name, member⟩
    rcases arranged.exists_owner member with ⟨node, found, named⟩
    refine ⟨name, ⟨?_, ?_⟩, ?_⟩
    · simpa [tree, found] using named
    · rw [arranged.slotChain_eq]
      exact member
    · rintro other ⟨_, inOther⟩
      rw [arranged.slotChain_eq] at inOther
      exact arranged.name_eq inOther member
  · rintro ⟨name, ⟨_, member⟩, _⟩
    rw [arranged.slotChain_eq] at member
    exact arranged.parent?_eq member

/-- The head of a chain is its only member without a node before it. -/
theorem target?_iff (arranged : workspace.Arranged chains order)
    {owner id : NodeId} {name : String} (member : id ∈ chains owner name) :
    workspace.target? owner name = some id ↔ workspace.previous? id = none := by
  rcases arranged.exists_sitsIn member with ⟨before, after, _, split, _, _⟩
  have distinct := (List.nodup_cons.mp (arranged.nodup owner name)).2
  rw [arranged.target_eq, arranged.previous?_of_split split]
  rw [split] at distinct ⊢
  cases before with
  | nil => simp
  | cons head rest =>
      have differs : head ≠ id := by
        rintro rfl
        exact (List.nodup_cons.mp distinct).1 (by simp)
      simp [differs]

theorem loose_of_parent? (arranged : workspace.Arranged chains order)
    {id : NodeId} (parent : workspace.parent? id = none) :
    workspace.previous? id = none ∧ workspace.next? id = none := by
  have outside : ∀ owner name, id ∉ chains owner name := by
    intro owner name member
    cases parent.symm.trans (arranged.parent?_eq member)
  constructor
  · rw [Option.eq_none_iff_forall_ne_some]
    intro first previous
    rcases arranged.exists_mem_of_next?
      (arranged.next?_iff_previous?.mpr previous) with ⟨owner, name, _, member⟩
    exact outside owner name member
  · rw [Option.eq_none_iff_forall_ne_some]
    intro second next
    rcases arranged.exists_mem_of_next? next with ⟨owner, name, member, _⟩
    exact outside owner name member

/-- No slot takes a block creator. -/
theorem parent?_of_creator (arranged : workspace.Arranged chains order)
    {id : NodeId} (kind : workspace.kind? id = some .blockCreator) :
    workspace.parent? id = none := by
  rw [Option.eq_none_iff_forall_ne_some]
  intro owner parent
  rcases arranged.exists_mem_of_parent? parent with ⟨name, member⟩
  rcases arranged.exists_sitsIn member with ⟨_, _, node, _, found, sits⟩
  have creator : node.kind = .blockCreator := by
    simpa [kind?, found] using kind
  have fits := sits.fits
  rw [creator, Kind.fits_blockCreator] at fits
  cases fits

theorem wellLinked (arranged : workspace.Arranged chains order) :
    workspace.WellLinked where
  id_eq := arranged.id_eq
  link_lt := arranged.link_lt_size
  slotNames_nodup := by
    intro id node found
    rcases arranged.slotNames found with ⟨members, names⟩
    rw [names]
    exact node.kind.slotsWith_nodup members
  next_iff_previous := arranged.next?_iff_previous?
  parent_eq_of_next := by
    intro first second next
    rcases arranged.exists_mem_of_next? next with
      ⟨owner, name, firstMember, secondMember⟩
    rw [arranged.parent?_eq firstMember, arranged.parent?_eq secondMember]
  parent_iff := arranged.parent?_iff
  slotChain_nodup := by
    intro owner name
    rw [arranged.slotChain_eq]
    exact (List.nodup_cons.mp (arranged.nodup owner name)).2
  slotChain_closed := by
    intro owner name id following member next
    rw [arranged.slotChain_eq] at member ⊢
    rcases arranged.exists_sitsIn member with ⟨before, after, _, split, _, _⟩
    rw [arranged.next?_of_split split] at next
    rw [split]
    exact List.mem_append_right before
      (List.mem_cons_of_mem id (List.mem_of_head? next))
  target_iff := by
    intro owner name id member
    rw [arranged.slotChain_eq] at member
    exact arranged.target?_iff member
  loose := arranged.loose_of_parent?
  ends := by
    intro id inside
    have atMost : rank order workspace.size id < workspace.size :=
      rank_lt inside
    rcases arranged.toRank.exists_top _ id le_rfl with
      ⟨steps, top, few, way, ends⟩
    exact ⟨steps, top, by omega, way, ends⟩
  fits := by
    intro owner name id member
    rw [arranged.slotChain_eq] at member
    rcases arranged.exists_sitsIn member with ⟨_, _, node, _, found, sits⟩
    exact ⟨node.kind, by simp [kind?, found], sits.fits⟩
  single := by
    intro owner name holdsType
    rw [arranged.slotChain_eq]
    exact arranged.single holdsType
  creator_loose := arranged.parent?_of_creator

/-- The chain that a generator walks is the chain that the links list. -/
theorem tree_chain_eq (arranged : workspace.Arranged chains order)
    (owner : NodeId) (name : String) :
    workspace.tree.chain owner name = chains owner name := by
  have walk : ∀ (after before met : List NodeId) (fuel : Nat),
      chains owner name = before ++ after → after.length ≤ fuel →
        met ⊆ before →
          workspace.tree.chainFrom fuel met after.head? = after := by
    intro after
    induction after with
    | nil =>
        intro before met fuel split enough inside
        cases fuel <;> rfl
    | cons id after after_ih =>
        intro before met fuel split enough inside
        rcases fuel with _ | fuel
        · simp at enough
        · have fresh : id ∉ met := by
            intro again
            have distinct := (List.nodup_cons.mp (arranged.nodup owner name)).2
            rw [split, List.nodup_append] at distinct
            exact distinct.2.2 id (inside again) id (by simp) rfl
          have shifted : chains owner name = (before ++ [id]) ++ after := by
            rw [split]
            simp
          rw [List.head?_cons, BlockTree.chainFrom, if_neg fresh,
            tree_nextSibling, arranged.next?_of_split split,
            after_ih (before ++ [id]) (id :: met) fuel shifted
              (by simpa using enough)]
          intro other member
          rcases List.mem_cons.mp member with same | earlier
          · simp [same]
          · simp [inside earlier]
  rw [BlockTree.chain, tree_slotTarget, arranged.target_eq]
  apply walk _ [] [] _ rfl _ (List.Subset.refl [])
  exact Nat.le_succ_of_le (arranged.length_le_size owner name)

end Arranged

/-! ## Workspaces that edits build -/

/-- An edit that succeeds turns an arranged workspace into an arranged one. -/
theorem exists_arranged_of_perform {workspace edited : Workspace} {edit : Edit}
    {chains : NodeId → String → List NodeId} {order : NodeId → Nat}
    (arranged : workspace.Arranged chains order)
    (succeeds : workspace.perform edit = .ok edited) :
    ∃ newChains newOrder, edited.Arranged newChains newOrder := by
  cases edit with
  | addNode kind =>
      cases succeeds
      exact ⟨chains, order, arranged.addNode kind⟩
  | setField id key value =>
      rw [update_eq_ok succeeds]
      exact ⟨chains, order,
        arranged.modify id fun node => node.keeps_fields _⟩
  | setMutation id mutation =>
      rw [update_eq_ok succeeds]
      exact ⟨chains, order,
        arranged.modify id fun node => node.keeps_setMutation mutation⟩
  | attach parent name child =>
      rcases attachable_of_attach arranged succeeds with ⟨attachable, equal⟩
      rw [equal]
      exact ⟨_, arranged.link attachable⟩

theorem exists_arranged_after {workspace : Workspace}
    {chains : NodeId → String → List NodeId} {order : NodeId → Nat}
    (arranged : workspace.Arranged chains order) (edit : Edit) :
    ∃ newChains newOrder,
      (workspace.after edit).Arranged newChains newOrder := by
  unfold after
  cases performed : workspace.perform edit with
  | ok edited => exact exists_arranged_of_perform arranged performed
  | error _ => exact ⟨chains, order, arranged⟩

theorem exists_arranged_afterAll {workspace : Workspace} {edits : List Edit} :
    ∀ {chains order}, workspace.Arranged chains order →
      ∃ newChains newOrder,
        (workspace.afterAll edits).Arranged newChains newOrder := by
  unfold afterAll
  induction edits generalizing workspace with
  | nil =>
      intro chains order arranged
      exact ⟨chains, order, arranged⟩
  | cons edit edits edits_ih =>
      intro chains order arranged
      rcases exists_arranged_after arranged edit with
        ⟨newChains, newOrder, next⟩
      exact edits_ih next

/-- Every workspace that edits build is arranged by its own chains, with
numbers below the number of nodes. -/
theorem exists_arranged_run (edits : List Edit) :
    ∃ order, (run edits).Arranged (run edits).tree.chain order ∧
      ∀ id, order id ≤ (run edits).size := by
  have start : empty.Arranged (fun _ _ => []) fun _ => 0 :=
    Arranged.empty fun _ => 0
  have built : ∃ chains order, (run edits).Arranged chains order :=
    exists_arranged_afterAll start
  rcases built with ⟨chains, order, arranged⟩
  have same : (run edits).tree.chain = chains := by
    funext owner name
    exact arranged.tree_chain_eq owner name
  rw [same]
  exact ⟨_, arranged.toRank, rank_le order _⟩

/-- Whatever edits are tried, succeeding or failing, the links of the workspace
agree with one another. -/
theorem run_wellLinked (edits : List Edit) : (run edits).WellLinked := by
  rcases exists_arranged_run edits with ⟨order, arranged, _⟩
  exact arranged.wellLinked

end Workspace

end BlockForge
