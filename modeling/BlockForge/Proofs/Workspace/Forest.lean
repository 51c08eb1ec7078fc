import BlockForge.Proofs.Generation.Arguments

/-!
# The forest of a workspace

The nodes of a workspace that edits build form a forest: its trees are the
subtrees of the nodes that hang nowhere, and every node is in exactly one of
them.  The links downwards list a subtree, the links upwards lead out of it;
`mem_own_iff` says that both see the same nodes.

The main theorem is `run_forest`.  It lists what the forest means for the
listings of subtrees and for the reach of the block creators.
-/

namespace BlockForge

namespace Workspace

variable {workspace : Workspace}

theorem Surrounds.trans {outer middle inner : NodeId}
    (above : workspace.Surrounds outer middle)
    (below : workspace.Surrounds middle inner) :
    workspace.Surrounds outer inner :=
  Relation.ReflTransGen.trans below above

theorem surrounds_of_parent? {owner id : NodeId}
    (parent : workspace.parent? id = some owner) :
    workspace.Surrounds owner id :=
  surrounds_iff.mpr (.inr ⟨owner, parent, .refl⟩)

theorem lt_size_of_parent? {id owner : NodeId}
    (parent : workspace.parent? id = some owner) : id < workspace.size := by
  rcases Option.bind_eq_some_iff.mp parent with ⟨node, found, _⟩
  exact lt_size_of_node? found

theorem lt_size_of_surrounds {top id : NodeId} (inside : top < workspace.size)
    (surrounds : workspace.Surrounds top id) : id < workspace.size := by
  rcases surrounds_iff.mp surrounds with same | ⟨owner, step, _⟩
  · rw [same]
    exact inside
  · exact lt_size_of_parent? step

/-- Of two nodes around a third, one is around the other. -/
theorem Surrounds.total {first second id : NodeId}
    (aroundFirst : workspace.Surrounds first id)
    (aroundSecond : workspace.Surrounds second id) :
    workspace.Surrounds first second ∨ workspace.Surrounds second first := by
  have unique : Relator.RightUnique fun inner outer =>
      workspace.parent? inner = some outer := by
    intro inner outer other step otherStep
    exact Option.some.inj (step.symm.trans otherStep)
  exact (Relation.ReflTransGen.total_of_right_unique unique aroundFirst
    aroundSecond).symm

namespace Arranged

variable {chains : NodeId → String → List NodeId} {order : NodeId → Nat}

theorem order_lt_of_parent? (arranged : workspace.Arranged chains order)
    {id owner : NodeId} (parent : workspace.parent? id = some owner) :
    order owner < order id := by
  rcases arranged.exists_mem_of_parent? parent with ⟨name, member⟩
  exact arranged.order_lt_of_mem member

theorem order_le_of_surrounds (arranged : workspace.Arranged chains order)
    {outer inner : NodeId} (surrounds : workspace.Surrounds outer inner) :
    order outer ≤ order inner := by
  induction surrounds with
  | refl => exact le_rfl
  | tail way step way_ih =>
      exact (arranged.order_lt_of_parent? step).le.trans way_ih

/-- Only one of the nodes with the same parent is around a given node. -/
theorem eq_of_surrounds (arranged : workspace.Arranged chains order)
    {first second id : NodeId}
    (siblings : workspace.parent? first = workspace.parent? second)
    (aroundFirst : workspace.Surrounds first id)
    (aroundSecond : workspace.Surrounds second id) : first = second := by
  have apart : ∀ {upper lower : NodeId},
      workspace.parent? upper = workspace.parent? lower →
        workspace.Surrounds upper lower → lower = upper := by
    intro upper lower same surrounds
    rcases surrounds_iff.mp surrounds with equal | ⟨owner, step, above⟩
    · exact equal
    · have less := arranged.order_lt_of_parent? (same.trans step)
      have most := arranged.order_le_of_surrounds above
      omega
  rcases aroundFirst.total aroundSecond with above | below
  · exact (apart siblings above).symm
  · exact apart siblings.symm below

/-! ## Nodes that hang nowhere -/

theorem map_id_nodes (arranged : workspace.Arranged chains order) :
    workspace.nodes.toList.map Node.id = List.range workspace.size := by
  apply List.ext_getElem
  · simp [size]
  · intro index inMap inRange
    have bound : index < workspace.nodes.size := by simpa using inMap
    have found : workspace.node? index = some workspace.nodes[index] :=
      Array.getElem?_eq_getElem bound
    simpa using arranged.id_eq found

theorem node?_id_of_mem (arranged : workspace.Arranged chains order)
    {node : Node} (member : node ∈ workspace.nodes.toList) :
    workspace.node? node.id = some node := by
  rcases Array.getElem_of_mem (Array.mem_toList_iff.mp member) with
    ⟨index, bound, rfl⟩
  have found : workspace.node? index = some workspace.nodes[index] :=
    Array.getElem?_eq_getElem bound
  rw [arranged.id_eq found]
  exact found

/-- A node is free if nothing surrounds it: then nothing comes before it. -/
theorem isFree_iff (arranged : workspace.Arranged chains order) {id : NodeId}
    {node : Node} (found : workspace.node? id = some node) :
    node.isFree = true ↔ workspace.parent? id = none := by
  have parent_eq : workspace.parent? id = node.parent := by
    simp [parent?, found]
  have previous_eq : workspace.previous? id = node.previous := by
    simp [previous?, found]
  constructor
  · intro free
    rw [Node.isFree, Bool.and_eq_true] at free
    simpa [parent_eq] using free.1
  · intro loose
    have noPrevious := (arranged.loose_of_parent? loose).1
    rw [parent_eq] at loose
    rw [previous_eq] at noPrevious
    simp [Node.isFree, loose, noPrevious]

/-- The nodes that hang nowhere are those without parent, in order. -/
theorem topBlocks_eq (arranged : workspace.Arranged chains order) :
    workspace.topBlocks =
      (List.range workspace.size).filter fun id =>
        (workspace.parent? id).isNone := by
  have free : ∀ node ∈ workspace.nodes.toList,
      node.isFree = (workspace.parent? node.id).isNone := by
    intro node member
    rw [Bool.eq_iff_iff, arranged.isFree_iff (arranged.node?_id_of_mem member),
      Option.isNone_iff_eq_none]
  rw [topBlocks, List.filter_congr free, ← arranged.map_id_nodes,
    List.filter_map]
  rfl

theorem mem_topBlocks (arranged : workspace.Arranged chains order)
    {id : NodeId} :
    id ∈ workspace.topBlocks ↔
      id < workspace.size ∧ workspace.parent? id = none := by
  rw [arranged.topBlocks_eq, List.mem_filter, List.mem_range,
    Option.isNone_iff_eq_none]

theorem topBlocks_ascending (arranged : workspace.Arranged chains order) :
    workspace.topBlocks.Pairwise (· < ·) := by
  rw [arranged.topBlocks_eq]
  exact List.pairwise_lt_range.filter _

/-- Every node is below one that hangs nowhere. -/
theorem exists_top_surrounds (arranged : workspace.Arranged chains order)
    {bound : Nat} :
    ∀ {id}, id < workspace.size → order id < bound →
      ∃ top ∈ workspace.topBlocks, workspace.Surrounds top id := by
  induction bound with
  | zero =>
      intro id inside below
      exact absurd below (Nat.not_lt_zero _)
  | succ bound bound_ih =>
      intro id inside below
      cases parent : workspace.parent? id with
      | none => exact ⟨id, arranged.mem_topBlocks.mpr ⟨inside, parent⟩, .refl⟩
      | some owner =>
          have less := arranged.order_lt_of_parent? parent
          rcases arranged.exists_mem_of_parent? parent with ⟨name, member⟩
          rcases bound_ih (arranged.owner_lt_size member) (by omega) with
            ⟨top, isTop, around⟩
          exact ⟨top, isTop, around.trans (surrounds_of_parent? parent)⟩

/-! ## Subtrees -/

theorem slotNames_nodup (arranged : workspace.Arranged chains order)
    (id : NodeId) : (workspace.tree.slotNames id).Nodup := by
  cases found : workspace.node? id with
  | none => simp [tree, found]
  | some node =>
      rcases arranged.slotNames found with ⟨members, names⟩
      have listed : workspace.tree.slotNames id = node.slots.map Slot.name := by
        simp [tree, found]
      rw [listed, names]
      exact node.kind.slotsWith_nodup members

/-- No node hangs twice in the slots of a node. -/
theorem nodup_hanging (arranged : workspace.Arranged chains order)
    (id : NodeId) :
    ((workspace.tree.slotNames id).flatMap (chains id)).Nodup := by
  rw [List.nodup_flatMap]
  constructor
  · intro name _
    exact (List.nodup_cons.mp (arranged.nodup id name)).2
  · apply (arranged.slotNames_nodup id).imp
    intro first second differs child inFirst inSecond
    exact differs (arranged.name_eq inFirst inSecond)

section

variable (arranged : workspace.Arranged workspace.tree.chain order)
  (bounded : ∀ id, order id ≤ workspace.size)

include arranged bounded

/-- The listing of a subtree holds what its node surrounds. -/
theorem mem_own_iff {top id : NodeId} :
    id ∈ workspace.tree.own top ↔ workspace.Surrounds top id := by
  have coherent := arranged.coherent bounded
  constructor
  · have down : ∀ bound {top}, workspace.size < bound + order top →
        id ∈ workspace.tree.own top → workspace.Surrounds top id := by
      intro bound
      induction bound with
      | zero =>
          intro top enough
          have most := bounded top
          omega
      | succ bound bound_ih =>
          intro top enough member
          rw [coherent.own_eq, List.mem_cons] at member
          rcases member with rfl | below
          · exact .refl
          · rcases List.mem_flatMap.mp below with ⟨name, _, inChains⟩
            rcases List.mem_flatMap.mp inChains with ⟨child, inChain, inOwn⟩
            have less := arranged.order_lt_of_mem inChain
            exact (surrounds_of_parent? (arranged.parent?_eq inChain)).trans
              (bound_ih (by omega) inOwn)
    exact down (workspace.size + 1) (by omega)
  · intro surrounds
    induction surrounds with
    | refl =>
        rw [coherent.own_eq]
        exact List.mem_cons_self
    | tail way step way_ih =>
        rename_i owner child
        rcases arranged.exists_mem_of_parent? step with ⟨name, inChain⟩
        have hasSlot := arranged.mem_slotNames_of_mem inChain
        rw [coherent.own_eq]
        exact List.mem_cons_of_mem _ (List.mem_flatMap.mpr
          ⟨name, hasSlot, List.mem_flatMap.mpr ⟨owner, inChain, way_ih⟩⟩)

/-- Subtrees of different nodes with the same parent have no common nodes. -/
theorem nodup_flatMap_own {ids : List NodeId} (parent : Option NodeId)
    (distinct : ids.Nodup)
    (siblings : ∀ id ∈ ids, workspace.parent? id = parent)
    (each : ∀ id ∈ ids, (workspace.tree.own id).Nodup) :
    (ids.flatMap workspace.tree.own).Nodup := by
  rw [List.nodup_flatMap]
  refine ⟨each, distinct.imp_of_mem ?_⟩
  intro first second inFirst inSecond differs id ofFirst ofSecond
  apply differs
  apply arranged.eq_of_surrounds
  · rw [siblings first inFirst, siblings second inSecond]
  · exact (arranged.mem_own_iff bounded).mp ofFirst
  · exact (arranged.mem_own_iff bounded).mp ofSecond

theorem nodup_own : ∀ id, (workspace.tree.own id).Nodup := by
  have coherent := arranged.coherent bounded
  have down : ∀ bound {id}, workspace.size < bound + order id →
      (workspace.tree.own id).Nodup := by
    intro bound
    induction bound with
    | zero =>
        intro id enough
        have most := bounded id
        omega
    | succ bound bound_ih =>
        intro id enough
        have hangs : ∀ child ∈ (workspace.tree.slotNames id).flatMap
            (workspace.tree.chain id),
            ∃ name, child ∈ workspace.tree.chain id name := by
          intro child member
          rcases List.mem_flatMap.mp member with ⟨name, _, inChain⟩
          exact ⟨name, inChain⟩
        rw [coherent.own_eq, ← List.flatMap_assoc, List.nodup_cons]
        constructor
        · intro again
          rcases List.mem_flatMap.mp again with ⟨child, member, inOwn⟩
          rcases hangs child member with ⟨name, inChain⟩
          have less := arranged.order_lt_of_mem inChain
          have most := arranged.order_le_of_surrounds
            ((arranged.mem_own_iff bounded).mp inOwn)
          omega
        · apply arranged.nodup_flatMap_own bounded (some id)
          · exact arranged.nodup_hanging id
          · intro child member
            rcases hangs child member with ⟨name, inChain⟩
            exact arranged.parent?_eq inChain
          · intro child member
            rcases hangs child member with ⟨name, inChain⟩
            have less := arranged.order_lt_of_mem inChain
            exact bound_ih (by omega)
  exact fun id => down (workspace.size + 1) (by omega)

omit bounded in
/-- A node and what follows it have the same parent and follow one another. -/
theorem exists_follows :
    ∀ id, ∃ later, workspace.tree.Follows (some id) (id :: later) ∧
      (id :: later).Nodup ∧
        ∀ other ∈ id :: later,
          workspace.parent? other = workspace.parent? id := by
  intro id
  cases parent : workspace.parent? id with
  | none =>
      have alone : workspace.tree.nextSibling id = none :=
        (arranged.loose_of_parent? parent).2
      have ends : workspace.tree.Follows (workspace.tree.nextSibling id) [] := by
        rw [alone]
        exact .nil
      exact ⟨[], .cons ends, List.nodup_singleton id, by simpa using parent⟩
  | some owner =>
      rcases arranged.exists_mem_of_parent? parent with ⟨name, member⟩
      rcases List.append_of_mem member with ⟨before, after, split⟩
      have distinct := (List.nodup_cons.mp (arranged.nodup owner name)).2
      rw [split] at distinct
      refine ⟨after, ?_, (List.nodup_append.mp distinct).2.1, ?_⟩
      · exact arranged.follows_of_split before split
      · intro other later
        have inChain : other ∈ workspace.tree.chain owner name := by
          rw [split]
          exact List.mem_append_right before later
        exact arranged.parent?_eq inChain

theorem nodup_descendants (id : NodeId) :
    (workspace.tree.descendants id).Nodup := by
  have coherent := arranged.coherent bounded
  rcases arranged.exists_follows id with
    ⟨later, follows, distinct, siblings⟩
  have listed := coherent.flatMap_descendants follows
  rw [Option.toList_some, List.flatMap_singleton] at listed
  rw [listed]
  exact arranged.nodup_flatMap_own bounded _ distinct siblings
    fun other _ => arranged.nodup_own bounded other

/-- Nothing follows a node without parent. -/
theorem descendants_eq_own_of_parent? {id : NodeId}
    (loose : workspace.parent? id = none) :
    workspace.tree.descendants id = workspace.tree.own id := by
  have alone : workspace.tree.nextSibling id = none :=
    (arranged.loose_of_parent? loose).2
  rw [(arranged.coherent bounded).descendants_eq_own, alone, Option.toList_none,
    List.flatMap_nil, List.append_nil]

theorem mem_descendants_iff {top id : NodeId}
    (loose : workspace.parent? top = none) :
    id ∈ workspace.tree.descendants top ↔ workspace.Surrounds top id := by
  rw [arranged.descendants_eq_own_of_parent? bounded loose,
    arranged.mem_own_iff bounded]

/-- Every node is in the subtree of one of the nodes that hang nowhere. -/
theorem descendants_perm :
    (workspace.topBlocks.flatMap workspace.tree.descendants).Perm
      (List.range workspace.size) := by
  have own : ∀ top ∈ workspace.topBlocks,
      workspace.tree.descendants top = workspace.tree.own top := by
    intro top isTop
    exact arranged.descendants_eq_own_of_parent? bounded
      (arranged.mem_topBlocks.mp isTop).2
  rw [List.flatMap_congr own]
  refine (List.perm_ext_iff_of_nodup ?_ List.nodup_range).mpr ?_
  · apply arranged.nodup_flatMap_own bounded none
    · exact arranged.topBlocks_ascending.imp Nat.ne_of_lt
    · exact fun top isTop => (arranged.mem_topBlocks.mp isTop).2
    · exact fun top _ => arranged.nodup_own bounded top
  · intro id
    rw [List.mem_range, List.mem_flatMap]
    constructor
    · rintro ⟨top, isTop, inOwn⟩
      exact lt_size_of_surrounds (arranged.mem_topBlocks.mp isTop).1
        ((arranged.mem_own_iff bounded).mp inOwn)
    · intro inside
      rcases arranged.exists_top_surrounds inside (Nat.lt_succ_self _) with
        ⟨top, isTop, around⟩
      exact ⟨top, isTop, (arranged.mem_own_iff bounded).mpr around⟩

/-! ## The reach of a block creator -/

/-- The reach of a block creator is what it surrounds. -/
theorem isLive_iff_surrounds : ∀ {id}, workspace.tree.isLive id = true ↔
    ∃ root, workspace.kind? root = some .blockCreator ∧ id ≠ root ∧
      workspace.Surrounds root id := by
  have coherent := arranged.coherent bounded
  have up : ∀ bound {id}, order id < bound →
      (workspace.tree.isLive id = true ↔
        ∃ root, workspace.kind? root = some .blockCreator ∧ id ≠ root ∧
          workspace.Surrounds root id) := by
    intro bound
    induction bound with
    | zero =>
        intro id below
        exact absurd below (Nat.not_lt_zero _)
    | succ bound bound_ih =>
        intro id below
        cases parent : workspace.parent? id with
        | none =>
            have nothing : workspace.tree.isLive id = false := by
              have alone : workspace.tree.surroundingParent id = none := parent
              unfold BlockTree.isLive
              cases workspace.tree.size <;> simp [BlockTree.ancestors, alone]
            rw [nothing]
            refine iff_of_false Bool.false_ne_true ?_
            rintro ⟨root, _, differs, around⟩
            rcases surrounds_iff.mp around with same | ⟨owner, step, _⟩
            · exact differs same
            · cases parent.symm.trans step
        | some owner =>
            rcases arranged.exists_mem_of_parent? parent with ⟨name, member⟩
            have less := arranged.order_lt_of_mem member
            rw [coherent.isLive_iff member, bound_ih (by omega)]
            constructor
            · rintro (creator | ⟨root, creator, _, around⟩)
              · refine ⟨owner, creator, ?_, surrounds_of_parent? parent⟩
                rintro rfl
                exact absurd less (lt_irrefl _)
              · refine ⟨root, creator, ?_,
                  around.trans (surrounds_of_parent? parent)⟩
                rintro rfl
                have most := arranged.order_le_of_surrounds around
                omega
            · rintro ⟨root, creator, differs, around⟩
              rcases surrounds_iff.mp around with same | ⟨other, step, above⟩
              · exact absurd same differs
              · cases parent.symm.trans step
                by_cases isRoot : owner = root
                · exact .inl (isRoot ▸ creator)
                · exact .inr ⟨root, creator, isRoot, above⟩
  exact fun {id} => up (order id + 1) (Nat.lt_succ_self _)

/-- The reach of a block creator is its subtree. -/
theorem isLive_iff_mem_descendants {id : NodeId} :
    workspace.tree.isLive id = true ↔
      ∃ root, workspace.kind? root = some .blockCreator ∧
        id ∈ workspace.tree.descendants root ∧ id ≠ root := by
  rw [arranged.isLive_iff_surrounds bounded]
  constructor
  · rintro ⟨root, creator, differs, around⟩
    have loose := arranged.parent?_of_creator creator
    exact ⟨root, creator, (arranged.mem_descendants_iff bounded loose).mpr around,
      differs⟩
  · rintro ⟨root, creator, member, differs⟩
    have loose := arranged.parent?_of_creator creator
    exact ⟨root, creator, differs,
      (arranged.mem_descendants_iff bounded loose).mp member⟩

end

end Arranged

/-- The subtrees of a workspace form a forest, and the reach of a block creator
is its tree. -/
structure Forest (workspace : Workspace) : Prop where
  /-- Every subtree is listed and counted, and no node comes up twice in it. -/
  listed : ∀ id, ∃ nodes, workspace.tree.descendants? id = some nodes ∧
    workspace.tree.descendantCount? id = some nodes.length ∧ nodes.Nodup
  ascending : workspace.tree.topBlocks.Pairwise (· < ·)
  /-- The trees hold every node once. -/
  partition : ∃ trees,
    workspace.tree.topBlocks.mapM workspace.tree.descendants? = some trees ∧
      trees.flatten.Perm (List.range workspace.size)
  top_unique : ∀ {id}, id < workspace.size →
    ∃! top, top ∈ workspace.tree.topBlocks ∧
      ∃ nodes, workspace.tree.descendants? top = some nodes ∧ id ∈ nodes
  live_iff : ∀ {id}, workspace.tree.isLive id = true ↔
    ∃ root nodes, workspace.tree.kind root = some .blockCreator ∧
      workspace.tree.descendants? root = some nodes ∧ id ∈ nodes ∧ id ≠ root
  live_iff_top : ∀ {id}, workspace.tree.isLive id = true ↔
    ∃ top nodes, top ∈ workspace.tree.topBlocks ∧
      workspace.tree.descendants? top = some nodes ∧ id ∈ nodes ∧
        workspace.tree.kind top = some .blockCreator ∧ id ≠ top

theorem Arranged.forest {order : NodeId → Nat}
    (arranged : workspace.Arranged workspace.tree.chain order)
    (bounded : ∀ id, order id ≤ workspace.size) : workspace.Forest := by
  have coherent := arranged.coherent bounded
  refine
    { listed := fun id => ⟨_, coherent.descendants?_eq_some id,
        coherent.descendantCount?_eq_some id,
        arranged.nodup_descendants bounded id⟩
      ascending := arranged.topBlocks_ascending
      partition := ⟨workspace.topBlocks.map workspace.tree.descendants,
        mapM_eq_some fun top _ => coherent.descendants?_eq_some top, ?_⟩
      top_unique := ?_
      live_iff := ?_
      live_iff_top := ?_ }
  · rw [← List.flatMap_def]
    exact arranged.descendants_perm bounded
  · intro id inside
    rcases arranged.exists_top_surrounds inside (Nat.lt_succ_self _) with
      ⟨top, isTop, around⟩
    have loose := (arranged.mem_topBlocks.mp isTop).2
    refine ⟨top, ⟨isTop, _, coherent.descendants?_eq_some top,
      (arranged.mem_descendants_iff bounded loose).mpr around⟩, ?_⟩
    rintro other ⟨otherTop, nodes, listed, member⟩
    cases listed.symm.trans (coherent.descendants?_eq_some other)
    have otherLoose := (arranged.mem_topBlocks.mp otherTop).2
    exact arranged.eq_of_surrounds (otherLoose.trans loose.symm)
      ((arranged.mem_descendants_iff bounded otherLoose).mp member) around
  · intro id
    rw [arranged.isLive_iff_mem_descendants bounded]
    constructor
    · rintro ⟨root, creator, member, differs⟩
      exact ⟨root, _, creator, coherent.descendants?_eq_some root, member,
        differs⟩
    · rintro ⟨root, nodes, creator, listed, member, differs⟩
      cases listed.symm.trans (coherent.descendants?_eq_some root)
      exact ⟨root, creator, member, differs⟩
  · intro id
    rw [arranged.isLive_iff_mem_descendants bounded]
    constructor
    · rintro ⟨root, creator, member, differs⟩
      rcases Option.map_eq_some_iff.mp creator with ⟨node, found, _⟩
      have isTop : root ∈ workspace.topBlocks :=
        arranged.mem_topBlocks.mpr
          ⟨lt_size_of_node? found, arranged.parent?_of_creator creator⟩
      exact ⟨root, _, isTop, coherent.descendants?_eq_some root, member,
        creator, differs⟩
    · rintro ⟨top, nodes, _, listed, member, creator, differs⟩
      cases listed.symm.trans (coherent.descendants?_eq_some top)
      exact ⟨top, creator, member, differs⟩

/-- Whatever edits are tried, the workspace is a forest. -/
theorem run_forest (edits : List Edit) : (run edits).Forest := by
  rcases exists_arranged_run edits with ⟨order, arranged, bounded⟩
  exact arranged.forest bounded

end Workspace

end BlockForge
