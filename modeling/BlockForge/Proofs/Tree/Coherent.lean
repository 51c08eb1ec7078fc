import BlockForge.Proofs.Workspace.Links

/-!
# Coherent trees

A tree is coherent if its links agree with one another: slots are those of the
kind of a node, chains hold what fits their slot, and the nodes can be numbered
so that every link downwards or along a chain leads to a larger number.  The
trees of the workspaces that edits build are coherent.

On a coherent tree every walk ends, so the bounded definitions of the tree obey
equations without a bound: `descendants_eq` for the nodes of a subtree and
`isLive_iff` for the reach of a block creator.
-/

namespace BlockForge

theorem mapM_congr {m : Type → Type} [Monad m] [LawfulMonad m] {α β : Type}
    {first second : α → m β} {list : List α}
    (same : ∀ item ∈ list, first item = second item) :
    list.mapM first = list.mapM second := by
  induction list with
  | nil => rfl
  | cons head rest rest_ih =>
      rw [List.mapM_cons, List.mapM_cons, same head (by simp),
        rest_ih fun item member => same item (by simp [member])]

theorem mapM_eq_some {α β : Type} {partially : α → Option β} {total : α → β}
    {list : List α}
    (defined : ∀ item ∈ list, partially item = some (total item)) :
    list.mapM partially = some (list.map total) :=
  (mapM_congr defined).trans List.mapM_pure

theorem mapM_map_result {α β γ : Type} (partially : α → Option β) (after : β → γ)
    (list : List α) :
    list.mapM (fun item => (partially item).map after) =
      (list.mapM partially).map (List.map after) := by
  induction list with
  | nil => rfl
  | cons head rest rest_ih =>
      rw [List.mapM_cons, List.mapM_cons, rest_ih]
      cases partially head with
      | none => rfl
      | some first => cases rest.mapM partially <;> rfl

/-- The chain that starts with an optional node, as the next siblings list it. -/
inductive BlockTree.Follows (tree : BlockTree) :
    Option NodeId → List NodeId → Prop where
  | nil : tree.Follows none []
  | cons {id : NodeId} {rest : List NodeId}
      (next : tree.Follows (tree.nextSibling id) rest) :
      tree.Follows (some id) (id :: rest)

/-- The links of a tree agree with one another and with a numbering. -/
structure BlockTree.Coherent (tree : BlockTree) (rank : NodeId → Nat) :
    Prop where
  slotNames_eq : ∀ {id kind}, tree.kind id = some kind →
    ∃ members, tree.slotNames id = kind.slotsWith members
  children_eq : ∀ id, tree.children id =
    (tree.slotNames id).filterMap (tree.slotTarget id) ++
      (tree.nextSibling id).toList
  mem_slotNames : ∀ {id name target}, tree.slotTarget id name = some target →
    name ∈ tree.slotNames id
  follows : ∀ owner name,
    tree.Follows (tree.slotTarget owner name) (tree.chain owner name)
  parent_eq : ∀ {owner name id}, id ∈ tree.chain owner name →
    tree.surroundingParent id = some owner
  fits : ∀ {owner name id}, id ∈ tree.chain owner name →
    ∃ kind, tree.kind id = some kind ∧ kind.fits name = true
  single : ∀ {owner name}, Slot.isType name = true →
    (tree.chain owner name).length ≤ 1
  creator_loose : ∀ {id}, tree.kind id = some .blockCreator →
    tree.nextSibling id = none
  slot_lt : ∀ {id name target}, tree.slotTarget id name = some target →
    rank id < rank target
  next_lt : ∀ {id next}, tree.nextSibling id = some next → rank id < rank next
  parent_lt : ∀ {id parent}, tree.surroundingParent id = some parent →
    rank parent < rank id
  rank_le : ∀ id, rank id ≤ tree.size

namespace BlockTree

/-- The nodes of the subtree of a node in preorder, none for a loop. -/
def descendants (tree : BlockTree) (node : NodeId) : List NodeId :=
  (tree.descendants? node).getD []

/-- Counting a subtree counts the nodes that listing it gives. -/
theorem countWithin_eq (tree : BlockTree) {depth : Nat} :
    ∀ node, tree.countWithin depth node =
      (tree.descendantsWithin depth node).map List.length := by
  induction depth with
  | zero => exact fun node => rfl
  | succ depth depth_ih =>
      intro node
      have below : (tree.children node).mapM (tree.countWithin depth) =
          ((tree.children node).mapM (tree.descendantsWithin depth)).map
            (List.map List.length) := by
        rw [← mapM_map_result]
        exact mapM_congr fun child _ => depth_ih child
      rw [countWithin, descendantsWithin, below]
      cases (tree.children node).mapM (tree.descendantsWithin depth) with
      | none => rfl
      | some lists => simp [Nat.add_comm, List.sum_eq_foldr]

namespace Coherent

variable {tree : BlockTree} {rank : NodeId → Nat}

theorem child_lt (coherent : tree.Coherent rank) {id child : NodeId}
    (member : child ∈ tree.children id) : rank id < rank child := by
  rw [coherent.children_eq, List.mem_append, List.mem_filterMap,
    Option.mem_toList] at member
  rcases member with ⟨name, _, target⟩ | next
  · exact coherent.slot_lt target
  · exact coherent.next_lt next

/-! ## Descendants -/

theorem exists_descendantsWithin (coherent : tree.Coherent rank) {depth : Nat} :
    ∀ {id}, tree.size < depth + rank id →
      ∃ list, tree.descendantsWithin depth id = some list := by
  induction depth with
  | zero =>
      intro id enough
      have bound := coherent.rank_le id
      omega
  | succ depth depth_ih =>
      intro id enough
      have defined : ∀ child ∈ tree.children id,
          tree.descendantsWithin depth child =
            some ((tree.descendantsWithin depth child).getD []) := by
        intro child member
        have less := coherent.child_lt member
        have enoughBelow : tree.size < depth + rank child := by omega
        rcases depth_ih enoughBelow with ⟨list, found⟩
        rw [found]
        rfl
      exact ⟨_, by rw [descendantsWithin, mapM_eq_some defined]; rfl⟩

theorem descendantsWithin_succ (coherent : tree.Coherent rank) {depth : Nat} :
    ∀ {id}, tree.size < depth + rank id →
      tree.descendantsWithin depth id =
        tree.descendantsWithin (depth + 1) id := by
  induction depth with
  | zero =>
      intro id enough
      have bound := coherent.rank_le id
      omega
  | succ depth depth_ih =>
      intro id enough
      have same : (tree.children id).mapM (tree.descendantsWithin depth) =
          (tree.children id).mapM (tree.descendantsWithin (depth + 1)) := by
        apply mapM_congr
        intro child member
        have less := coherent.child_lt member
        exact depth_ih (by omega)
      rw [descendantsWithin, descendantsWithin, same]

theorem descendants?_eq_some (coherent : tree.Coherent rank) (id : NodeId) :
    tree.descendants? id = some (tree.descendants id) := by
  have enough : tree.size < tree.size + 1 + rank id := by omega
  rcases coherent.exists_descendantsWithin enough with ⟨list, found⟩
  rw [descendants, descendants?, found]
  rfl

theorem descendantCount?_eq_some (coherent : tree.Coherent rank) (id : NodeId) :
    tree.descendantCount? id = some (tree.descendants id).length := by
  have listed := coherent.descendants?_eq_some id
  rw [descendants?] at listed
  rw [descendantCount?, countWithin_eq, listed]
  rfl

/-- The subtree of a node is the node and the subtrees of its children. -/
theorem descendants_eq (coherent : tree.Coherent rank) (id : NodeId) :
    tree.descendants id =
      id :: (tree.children id).flatMap tree.descendants := by
  have defined : ∀ child ∈ tree.children id,
      tree.descendantsWithin tree.size child =
        some (tree.descendants child) := by
    intro child member
    have less := coherent.child_lt member
    rw [coherent.descendantsWithin_succ (by omega)]
    exact coherent.descendants?_eq_some child
  have unfolded :
      tree.descendants? id =
        some (id :: ((tree.children id).map tree.descendants).flatten) := by
    rw [descendants?, descendantsWithin, mapM_eq_some defined]
    rfl
  rw [descendants, unfolded, List.flatMap_def]
  rfl

theorem ancestors_succ (coherent : tree.Coherent rank) {count : Nat} :
    ∀ {id}, rank id ≤ count →
      tree.ancestors count id = tree.ancestors (count + 1) id := by
  induction count with
  | zero =>
      intro id least
      have top : tree.surroundingParent id = none := by
        rw [Option.eq_none_iff_forall_ne_some]
        intro parent step
        have less := coherent.parent_lt step
        omega
      simp [ancestors, top]
  | succ count count_ih =>
      intro id atMost
      unfold ancestors
      cases step : tree.surroundingParent id with
      | none => rfl
      | some parent =>
          have less := coherent.parent_lt step
          dsimp only
          rw [count_ih (by omega)]

/-- The nodes around a node are its parent and the nodes around that. -/
theorem ancestors_eq_cons (coherent : tree.Coherent rank) {owner id : NodeId}
    (step : tree.surroundingParent id = some owner) :
    tree.ancestors tree.size id = owner :: tree.ancestors tree.size owner := by
  have less := coherent.parent_lt step
  have bound := coherent.rank_le id
  rcases size : tree.size with _ | count
  · omega
  · have atMost : rank owner ≤ count := by omega
    rw [← coherent.ancestors_succ atMost]
    simp [ancestors, step]

/-- A member of a chain is in reach of a block creator if the owner of the
chain is one or is in reach of one. -/
theorem isLive_iff (coherent : tree.Coherent rank) {owner id : NodeId}
    {name : String} (member : id ∈ tree.chain owner name) :
    tree.isLive id = true ↔
      tree.kind owner = some .blockCreator ∨ tree.isLive owner = true := by
  rw [isLive, coherent.ancestors_eq_cons (coherent.parent_eq member)]
  simp [isLive]

/-! ## Slots and chains -/

theorem hasSlot_of_mem (coherent : tree.Coherent rank) {id : NodeId}
    {kind : Kind} (ofKind : tree.kind id = some kind) {name : String}
    (member : name ∈ kind.slotNames) : tree.hasSlot id name = true := by
  rcases coherent.slotNames_eq ofKind with ⟨members, names⟩
  simp [hasSlot, names, Kind.mem_slotsWith, member]

/-- Nothing hangs in a slot that is neither one of its kind nor for a member. -/
theorem slotTarget_eq_none (coherent : tree.Coherent rank) {id : NodeId}
    {kind : Kind} (ofKind : tree.kind id = some kind) {name : String}
    (notOfKind : name ∉ kind.slotNames)
    (notMember : ∀ index, Slot.member index ≠ name) :
    tree.slotTarget id name = none := by
  rw [Option.eq_none_iff_forall_ne_some]
  intro target hangs
  rcases coherent.slotNames_eq ofKind with ⟨members, names⟩
  have named := coherent.mem_slotNames hangs
  rw [names, Kind.mem_slotsWith] at named
  rcases named with ofKind | ⟨index, _, same⟩
  · exact notOfKind ofKind
  · exact notMember index same

theorem chain_eq_nil_iff (coherent : tree.Coherent rank) {id : NodeId}
    {name : String} :
    tree.chain id name = [] ↔ tree.slotTarget id name = none := by
  have follows := coherent.follows id name
  constructor
  · intro empty
    rw [empty] at follows
    cases target : tree.slotTarget id name with
    | none => rfl
    | some head =>
        rw [target] at follows
        cases follows
  · intro vacant
    rw [vacant] at follows
    generalize tree.chain id name = list at follows ⊢
    cases follows
    rfl

theorem Follows.rank_lt (coherent : tree.Coherent rank) {start : Option NodeId}
    {list : List NodeId} (follows : tree.Follows start list) {bound : Nat}
    (above : ∀ head, start = some head → bound < rank head) :
    ∀ id ∈ list, bound < rank id := by
  induction follows with
  | nil => simp
  | cons next next_ih =>
      rename_i head rest
      intro id member
      rcases List.mem_cons.mp member with same | inRest
      · rw [same]
        exact above head rfl
      · apply next_ih ?_ id inRest
        intro following step
        exact (above head rfl).trans (coherent.next_lt step)

/-- What hangs in a slot comes after its owner. -/
theorem rank_lt_of_mem (coherent : tree.Coherent rank) {owner id : NodeId}
    {name : String} (member : id ∈ tree.chain owner name) :
    rank owner < rank id :=
  Follows.rank_lt coherent (coherent.follows owner name)
    (fun _ target => coherent.slot_lt target) id member

/-- The only member of the chain in a type slot. -/
theorem mem_chain_of_slotTarget (coherent : tree.Coherent rank)
    {owner id : NodeId} {name : String}
    (target : tree.slotTarget owner name = some id) :
    id ∈ tree.chain owner name := by
  have follows := coherent.follows owner name
  rw [target] at follows
  cases listed : tree.chain owner name with
  | nil =>
      rw [listed] at follows
      cases follows
  | cons head rest =>
      rw [listed] at follows
      cases follows
      simp

end Coherent

end BlockTree

namespace Workspace

variable {workspace : Workspace} {order : NodeId → Nat}

theorem Arranged.tree_children_eq
    {chains : NodeId → String → List NodeId}
    (arranged : workspace.Arranged chains order) (id : NodeId) :
    workspace.tree.children id =
      (workspace.tree.slotNames id).filterMap (workspace.tree.slotTarget id) ++
        (workspace.tree.nextSibling id).toList := by
  cases found : workspace.node? id with
  | none => simp [tree, next?, found]
  | some node =>
      have targets :
          (node.slots.map Slot.name).filterMap (workspace.target? id) =
            node.slots.filterMap Slot.target := by
        rw [List.filterMap_map]
        apply List.filterMap_congr
        intro slot member
        exact arranged.target?_of_mem_slots found member
      have children :
          workspace.tree.children id =
            node.slots.filterMap Slot.target ++ node.next.toList := by
        simp [tree, found, Node.children]
      have slotNames :
          workspace.tree.slotNames id = node.slots.map Slot.name := by
        simp [tree, found]
      have next : workspace.next? id = node.next := by simp [next?, found]
      rw [children, slotNames, tree_nextSibling, next, ← targets]
      rfl

theorem Arranged.follows_of_split
    {chains : NodeId → String → List NodeId}
    (arranged : workspace.Arranged chains order) {owner : NodeId}
    {name : String} {after : List NodeId} :
    ∀ before, chains owner name = before ++ after →
      workspace.tree.Follows after.head? after := by
  induction after with
  | nil =>
      intro before split
      exact .nil
  | cons id after after_ih =>
      intro before split
      apply BlockTree.Follows.cons
      rw [tree_nextSibling, arranged.next?_of_split split]
      exact after_ih (before ++ [id]) (by simpa using split)

/-- The tree of an arranged workspace is coherent. -/
theorem Arranged.coherent
    (arranged : workspace.Arranged workspace.tree.chain order)
    (bounded : ∀ id, order id ≤ workspace.size) :
    workspace.tree.Coherent order where
  slotNames_eq := by
    intro id kind ofKind
    rcases Option.map_eq_some_iff.mp ofKind with ⟨node, found, rfl⟩
    simpa [tree, found] using arranged.slotNames found
  children_eq := arranged.tree_children_eq
  mem_slotNames := by
    intro id name target hangs
    exact arranged.mem_slotNames_of_mem (arranged.mem_of_target? hangs)
  follows := by
    intro owner name
    rw [tree_slotTarget, arranged.target_eq]
    exact arranged.follows_of_split [] rfl
  parent_eq := arranged.parent?_eq
  fits := by
    intro owner name id member
    rcases arranged.exists_sitsIn member with ⟨_, _, node, _, found, sits⟩
    exact ⟨node.kind, by simp [kind?, found], sits.fits⟩
  single := arranged.single
  creator_loose := by
    intro id creator
    have links := arranged.wellLinked
    exact (links.loose (links.creator_loose creator)).2
  slot_lt := by
    intro id name target hangs
    exact arranged.order_lt_of_mem (arranged.mem_of_target? hangs)
  next_lt := by
    intro id next step
    rcases arranged.exists_split_of_next? step with
      ⟨owner, name, before, after, split⟩
    have ascending := (List.pairwise_cons.mp (arranged.ascending owner name)).2
    rw [split, List.pairwise_append, List.pairwise_cons] at ascending
    exact ascending.2.1.1 next (by simp)
  parent_lt := by
    intro id parent step
    rcases arranged.exists_mem_of_parent? step with ⟨name, member⟩
    exact arranged.order_lt_of_mem member
  rank_le := bounded

/-- Whatever edits are tried, the tree of the workspace is coherent. -/
theorem exists_coherent_run (edits : List Edit) :
    ∃ rank, (run edits).tree.Coherent rank := by
  rcases exists_arranged_run edits with ⟨order, arranged, bounded⟩
  exact ⟨order, arranged.coherent bounded⟩

end Workspace

end BlockForge
