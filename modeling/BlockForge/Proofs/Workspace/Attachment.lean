import BlockForge.Proofs.Workspace.Arrangement

/-!
# Attaching a node to an arranged workspace

An attachment puts a free node at the end of the chain in a slot, together with
everything that hangs below it.  Its checks make the result an arrangement
again: the child is not above its new parent, so the numbers of everything
below the child can be lifted above those of its new neighbours.
-/

namespace BlockForge

/-- The node `id` after `child` has come behind `last` in a slot of `parent`. -/
def Node.relink (parent : NodeId) (name : String) (last : Option NodeId)
    (child id : NodeId) (node : Node) : Node :=
  { node with
    slots :=
      if id = parent ∧ last = none then (node.setTarget name child).slots
      else node.slots
    next := if last = some id then some child else node.next
    previous := if id = child then last else node.previous
    parent := if id = child then some parent else node.parent }

@[simp]
theorem Node.map_name_relink (node : Node) (parent : NodeId) (name : String)
    (last : Option NodeId) (child id : NodeId) :
    (node.relink parent name last child id).slots.map Slot.name =
      node.slots.map Slot.name := by
  unfold relink
  dsimp only
  split_ifs
  · exact node.map_name_setTarget name child
  · rfl

theorem Node.target?_relink (node : Node) (parent : NodeId) (name : String)
    (last : Option NodeId) (child id : NodeId) (other : String) :
    (node.relink parent name last child id).target? other =
      if id = parent ∧ last = none then
        (node.setTarget name child).target? other
      else node.target? other := by
  unfold relink target? slot?
  dsimp only
  split_ifs <;> rfl

/-- A node that is not next to the child hangs where it hung. -/
theorem Node.SitsIn.relink {node : Node} {owner id : NodeId} {slot : String}
    {before after : List NodeId} (sits : node.SitsIn owner slot before after)
    (parent : NodeId) (name : String) {child : NodeId} {last : Option NodeId}
    (notChild : id ≠ child) (notLast : last ≠ some id) :
    (node.relink parent name last child id).SitsIn owner slot before after where
  fits := sits.fits
  parent_eq := by simp [Node.relink, notChild, sits.parent_eq]
  previous_eq := by simp [Node.relink, notChild, sits.previous_eq]
  next_eq := by simp [Node.relink, notLast, sits.next_eq]

namespace Workspace

/-- The node `ancestor` is `id` itself or surrounds it. -/
def Surrounds (workspace : Workspace) (ancestor id : NodeId) : Prop :=
  Relation.ReflTransGen
    (fun inner outer => workspace.parent? inner = some outer) id ancestor

theorem surrounds_iff {workspace : Workspace} {ancestor id : NodeId} :
    workspace.Surrounds ancestor id ↔
      id = ancestor ∨
        ∃ parent, workspace.parent? id = some parent ∧
          workspace.Surrounds ancestor parent := by
  constructor
  · intro surrounds
    rcases Relation.ReflTransGen.cases_head surrounds with same | above
    · exact .inl same
    · exact .inr above
  · rintro (same | ⟨parent, step, above⟩)
    · subst same
      exact .refl
    · exact Relation.ReflTransGen.head step above

/-- A way up that does not meet a node does not lead through it. -/
theorem not_surrounds_of_climbs {workspace : Workspace} {ancestor : NodeId}
    {steps : Nat} {start : Option NodeId}
    (apart : workspace.climbs ancestor steps start = false) :
    ∀ {id}, start = some id → ¬ workspace.Surrounds ancestor id := by
  induction steps generalizing start with
  | zero =>
      intro id same surrounds
      subst same
      cases apart
  | succ steps steps_ih =>
      intro id same surrounds
      subst same
      rw [climbs] at apart
      split_ifs at apart with met
      rcases surrounds_iff.mp surrounds with equal | ⟨parent, step, above⟩
      · exact met equal
      · exact steps_ih apart step above

theorem not_surrounds_of_isWithin {workspace : Workspace} {id ancestor : NodeId}
    (differs : ancestor ≠ id) (apart : workspace.isWithin id ancestor = false) :
    ¬ workspace.Surrounds ancestor id := by
  intro surrounds
  rcases surrounds_iff.mp surrounds with equal | ⟨parent, step, above⟩
  · exact differs equal.symm
  · exact not_surrounds_of_climbs apart step above

@[simp]
theorem follow_none (workspace : Workspace) (count : Nat) :
    workspace.follow count none = [] := by
  cases count <;> rfl

/-- A node that nothing follows is a chain of its own. -/
theorem chainFrom_of_next? {workspace : Workspace} {id : NodeId}
    (inside : id < workspace.size) (alone : workspace.next? id = none) :
    workspace.chainFrom id = [id] := by
  unfold chainFrom
  rcases size : workspace.size with _ | count
  · rw [size] at inside
    exact absurd inside (Nat.not_lt_zero id)
  · rw [follow, alone, follow_none]

/-- A chain is extended by a new last member. -/
def extend (chains : NodeId → String → List NodeId) (parent : NodeId)
    (name : String) (child : NodeId) : NodeId → String → List NodeId :=
  fun id slot =>
    if id = parent ∧ slot = name then chains parent name ++ [child]
    else chains id slot

theorem mem_extend {chains : NodeId → String → List NodeId}
    {parent child id other : NodeId} {name slot : String} :
    other ∈ extend chains parent name child id slot ↔
      other ∈ chains id slot ∨
        (id = parent ∧ slot = name ∧ other = child) := by
  unfold extend
  split_ifs with here
  · rcases here with ⟨rfl, rfl⟩
    simp
  · constructor
    · exact .inl
    · rintro (old | ⟨sameId, sameSlot, _⟩)
      · exact old
      · exact absurd ⟨sameId, sameSlot⟩ here

/-- The numbers of everything below a node, raised by an amount. -/
noncomputable def lift (workspace : Workspace) (order : NodeId → Nat)
    (child : NodeId) (amount : Nat) (id : NodeId) : Nat :=
  open scoped Classical in
  if workspace.Surrounds child id then order id + amount else order id

namespace Arranged

variable {workspace : Workspace} {chains : NodeId → String → List NodeId}
  {order : NodeId → Nat}

/-- Following the links from a place in a chain lists the rest of the chain. -/
theorem follow_eq (arranged : workspace.Arranged chains order)
    {parent : NodeId} {name : String} {after : List NodeId} {count : Nat}
    (enough : after.length ≤ count) :
    ∀ before, chains parent name = before ++ after →
      workspace.follow count after.head? = after := by
  induction after generalizing count with
  | nil =>
      intro before split
      simp
  | cons id after after_ih =>
      intro before split
      rcases count with _ | count
      · simp at enough
      · rcases arranged.sits split with ⟨node, found, sits⟩
        have next : workspace.next? id = after.head? := by
          simp [next?, found, sits.next_eq]
        have bound : after.length ≤ count := by simpa using enough
        rw [List.head?_cons, follow, next,
          after_ih bound (before ++ [id]) (by simpa using split)]

theorem length_le_size (arranged : workspace.Arranged chains order)
    (parent : NodeId) (name : String) :
    (chains parent name).length ≤ workspace.size := by
  have distinct := (List.nodup_cons.mp (arranged.nodup parent name)).2
  have inRange : chains parent name ⊆ List.range workspace.size := by
    intro id member
    exact List.mem_range.mpr (arranged.lt_size_of_mem member)
  simpa using (List.subperm_of_subset distinct inRange).length_le

theorem chainFrom_eq (arranged : workspace.Arranged chains order)
    {parent first : NodeId} {name : String}
    (target : (chains parent name).head? = some first) :
    workspace.chainFrom first = chains parent name := by
  rw [chainFrom, ← target]
  exact arranged.follow_eq (arranged.length_le_size parent name) [] rfl

/-- A free node is a chain of its own. -/
theorem chainFrom_of_isFree (arranged : workspace.Arranged chains order)
    {id : NodeId} {node : Node} (found : workspace.node? id = some node)
    (free : node.isFree = true) : workspace.chainFrom id = [id] := by
  rcases arranged.loose found
    (arranged.notMem_of_isFree found free) with ⟨_, _, next⟩
  exact chainFrom_of_next? (lt_size_of_node? found) (by simp [next?, found, next])

/-- The nodes after linking a free node behind the last one of a chain. -/
theorem node?_link (arranged : workspace.Arranged chains order)
    {parent child : NodeId} {name : String} {childNode : Node}
    (foundChild : workspace.node? child = some childNode)
    (free : childNode.isFree = true) (id : NodeId) :
    (workspace.link parent name (chains parent name).head? child).node? id =
      (workspace.node? id).map
        (Node.relink parent name (chains parent name).getLast? child id) := by
  have nowhere := arranged.notMem_of_isFree foundChild free parent name
  have noPrevious : childNode.previous = none :=
    (arranged.loose foundChild
      (arranged.notMem_of_isFree foundChild free)).2.1
  unfold link
  rw [arranged.chainFrom_of_isFree foundChild free]
  cases listed : chains parent name with
  | nil =>
      simp only [List.head?_nil, List.getLast?_nil, List.foldl_cons,
        List.foldl_nil, node?_modify, Option.map_map]
      apply Option.map_congr
      intro node found
      have keepsPrevious : id = child → node.previous = none := by
        intro same
        subst same
        cases foundChild.symm.trans found
        exact noPrevious
      by_cases isChild : id = child <;> by_cases isParent : id = parent <;>
        simp_all [Node.relink, Node.setTarget]
  | cons first rest =>
      have chain : workspace.chainFrom first = first :: rest := by
        rw [← listed]
        exact arranged.chainFrom_eq (by rw [listed]; rfl)
      have last :
          (first :: rest).getLast? =
            some ((first :: rest).getLastD first) := by
        simp [List.getLast?_cons]
      simp only [List.head?_cons, List.foldl_cons, List.foldl_nil, chain, last,
        node?_modify, Option.map_map]
      apply Option.map_congr
      intro node found
      generalize (first :: rest).getLastD first = finish
      have sameLast : (id = finish) = (finish = id) :=
        propext ⟨Eq.symm, Eq.symm⟩
      by_cases isChild : id = child
      · subst isChild
        by_cases isLast : finish = id <;>
          simp [Node.relink, sameLast, isLast]
      · by_cases isLast : finish = id <;>
          simp [Node.relink, sameLast, isChild, isLast]

/-- A chain keeps ascending when everything below a node in no chain is
lifted. -/
theorem ascending_lift (arranged : workspace.Arranged chains order)
    {child : NodeId} (nowhere : ∀ parent name, child ∉ chains parent name)
    (amount : Nat) (parent : NodeId) (name : String) :
    (parent :: chains parent name).Pairwise fun upper lower =>
      lift workspace order child amount upper <
        lift workspace order child amount lower := by
  have together : ∀ id ∈ parent :: chains parent name,
      (workspace.Surrounds child id ↔ workspace.Surrounds child parent) := by
    intro id member
    rcases List.mem_cons.mp member with same | inChain
    · rw [same]
    · rw [surrounds_iff, arranged.parent?_eq inChain]
      have differs : id ≠ child := by
        intro same
        exact nowhere parent name (same ▸ inChain)
      simp [differs]
  apply (arranged.ascending parent name).imp_of_mem
  intro upper lower upperMember lowerMember less
  unfold lift
  by_cases below : workspace.Surrounds child parent
  · rw [if_pos ((together upper upperMember).mpr below),
      if_pos ((together lower lowerMember).mpr below)]
    exact Nat.add_lt_add_right less amount
  · rw [if_neg (fun above => below ((together upper upperMember).mp above)),
      if_neg (fun above => below ((together lower lowerMember).mp above))]
    exact less

/-- The child comes after everything in the chain that it extends, when it is
lifted high enough and not above the parent. -/
theorem ascending_extended (arranged : workspace.Arranged chains order)
    {parent child : NodeId} {name : String}
    (nowhere : ∀ parent name, child ∉ chains parent name)
    (apart : ¬ workspace.Surrounds child parent) {amount : Nat}
    (enough : ∀ id ∈ parent :: chains parent name, order id < amount) :
    (parent :: (chains parent name ++ [child])).Pairwise fun upper lower =>
      lift workspace order child amount upper <
        lift workspace order child amount lower := by
  rw [← List.cons_append, List.pairwise_append]
  refine
    ⟨arranged.ascending_lift nowhere amount parent name,
      List.pairwise_singleton _ _, ?_⟩
  intro upper upperMember lower lowerMember
  rw [List.mem_singleton.mp lowerMember]
  have notBelow : ¬ workspace.Surrounds child upper := by
    rcases List.mem_cons.mp upperMember with same | inChain
    · rw [same]
      exact apart
    · rw [surrounds_iff, arranged.parent?_eq inChain]
      have differs : upper ≠ child := by
        intro same
        exact nowhere parent name (same ▸ inChain)
      simpa [differs] using apart
  unfold lift
  rw [if_neg notBelow, if_pos (surrounds_iff.mpr (.inl rfl))]
  have less := enough upper upperMember
  omega

end Arranged

/-- What an attachment needs: a slot, and a free node that fits it, does not
surround it and finds it empty if it holds a single node. -/
structure Attachable (workspace : Workspace) (parent : NodeId) (name : String)
    (child : NodeId) : Prop where
  owner : ∃ node, workspace.node? parent = some node ∧
    (node.slot? name).isSome = true
  free : ∃ node, workspace.node? child = some node ∧ node.isFree = true ∧
    node.kind.fits name = true
  apart : ¬ workspace.Surrounds child parent
  vacant : Slot.isType name = true → workspace.target? parent name = none

/-- An attachment that succeeds had what it needs, and links the child. -/
theorem attachable_of_attach {workspace edited : Workspace}
    {chains : NodeId → String → List NodeId} {order : NodeId → Nat}
    (arranged : workspace.Arranged chains order) {parent child : NodeId}
    {name : String} (succeeds : workspace.attach parent name child = .ok edited) :
    workspace.Attachable parent name child ∧
      edited =
        workspace.link parent name (workspace.target? parent name) child := by
  rcases attach_eq_ok succeeds with
    ⟨parentNode, slot, childNode, foundParent, foundSlot, foundChild, free,
      differs, apart, fitting, vacant, equal⟩
  have target : workspace.target? parent name = slot.target := by
    simp [target?, foundParent, Node.target?, foundSlot]
  refine ⟨⟨?_, ?_, ?_, ?_⟩, ?_⟩
  · exact ⟨parentNode, foundParent, by rw [foundSlot]; rfl⟩
  · refine ⟨childNode, foundChild, free, ?_⟩
    rw [arranged.chainFrom_of_isFree foundChild free] at fitting
    by_contra misfit
    simp [misfit?, kind?, foundChild, misfit] at fitting
  · exact not_surrounds_of_isWithin differs apart
  · rw [target]
    exact vacant
  · rw [target]
    exact equal

namespace Arranged

variable {workspace : Workspace} {chains : NodeId → String → List NodeId}
  {order : NodeId → Nat} {parent child : NodeId} {name : String}

theorem notMem_child (arranged : workspace.Arranged chains order)
    (attachable : workspace.Attachable parent name child) :
    ∀ owner slot, child ∉ chains owner slot := by
  rcases attachable.free with ⟨node, found, free, _⟩
  exact arranged.notMem_of_isFree found free

/-- The nodes after an attachment are the old ones with their links renewed. -/
theorem exists_node?_of_link (arranged : workspace.Arranged chains order)
    (attachable : workspace.Attachable parent name child) {id : NodeId}
    {node : Node}
    (found : (workspace.link parent name (workspace.target? parent name)
      child).node? id = some node) :
    ∃ before, workspace.node? id = some before ∧
      before.relink parent name (chains parent name).getLast? child id =
        node := by
  rcases attachable.free with ⟨childNode, foundChild, free, _⟩
  rw [arranged.target_eq, arranged.node?_link foundChild free] at found
  exact Option.map_eq_some_iff.mp found

theorem target?_link (arranged : workspace.Arranged chains order)
    (attachable : workspace.Attachable parent name child) (id : NodeId)
    (other : String) :
    (workspace.link parent name (workspace.target? parent name) child).target?
        id other =
      (extend chains parent name child id other).head? := by
  rcases attachable.free with ⟨childNode, foundChild, free, _⟩
  rcases attachable.owner with ⟨owner, foundOwner, present⟩
  have before := arranged.target_eq id other
  unfold target? at before
  rw [arranged.target_eq, target?, arranged.node?_link foundChild free]
  unfold extend
  by_cases extended : id = parent ∧ (chains parent name).getLast? = none
  · rcases extended with ⟨same, last⟩
    subst same
    rw [foundOwner] at before ⊢
    rw [Option.map_some, Option.bind_some, Node.target?_relink,
      if_pos ⟨rfl, last⟩, Node.target?_setTarget present,
      List.getLast?_eq_none_iff.mp last]
    by_cases here : other = name
    · simp [here]
    · simpa [here] using before
  · have kept :
        ((workspace.node? id).map (Node.relink parent name
            (chains parent name).getLast? child id)).bind
              (fun node => node.target? other) =
          (chains id other).head? := by
      rw [← before]
      cases workspace.node? id with
      | none => rfl
      | some node =>
          rw [Option.map_some, Option.bind_some, Node.target?_relink,
            if_neg extended]
          rfl
    rw [kept]
    split_ifs with here
    · rcases here with ⟨rfl, rfl⟩
      have occupied : chains id other ≠ [] := by
        intro empty
        exact extended ⟨rfl, by rw [empty]; rfl⟩
      rw [List.head?_append_of_ne_nil _ occupied]
    · rfl

/-- The new last member of a chain. -/
theorem sits_child (arranged : workspace.Arranged chains order)
    (attachable : workspace.Attachable parent name child) {node : Node}
    (found : workspace.node? child = some node) :
    (node.relink parent name (chains parent name).getLast? child child).SitsIn
      parent name (chains parent name) [] := by
  have nowhere := arranged.notMem_child attachable
  rcases attachable.free with ⟨childNode, foundChild, _, fits⟩
  cases found.symm.trans foundChild
  have notLast : (chains parent name).getLast? ≠ some child :=
    fun last => nowhere parent name (List.mem_of_getLast? last)
  have noNext : node.next = none := (arranged.loose found nowhere).2.2
  exact
    { fits := fits
      parent_eq := by simp [Node.relink]
      previous_eq := by simp [Node.relink]
      next_eq := by simp [Node.relink, notLast, noNext] }

/-- The members before the child stay where they are. -/
theorem sits_before_child (arranged : workspace.Arranged chains order)
    (attachable : workspace.Attachable parent name child) {id : NodeId}
    {before after : List NodeId} {node : Node}
    (split : chains parent name = before ++ id :: after)
    (sits : node.SitsIn parent name before after) :
    (node.relink parent name (chains parent name).getLast? child id).SitsIn
      parent name before (after ++ [child]) := by
  have member : id ∈ chains parent name := by
    rw [split]
    simp
  have notChild : id ≠ child := by
    intro same
    exact arranged.notMem_child attachable parent name (same ▸ member)
  refine
    { fits := sits.fits
      parent_eq := by simp [Node.relink, notChild, sits.parent_eq]
      previous_eq := by simp [Node.relink, notChild, sits.previous_eq]
      next_eq := ?_ }
  cases after with
  | nil =>
      have last : (chains parent name).getLast? = some id := by simp [split]
      simp [Node.relink, last]
  | cons following rest =>
      have notLast : (chains parent name).getLast? ≠ some id := by
        intro last
        have distinct := (List.nodup_cons.mp (arranged.nodup parent name)).2
        rw [split] at distinct last
        rw [List.getLast?_append_cons] at last
        have later : id ∈ following :: rest := by
          rw [List.getLast?_cons_cons] at last
          exact List.mem_of_getLast? last
        have fresh := (List.nodup_append.mp distinct).2.1
        exact (List.nodup_cons.mp fresh).1 later
      simp [Node.relink, notLast, sits.next_eq]

theorem sits_link (arranged : workspace.Arranged chains order)
    (attachable : workspace.Attachable parent name child) {owner : NodeId}
    {slot : String} {before : List NodeId} {id : NodeId} {after : List NodeId}
    (split : extend chains parent name child owner slot =
      before ++ id :: after) :
    ∃ node,
      (workspace.link parent name (workspace.target? parent name) child).node?
          id = some node ∧
        node.SitsIn owner slot before after := by
  rcases attachable.free with ⟨childNode, foundChild, free, _⟩
  have lookup :
      ∀ id, (workspace.link parent name (workspace.target? parent name)
          child).node? id =
        (workspace.node? id).map
          (Node.relink parent name (chains parent name).getLast? child id) := by
    rw [arranged.target_eq]
    exact arranged.node?_link foundChild free
  unfold extend at split
  split_ifs at split with here
  · rcases here with ⟨rfl, rfl⟩
    rcases List.eq_nil_or_concat after with rfl | ⟨middle, last, rfl⟩
    · have ends := List.append_inj' split rfl
      cases ends.1
      cases ends.2
      refine ⟨_, ?_, arranged.sits_child attachable foundChild⟩
      rw [lookup, foundChild]
      rfl
    · rw [List.concat_eq_append, ← List.cons_append,
        ← List.append_assoc] at split
      have ends := List.append_inj' split rfl
      cases ends.2
      rcases arranged.sits ends.1 with ⟨node, found, sits⟩
      refine
        ⟨_, ?_, by
          rw [List.concat_eq_append]
          exact arranged.sits_before_child attachable ends.1 sits⟩
      rw [lookup, found]
      rfl
  · rcases arranged.sits split with ⟨node, found, sits⟩
    have member : id ∈ chains owner slot := by
      rw [split]
      simp
    have notChild : id ≠ child := by
      intro same
      exact arranged.notMem_child attachable owner slot (same ▸ member)
    have notLast : (chains parent name).getLast? ≠ some id := by
      intro last
      exact here (arranged.slot_eq member (List.mem_of_getLast? last))
    refine ⟨_, ?_, sits.relink parent name notChild notLast⟩
    rw [lookup, found]
    rfl

/-- An attachment extends one chain and keeps the rest of an arrangement. -/
theorem link (arranged : workspace.Arranged chains order)
    (attachable : workspace.Attachable parent name child) :
    ∃ lifted,
      (workspace.link parent name (workspace.target? parent name)
        child).Arranged (extend chains parent name child) lifted := by
  have nowhere := arranged.notMem_child attachable
  -- Lifted by this much, what hangs below the child comes after its new owner
  -- and after the members that are already in the chain.
  let amount := ((parent :: chains parent name).map order).sum + 1
  refine
    ⟨workspace.lift order child amount,
      { id_eq := ?_, slotNames := ?_,
        target_eq := arranged.target?_link attachable,
        sits := arranged.sits_link attachable, loose := ?_,
        name_eq := ?_, ascending := ?_, single := ?_ }⟩
  · intro id node found
    rcases arranged.exists_node?_of_link attachable found with
      ⟨before, foundBefore, renewed⟩
    subst renewed
    exact (arranged.id_eq foundBefore : before.id = id)
  · intro id node found
    rcases arranged.exists_node?_of_link attachable found with
      ⟨before, foundBefore, renewed⟩
    rcases arranged.slotNames foundBefore with ⟨members, names⟩
    subst renewed
    rw [Node.map_name_relink]
    exact ⟨members, names⟩
  · intro id node found outside
    rcases arranged.exists_node?_of_link attachable found with
      ⟨before, foundBefore, renewed⟩
    have outsideBefore : ∀ owner slot, id ∉ chains owner slot :=
      fun owner slot member =>
        outside owner slot (mem_extend.mpr (.inl member))
    have notChild : id ≠ child :=
      fun same => outside parent name (mem_extend.mpr (.inr ⟨rfl, rfl, same⟩))
    have notLast : (chains parent name).getLast? ≠ some id :=
      fun last => outsideBefore parent name (List.mem_of_getLast? last)
    rcases arranged.loose foundBefore outsideBefore with
      ⟨noParent, noPrevious, noNext⟩
    subst renewed
    simp [Node.relink, notChild, notLast, noParent, noPrevious, noNext]
  · intro id owner first second inFirst inSecond
    rcases mem_extend.mp inFirst with oldFirst | ⟨ownerFirst, first_eq, same⟩
    · rcases mem_extend.mp inSecond with oldSecond | ⟨_, _, same⟩
      · exact arranged.name_eq oldFirst oldSecond
      · exact absurd (same ▸ oldFirst) (nowhere owner first)
    · rcases mem_extend.mp inSecond with oldSecond | ⟨_, second_eq, _⟩
      · exact absurd (same ▸ oldSecond) (nowhere owner second)
      · rw [first_eq, second_eq]
  · intro owner slot
    unfold extend
    split_ifs with here
    · rw [here.1]
      apply arranged.ascending_extended nowhere attachable.apart
      intro id member
      exact Nat.lt_succ_of_le
        (List.single_le_sum (by simp) _ (List.mem_map_of_mem member))
    · exact arranged.ascending_lift nowhere amount owner slot
  · intro owner slot holdsType
    unfold extend
    split_ifs with here
    · rcases here with ⟨rfl, rfl⟩
      have empty := attachable.vacant holdsType
      rw [arranged.target_eq, List.head?_eq_none_iff] at empty
      simp [empty]
    · exact arranged.single holdsType

end Arranged

end Workspace

end BlockForge
