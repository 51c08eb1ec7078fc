import BlockForge.Proofs.Workspace.Placement

/-!
# Admission to a slot

An attachment looks for loops with a bound on its steps, and it changes the
workspace node by node.  On an arranged workspace the bound is never met and no
node is missing.  So an attachment is refused for the first condition that fails
on the tree of the workspace, as `BlockTree.obstacle?` lists them, and a refused
attachment leaves no trace, even if the changes are made in place.

The main theorem is `run_decides_attachment`.
-/

namespace BlockForge

/-- The first condition of an attachment that fails on a tree. -/
def BlockTree.obstacle? (tree : BlockTree) (parent : NodeId) (name : String)
    (child : NodeId) : Option EditError :=
  match tree.kind parent with
  | none => some (.unknownNode parent)
  | some owner =>
    if tree.hasSlot parent name = false then
      some (.unknownSlot parent owner name)
    else
      match tree.kind child with
      | none => some (.unknownNode child)
      | some kind =>
        if child ∉ tree.topBlocks then some (.alreadyAttached child)
        else if child = parent ∨ parent ∈ tree.descendants child then
          some (.cycle parent child)
        else if kind.fits name = false then some (.misplaced child kind name)
        else if Slot.isType name = true ∧
            (tree.slotTarget parent name).isSome = true then
          some (.slotFull parent name)
        else none

/-- What a tree must show for a node to be attached. -/
structure BlockTree.Admits (tree : BlockTree) (parent : NodeId)
    (name : String) (child : NodeId) : Prop where
  exists_parent : (tree.kind parent).isSome = true
  hasSlot : tree.hasSlot parent name = true
  isTop : child ∈ tree.topBlocks
  differs : child ≠ parent
  apart : parent ∉ tree.descendants child
  fits : ∃ kind, tree.kind child = some kind ∧ kind.fits name = true
  /-- A slot for a single node is empty. -/
  vacant : Slot.isType name = true → tree.slotTarget parent name = none

theorem BlockTree.obstacle?_eq_none_iff {tree : BlockTree}
    {parent child : NodeId} {name : String} :
    tree.obstacle? parent name child = none ↔
      tree.Admits parent name child := by
  unfold obstacle?
  constructor
  · intro unopposed
    cases owner : tree.kind parent with
    | none => simp [owner] at unopposed
    | some ownerKind =>
        cases kind : tree.kind child with
        | none =>
            simp only [owner, kind] at unopposed
            split_ifs at unopposed
        | some childKind =>
            simp only [owner, kind] at unopposed
            split_ifs at unopposed with missing attached loop misfit full
            rw [not_or] at loop
            exact
              { exists_parent := by rw [owner]; rfl
                hasSlot := by simpa using missing
                isTop := attached
                differs := loop.1
                apart := loop.2
                fits := ⟨childKind, kind, by simpa using misfit⟩
                vacant := by simpa using full }
  · intro admits
    rcases Option.isSome_iff_exists.mp admits.exists_parent with ⟨_, owner⟩
    rcases admits.fits with ⟨_, kind, fits⟩
    simpa [owner, kind, admits.hasSlot, admits.isTop, admits.differs,
      admits.apart, fits] using admits.vacant

/-- A free node that finds its slot is refused for a loop if there is one. -/
theorem BlockTree.obstacle?_eq_cycle_iff {tree : BlockTree}
    {parent child : NodeId} {name : String}
    (exists_parent : (tree.kind parent).isSome = true)
    (exists_child : (tree.kind child).isSome = true)
    (hasSlot : tree.hasSlot parent name = true)
    (isTop : child ∈ tree.topBlocks) :
    tree.obstacle? parent name child = some (.cycle parent child) ↔
      child = parent ∨ parent ∈ tree.descendants child := by
  rcases Option.isSome_iff_exists.mp exists_parent with ⟨owner, owner_eq⟩
  rcases Option.isSome_iff_exists.mp exists_child with ⟨kind, kind_eq⟩
  rw [obstacle?, owner_eq, kind_eq]
  dsimp only
  rw [if_neg (by simp [hasSlot]), if_neg (not_not.mpr isTop)]
  split_ifs <;> simp_all

namespace Workspace

/-! ## Attaching in place -/

/-- Change a node of the workspace at hand, if it exists. -/
def changeNode (id : NodeId) (change : Node → Node) :
    EStateM EditError Workspace Unit := do
  match (← get).update id change with
  | .ok edited => set edited
  | .error problem => throw problem

/-- Put a node behind the chain in a slot, one link after the other.  A link
that is changed stays changed if a later node is missing. -/
def placeLast (parent : NodeId) (name : String) (head : Option NodeId)
    (child : NodeId) : EStateM EditError Workspace Unit := do
  match head with
  | none => changeNode parent (Node.setTarget name child)
  | some first =>
    let last := ((← get).chainFrom first).getLastD first
    changeNode last fun node => { node with next := some child }
    changeNode child fun node => { node with previous := some last }

/-- Let every node of the chain that starts with a node hang in another one. -/
def ownChain (parent child : NodeId) : EStateM EditError Workspace Unit := do
  ((← get).chainFrom child).forM fun id =>
    changeNode id fun node => { node with parent := some parent }

/-- The checks of an attachment. -/
def checkAttach (workspace : Workspace) (parent : NodeId) (name : String)
    (child : NodeId) : Except EditError Unit := do
  let some parentNode := workspace.node? parent
    | throw (.unknownNode parent)
  let some slot := parentNode.slot? name
    | throw (.unknownSlot parent parentNode.kind name)
  let some childNode := workspace.node? child
    | throw (.unknownNode child)
  if !childNode.isFree then throw (.alreadyAttached child)
  if child = parent ∨ workspace.isWithin parent child then
    throw (.cycle parent child)
  if let some (id, kind) := workspace.misfit? name (workspace.chainFrom child)
    then throw (.misplaced id kind name)
  if Slot.isType name ∧ (slot.target.isSome ∨ childNode.next.isSome) then
    throw (.slotFull parent name)

/-- Attach a node by changing the workspace at hand. -/
def attachInPlace (parent : NodeId) (name : String) (child : NodeId) :
    EStateM EditError Workspace Unit := do
  let workspace ← get
  match workspace.checkAttach parent name child with
  | .error problem => throw problem
  | .ok () =>
    placeLast parent name (workspace.target? parent name) child
    ownChain parent child

/-- An attachment is its checks and the links that follow. -/
theorem attach_eq_checkAttach (workspace : Workspace) (parent : NodeId)
    (name : String) (child : NodeId) :
    workspace.attach parent name child =
      (workspace.checkAttach parent name child).map fun _ =>
        workspace.link parent name (workspace.target? parent name) child := by
  unfold attach checkAttach target? Node.target?
  cases workspace.node? parent with
  | none => rfl
  | some parentNode =>
      dsimp only [Option.bind_some]
      cases parentNode.slot? name with
      | none => rfl
      | some slot =>
          cases workspace.node? child with
          | none => rfl
          | some childNode =>
              dsimp only
              cases childNode.isFree with
              | false => rfl
              | true =>
                  by_cases cyclic :
                      child = parent ∨ workspace.isWithin parent child = true
                  · simp only [if_pos cyclic]
                    rfl
                  · simp only [if_neg cyclic]
                    cases workspace.misfit? name (workspace.chainFrom child) with
                    | some pair => rfl
                    | none =>
                        dsimp only
                        split_ifs <;> rfl

theorem run_changeNode {workspace : Workspace} {id : NodeId}
    (inside : id < workspace.size) (change : Node → Node) :
    (changeNode id change).run workspace =
      .ok () (workspace.modify id change) := by
  have succeeds : workspace.update id change = .ok (workspace.modify id change) :=
    if_pos inside
  rw [changeNode, EStateM.run_bind, EStateM.run_get]
  simp only [succeeds, EStateM.run_set]

/-- A child that nothing follows is the only one to hang in its new parent. -/
theorem run_ownChain {workspace : Workspace} {child : NodeId}
    (inside : child < workspace.size) (alone : workspace.next? child = none)
    (parent : NodeId) :
    (ownChain parent child).run workspace =
      .ok () (workspace.modify child fun node =>
        { node with parent := some parent }) := by
  rw [ownChain, EStateM.run_bind, EStateM.run_get]
  simp only [chainFrom_of_next? inside alone, List.forM, EStateM.run_bind,
    run_changeNode inside, EStateM.run_pure]

namespace Arranged

variable {workspace : Workspace} {chains : NodeId → String → List NodeId}
  {order : NodeId → Nat} {parent child : NodeId} {name : String}

/-- Every node whose links change is there, and nothing follows the child. -/
theorem exists_placeLast (arranged : workspace.Arranged chains order)
    (attachable : workspace.Attachable parent name child) :
    ∃ linked,
      (placeLast parent name (workspace.target? parent name) child).run
          workspace = .ok () linked ∧
        linked.size = workspace.size ∧ linked.next? child = none ∧
        workspace.link parent name (workspace.target? parent name) child =
          linked.modify child fun node => { node with parent := some parent } := by
  rcases attachable.owner with ⟨owner, foundOwner, _⟩
  rcases attachable.free with ⟨node, found, free, _⟩
  have nowhere := arranged.notMem_of_isFree found free
  have noNext : node.next = none := (arranged.loose found nowhere).2.2
  unfold Workspace.link
  rw [arranged.chainFrom_of_isFree found free]
  cases target : workspace.target? parent name with
  | none =>
      refine ⟨_, run_changeNode (lt_size_of_node? foundOwner) _, ?_, ?_, rfl⟩
      · exact size_modify ..
      · rw [next?, node?_modify, found]
        split_ifs <;> simpa [Node.setTarget] using noNext
  | some first =>
      have isFirst := arranged.mem_of_target? target
      rw [arranged.target_eq] at target
      have isLast : (workspace.chainFrom first).getLastD first ∈
          chains parent name := by
        rw [arranged.chainFrom_eq target]
        have among : (chains parent name).getLastD first ∈
            first :: chains parent name := List.getLastD_mem_cons
        rcases List.mem_cons.mp among with same | later
        · rwa [same]
        · exact later
      have apart : child ≠ (workspace.chainFrom first).getLastD first :=
        fun same => nowhere parent name (same ▸ isLast)
      refine ⟨_, ?_, ?_, ?_, rfl⟩
      · unfold placeLast
        dsimp only
        rw [EStateM.run_bind, EStateM.run_get]
        dsimp only
        rw [EStateM.run_bind,
          run_changeNode (arranged.lt_size_of_mem isLast)]
        dsimp only
        exact run_changeNode (by simpa using lt_size_of_node? found) _
      · simp
      · simp only [next?, node?_modify, found, Option.map_some, if_neg apart,
          if_pos, Option.bind_some, noNext]

/-- Attaching in place finds every node that has to change. -/
theorem run_attachInPlace (arranged : workspace.Arranged chains order)
    (parent : NodeId) (name : String) (child : NodeId) :
    (attachInPlace parent name child).run workspace =
      match workspace.attach parent name child with
      | .ok edited => .ok () edited
      | .error problem => .error problem workspace := by
  have outcome := workspace.attach_eq_checkAttach parent name child
  rw [attachInPlace, EStateM.run_bind, EStateM.run_get]
  cases admits : workspace.checkAttach parent name child with
  | error problem =>
      rw [admits] at outcome
      simp only [admits, outcome]
      rfl
  | ok _ =>
      rw [admits] at outcome
      have attachable := (attachable_of_attach arranged outcome).1
      rcases attachable.free with ⟨node, found, _, _⟩
      rcases arranged.exists_placeLast attachable with
        ⟨linked, placed, size, alone, link_eq⟩
      have inside : child < linked.size := by
        rw [size]
        exact lt_size_of_node? found
      simp only [admits, outcome, EStateM.run_bind, placed,
        run_ownChain inside alone, link_eq]
      rfl

/-! ## What is decided -/

/-- A way up with enough steps meets exactly the nodes around its start. -/
theorem climbs_iff (arranged : workspace.Arranged chains order)
    {ancestor id : NodeId} {steps : Nat} (few : order id < steps) :
    workspace.climbs ancestor steps (some id) = true ↔
      workspace.Surrounds ancestor id := by
  constructor
  · exact arranged.surrounds_of_climbs few
  · intro around
    rw [← Bool.not_eq_false]
    intro apart
    exact not_surrounds_of_climbs apart rfl around

theorem mem_topBlocks_iff_isFree (arranged : workspace.Arranged chains order)
    {id : NodeId} {node : Node} (found : workspace.node? id = some node) :
    id ∈ workspace.tree.topBlocks ↔ node.isFree = true := by
  rw [arranged.isFree_iff found]
  exact arranged.mem_topBlocks.trans (and_iff_right (lt_size_of_node? found))

section

variable (bounded : ∀ id, order id ≤ workspace.size)

include bounded

/-- The way up from the parent of a node meets what surrounds this parent. -/
theorem climbs_parent?_iff (arranged : workspace.Arranged chains order)
    {id ancestor : NodeId} (more : Nat) :
    workspace.climbs ancestor (workspace.size + 1 + more)
        (workspace.parent? id) = true ↔
      ∃ owner, workspace.parent? id = some owner ∧
        workspace.Surrounds ancestor owner := by
  cases parent : workspace.parent? id with
  | none => simp [climbs]
  | some owner =>
      have most := bounded owner
      rw [arranged.climbs_iff (by omega)]
      simp

/-- An attachment makes a loop if the child is its new parent or around it. -/
theorem makes_loop_iff (arranged : workspace.Arranged chains order) :
    child = parent ∨ workspace.isWithin parent child = true ↔
      workspace.Surrounds child parent := by
  rw [surrounds_iff, eq_comm]
  exact or_congr_right (arranged.climbs_parent?_iff bounded 0)

/-- The same, as the tree shows it. -/
theorem loops_iff (arranged : workspace.Arranged workspace.tree.chain order)
    (loose : workspace.parent? child = none) (parent : NodeId) :
    child = parent ∨ parent ∈ workspace.tree.descendants child ↔
      workspace.Surrounds child parent := by
  rw [arranged.mem_descendants_iff bounded loose]
  apply or_iff_right_of_imp
  rintro rfl
  exact .refl

/-- The outcome of attaching a node to a slot that is there. -/
theorem attach_eq_of_found
    (arranged : workspace.Arranged workspace.tree.chain order)
    {parentNode childNode : Node} {slot : Slot}
    (foundParent : workspace.node? parent = some parentNode)
    (foundSlot : parentNode.slot? name = some slot)
    (foundChild : workspace.node? child = some childNode) :
    workspace.attach parent name child =
      if child ∉ workspace.tree.topBlocks then .error (.alreadyAttached child)
      else if child = parent ∨ parent ∈ workspace.tree.descendants child then
        .error (.cycle parent child)
      else if childNode.kind.fits name = false then
        .error (.misplaced child childNode.kind name)
      else if Slot.isType name = true ∧
          (workspace.tree.slotTarget parent name).isSome = true then
        .error (.slotFull parent name)
      else
        .ok (workspace.link parent name (workspace.target? parent name)
          child) := by
  have isTop := arranged.mem_topBlocks_iff_isFree foundChild
  by_cases free : childNode.isFree = true
  · have loops := arranged.loops_iff bounded
      ((arranged.isFree_iff foundChild).mp free) parent
    rw [if_neg (not_not.mpr (isTop.mpr free))]
    by_cases around : workspace.Surrounds child parent
    · rw [attach_of_found foundParent foundSlot foundChild,
        if_neg (by simp [free]), if_pos (loops.mpr around),
        if_pos ((arranged.makes_loop_iff bounded).mpr around)]
    · have present : name ∈ parentNode.label.slotNames := by
        rw [← not_not (a := name ∈ _), ← Node.slot?_eq_none_iff, foundSlot]
        simp
      have occupied : (workspace.tree.slotTarget parent name).isSome = true ↔
          workspace.tree.chain parent name ≠ [] := by
        rw [tree_slotTarget, arranged.target_eq, List.isSome_head?]
      rw [if_neg (mt loops.mp around),
        arranged.attach_eq (fun _ => bounded _) foundParent foundChild free
          around name, if_neg (not_not.mpr present), arranged.target_eq]
      simp only [occupied]
  · rw [if_pos (mt isTop.mp free),
      attach_of_found foundParent foundSlot foundChild,
      if_pos (by simpa using free)]

/-- The outcome of an attachment can be read off the tree of a workspace. -/
theorem attach_eq_obstacle
    (arranged : workspace.Arranged workspace.tree.chain order)
    (parent : NodeId) (name : String) (child : NodeId) :
    workspace.attach parent name child =
      match workspace.tree.obstacle? parent name child with
      | some problem => .error problem
      | none => .ok (workspace.link parent name
          (workspace.target? parent name) child) := by
  unfold BlockTree.obstacle?
  rw [tree_kind, tree_kind, kind?, kind?]
  cases foundParent : workspace.node? parent with
  | none =>
      simp only [attach, foundParent]
      rfl
  | some parentNode =>
      have hasSlot_iff : workspace.tree.hasSlot parent name = false ↔
          parentNode.slot? name = none := by
        rw [Node.slot?_eq_none_iff]
        simp [BlockTree.hasSlot, tree, foundParent, Node.label]
      dsimp only [Option.map_some]
      cases foundSlot : parentNode.slot? name with
      | none =>
          rw [if_pos (hasSlot_iff.mpr foundSlot)]
          simp only [attach, foundParent, foundSlot]
          rfl
      | some slot =>
          rw [if_neg (by rw [hasSlot_iff, foundSlot]; simp)]
          cases foundChild : workspace.node? child with
          | none =>
              simp only [attach, foundParent, foundSlot, foundChild]
              rfl
          | some childNode =>
              rw [arranged.attach_eq_of_found bounded foundParent foundSlot
                foundChild]
              dsimp only [Option.map_some]
              split_ifs <;> rfl

/-- A free node that finds its slot is refused for a loop if the slot is in its
subtree. -/
theorem cycle_iff (arranged : workspace.Arranged workspace.tree.chain order)
    (hasSlot : workspace.tree.hasSlot parent name = true)
    (isTop : child ∈ workspace.tree.topBlocks) :
    workspace.attach parent name child = .error (.cycle parent child) ↔
      parent ∈ workspace.tree.descendants child := by
  rcases arranged.mem_topBlocks.mp isTop with ⟨inside, loose⟩
  have exists_parent : (workspace.tree.kind parent).isSome = true := by
    cases found : workspace.node? parent with
    | none => simp [BlockTree.hasSlot, tree, found] at hasSlot
    | some node => simp [kind?, found]
  have exists_child : (workspace.tree.kind child).isSome = true := by
    rcases exists_kind? inside with ⟨kind, ofKind⟩
    simp [ofKind]
  have loops := arranged.loops_iff bounded loose parent
  rw [← arranged.mem_descendants_iff bounded loose] at loops
  rw [← loops, ← BlockTree.obstacle?_eq_cycle_iff exists_parent exists_child
    hasSlot isTop, arranged.attach_eq_obstacle bounded]
  cases workspace.tree.obstacle? parent name child <;> simp

end

end Arranged

/-- An attachment is decided by what the tree of a workspace shows. -/
structure DecidesAttachment (workspace : Workspace) (parent : NodeId)
    (name : String) (child : NodeId) : Prop where
  /-- What is below the child is listed without a loop. -/
  listed : workspace.tree.descendants? child =
    some (workspace.tree.descendants child)
  succeeds_iff : (∃ edited, workspace.attach parent name child = .ok edited) ↔
    workspace.tree.Admits parent name child
  /-- A refusal names the first condition that fails. -/
  refused_iff : ∀ {problem},
    workspace.attach parent name child = .error problem ↔
      workspace.tree.obstacle? parent name child = some problem
  cycle_iff : workspace.tree.hasSlot parent name = true →
    child ∈ workspace.tree.topBlocks →
      (workspace.attach parent name child = .error (.cycle parent child) ↔
        parent ∈ workspace.tree.descendants child)
  /-- A way up with more steps than the bound meets the child no less and no
  more. -/
  unbounded : ∀ more,
    workspace.climbs child (workspace.size + 1 + more)
        (workspace.parent? parent) =
      workspace.isWithin parent child
  /-- Made in place, an attachment ends with the same outcome, and it changes
  nothing if it is refused. -/
  atomic : (attachInPlace parent name child).run workspace =
    match workspace.attach parent name child with
    | .ok edited => .ok () edited
    | .error problem => .error problem workspace

/-- Whatever edits build a workspace, every attachment to it is decided by its
tree and leaves no trace if it is refused. -/
theorem run_decides_attachment (edits : List Edit) (parent : NodeId)
    (name : String) (child : NodeId) :
    (run edits).DecidesAttachment parent name child := by
  rcases exists_arranged_run edits with ⟨order, arranged, bounded⟩
  have outcome := arranged.attach_eq_obstacle bounded parent name child
  exact
    { listed := (arranged.coherent bounded).descendants?_eq_some child
      succeeds_iff := by
        rw [← BlockTree.obstacle?_eq_none_iff, outcome]
        cases (run edits).tree.obstacle? parent name child <;> simp
      refused_iff := by
        rw [outcome]
        cases (run edits).tree.obstacle? parent name child <;> simp
      cycle_iff := arranged.cycle_iff bounded
      unbounded := fun more => by
        rw [Bool.eq_iff_iff, arranged.climbs_parent?_iff bounded, isWithin,
          arranged.climbs_parent?_iff bounded 0]
      atomic := arranged.run_attachInPlace parent name child }

end Workspace

end BlockForge
