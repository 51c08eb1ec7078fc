import BlockForge.Proofs.Workspace.Admission

/-!
# The effect of an attachment

An attachment that succeeds puts the child behind the chain in one slot.  The
subtree of the child moves below its new parent, and with it the reach of every
node around this parent grows.  Nothing else changes: `surrounds_link_iff`
describes the new way up by the old one.

The main theorem is `run_attach_effect`.
-/

namespace BlockForge

namespace Workspace

/-- The node `outer` is a parent of `inner`, or a parent of a parent, and so
on. -/
def Encloses (workspace : Workspace) (outer inner : NodeId) : Prop :=
  Relation.TransGen
    (fun inner outer => workspace.parent? inner = some outer) inner outer

theorem encloses_iff {workspace : Workspace} {outer inner : NodeId} :
    workspace.Encloses outer inner ↔
      ∃ owner, workspace.parent? inner = some owner ∧
        workspace.Surrounds outer owner :=
  Relation.TransGen.head'_iff

theorem surrounds_iff_encloses {workspace : Workspace}
    {outer inner : NodeId} :
    workspace.Surrounds outer inner ↔
      inner = outer ∨ workspace.Encloses outer inner := by
  rw [surrounds_iff, encloses_iff]

namespace Arranged

variable {workspace : Workspace} {chains : NodeId → String → List NodeId}
  {order : NodeId → Nat} {parent child : NodeId} {name : String}

/-- Only the child gets a parent. -/
theorem parent?_link (arranged : workspace.Arranged chains order)
    (attachable : workspace.Attachable parent name child) (id : NodeId) :
    (workspace.link parent name (workspace.target? parent name)
        child).parent? id =
      if id = child then some parent else workspace.parent? id := by
  rcases attachable.free with ⟨childNode, foundChild, free, _⟩
  rw [parent?, arranged.target_eq, arranged.node?_link foundChild free]
  split_ifs with same
  · subst same
    simp [foundChild, Node.relink]
  · rw [parent?]
    cases workspace.node? id with
    | none => rfl
    | some node => simp [Node.relink, same]

theorem parent?_child (arranged : workspace.Arranged chains order)
    (attachable : workspace.Attachable parent name child) :
    workspace.parent? child = none := by
  rcases attachable.free with ⟨childNode, foundChild, free, _⟩
  exact (arranged.isFree_iff foundChild).mp free

/-- The way up from a node leads to where it led before; below the child it goes
on with the way up from the new parent. -/
theorem surrounds_link_iff (arranged : workspace.Arranged chains order)
    (attachable : workspace.Attachable parent name child)
    {outer inner : NodeId} :
    (workspace.link parent name (workspace.target? parent name)
        child).Surrounds outer inner ↔
      workspace.Surrounds outer inner ∨
        (workspace.Surrounds child inner ∧ workspace.Surrounds outer parent) := by
  have parent_eq := arranged.parent?_link attachable
  have loose := arranged.parent?_child attachable
  constructor
  · intro around
    induction around using Relation.ReflTransGen.head_induction_on with
    | refl => exact .inl .refl
    | head step _ above_ih =>
        rename_i inner owner
        rw [parent_eq] at step
        split_ifs at step with isChild
        · cases step
          rcases above_ih with above | ⟨_, above⟩
          · exact .inr ⟨isChild ▸ .refl, above⟩
          · exact .inr ⟨isChild ▸ .refl, above⟩
        · rcases above_ih with above | ⟨below, above⟩
          · exact .inl (above.trans (surrounds_of_parent? step))
          · exact .inr ⟨below.trans (surrounds_of_parent? step), above⟩
  · have kept : ∀ {outer inner}, workspace.Surrounds outer inner →
        (workspace.link parent name (workspace.target? parent name)
          child).Surrounds outer inner := by
      intro outer inner around
      refine Relation.ReflTransGen.mono ?_ _ _ around
      intro inner owner step
      rw [parent_eq, if_neg ?_]
      · exact step
      · rintro rfl
        cases loose.symm.trans step
    have hangs : (workspace.link parent name (workspace.target? parent name)
        child).Surrounds parent child :=
      surrounds_of_parent? (by rw [parent_eq, if_pos rfl])
    rintro (around | ⟨below, above⟩)
    · exact kept around
    · exact ((kept above).trans hangs).trans (kept below)

/-- A node around the new parent encloses the subtree of the child as well. -/
theorem encloses_link_iff (arranged : workspace.Arranged chains order)
    (attachable : workspace.Attachable parent name child)
    {outer inner : NodeId} :
    (workspace.link parent name (workspace.target? parent name)
        child).Encloses outer inner ↔
      workspace.Encloses outer inner ∨
        (workspace.Surrounds child inner ∧ workspace.Surrounds outer parent) := by
  have loose := arranged.parent?_child attachable
  simp only [encloses_iff, arranged.parent?_link attachable,
    arranged.surrounds_link_iff attachable]
  by_cases isChild : inner = child
  · subst isChild
    have around : workspace.Surrounds inner inner := .refl
    simp [loose, around, attachable.apart]
  · have below : workspace.Surrounds child inner ↔
        ∃ owner, workspace.parent? inner = some owner ∧
          workspace.Surrounds child owner := by
      rw [surrounds_iff, or_iff_right isChild]
    rw [if_neg isChild, below]
    cases workspace.parent? inner <;> simp

/-- The reach of a node around the new parent does not meet the subtree of the
child before. -/
theorem not_encloses_of_surrounds (arranged : workspace.Arranged chains order)
    (attachable : workspace.Attachable parent name child)
    {outer inner : NodeId} (above : workspace.Surrounds outer parent)
    (below : workspace.Surrounds child inner) :
    ¬ workspace.Encloses outer inner := by
  intro encloses
  rcases below.total (surrounds_iff_encloses.mpr (.inr encloses)) with
    childAround | outerAround
  · exact attachable.apart (childAround.trans above)
  · rcases surrounds_iff.mp outerAround with same | ⟨owner, step, _⟩
    · exact attachable.apart (same ▸ above)
    · cases (arranged.parent?_child attachable).symm.trans step

/-- The child is no longer among the nodes that hang nowhere. -/
theorem topBlocks_link (arranged : workspace.Arranged chains order)
    (attachable : workspace.Attachable parent name child) :
    (workspace.link parent name (workspace.target? parent name)
        child).topBlocks =
      workspace.topBlocks.filter (· ≠ child) := by
  rcases arranged.link attachable with ⟨_, linked⟩
  rw [linked.topBlocks_eq, arranged.topBlocks_eq, List.filter_filter, size_link]
  apply List.filter_congr
  intro id _
  rw [arranged.parent?_link attachable]
  split_ifs with isChild <;> simp [isChild]

end Arranged

/-- What an attachment changes, and what it leaves as it is. -/
structure Attaches (before after : Workspace) (parent : NodeId) (name : String)
    (child : NodeId) : Prop where
  size_eq : after.size = before.size
  /-- Kinds, fields, mutations and the names of the slots are kept. -/
  label_eq : ∀ id, after.label? id = before.label? id
  chain_eq : after.tree.chain parent name =
    before.tree.chain parent name ++ [child]
  chain_eq_of_ne : ∀ {id slot}, (id, slot) ≠ (parent, name) →
    after.tree.chain id slot = before.tree.chain id slot
  parent_before : before.tree.surroundingParent child = none
  parent_after : after.tree.surroundingParent child = some parent
  parent_eq_of_ne : ∀ {id}, id ≠ child →
    after.tree.surroundingParent id = before.tree.surroundingParent id
  isTop : child ∈ before.tree.topBlocks
  topBlocks_eq : after.tree.topBlocks =
    before.tree.topBlocks.filter (· ≠ child)
  /-- What is below the child is listed without a loop. -/
  listed : before.tree.descendants? child =
    some (before.tree.descendants child)
  /-- The new parent and what encloses it reach the subtree of the child. -/
  reach_grows : ∀ {outer}, outer = parent ∨ before.Encloses outer parent →
    ∀ inner, after.Encloses outer inner ↔
      before.Encloses outer inner ∨ inner ∈ before.tree.descendants child
  /-- None of them reached any node of this subtree before. -/
  reach_new : ∀ {outer}, outer = parent ∨ before.Encloses outer parent →
    ∀ inner ∈ before.tree.descendants child, ¬ before.Encloses outer inner
  reach_eq : ∀ {outer}, ¬ (outer = parent ∨ before.Encloses outer parent) →
    ∀ inner, after.Encloses outer inner ↔ before.Encloses outer inner

/-- Whatever edits build a workspace, an attachment that succeeds extends one
chain by the child and changes nothing else. -/
theorem run_attach_effect (edits : List Edit) {parent child : NodeId}
    {name : String} {edited : Workspace}
    (succeeds : (run edits).attach parent name child = .ok edited) :
    (run edits).Attaches edited parent name child := by
  rcases exists_arranged_run edits with ⟨order, arranged, bounded⟩
  rcases attachable_of_attach arranged succeeds with ⟨attachable, rfl⟩
  rcases attachable.free with ⟨childNode, foundChild, free, _⟩
  rcases arranged.link attachable with ⟨_, linked⟩
  have loose := arranged.parent?_child attachable
  have around : ∀ {outer}, outer = parent ∨ (run edits).Encloses outer parent ↔
      (run edits).Surrounds outer parent := by
    intro outer
    rw [surrounds_iff_encloses, eq_comm]
  exact
    { size_eq := size_link ..
      label_eq := fun id => by rw [label?_link]
      chain_eq := by
        rw [linked.tree_chain_eq, extend_self]
      chain_eq_of_ne := by
        intro id slot differs
        rw [linked.tree_chain_eq, extend_of_ne]
        rintro ⟨rfl, rfl⟩
        exact differs rfl
      parent_before := loose
      parent_after := (arranged.parent?_link attachable child).trans
        (if_pos rfl)
      parent_eq_of_ne := fun differs =>
        (arranged.parent?_link attachable _).trans (if_neg differs)
      isTop := arranged.mem_topBlocks.mpr ⟨lt_size_of_node? foundChild, loose⟩
      topBlocks_eq := arranged.topBlocks_link attachable
      listed := (arranged.coherent bounded).descendants?_eq_some child
      reach_grows := by
        intro outer above inner
        rw [arranged.encloses_link_iff attachable,
          arranged.mem_descendants_iff bounded loose,
          and_iff_left (around.mp above)]
      reach_new := by
        intro outer above inner below
        exact arranged.not_encloses_of_surrounds attachable (around.mp above)
          ((arranged.mem_descendants_iff bounded loose).mp below)
      reach_eq := by
        intro outer apart inner
        rw [arranged.encloses_link_iff attachable]
        exact or_iff_left fun reached => apart (around.mpr reached.2) }

/-- A block with one input, and an input with a field. -/
def looseInputEdits : List Edit :=
  [.addNode .blockCreator, .addNode .dummyInput, .addNode .inputValue,
    .addNode .textInput, .attach 0 Slot.inputs 1, .attach 2 Slot.fields 3]

theorem run_attach_effect_second_input :
    (run looseInputEdits).attach 0 Slot.inputs 2 =
        .ok (run (looseInputEdits ++ [.attach 0 Slot.inputs 2])) ∧
      (run looseInputEdits).Attaches
        (run (looseInputEdits ++ [.attach 0 Slot.inputs 2])) 0 Slot.inputs 2 := by
  have succeeds : (run looseInputEdits).attach 0 Slot.inputs 2 =
      .ok (run (looseInputEdits ++ [.attach 0 Slot.inputs 2])) := by
    decide +kernel
  exact ⟨succeeds, run_attach_effect looseInputEdits succeeds⟩

end Workspace

end BlockForge
