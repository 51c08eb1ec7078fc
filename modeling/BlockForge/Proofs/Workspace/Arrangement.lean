import BlockForge.Proofs.Workspace.Lookup
import Mathlib.Algebra.BigOperators.Group.List.Basic
import Mathlib.Algebra.Order.BigOperators.Group.List
import Mathlib.Algebra.Order.Ring.Nat
import Mathlib.Logic.Relation

/-!
# Arrangements of a workspace

The links of a workspace say where every node hangs.  An arrangement says the
same in one piece: it lists the chain in each slot, and it numbers the nodes so
that the numbers grow from a node to what hangs in it and along every chain.
`Arranged` states that the links of a workspace agree with an arrangement; the
numbers exclude loops.

Every edit turns an arranged workspace into an arranged one.  Only an
attachment changes the arrangement: it puts the child at the end of a chain and
lifts the numbers of everything below the child.
-/

namespace BlockForge

/-- A node hangs in a slot of `parent`, between the rest of its chain. -/
structure Node.SitsIn (node : Node) (parent : NodeId) (name : String)
    (before after : List NodeId) : Prop where
  fits : node.kind.fits name = true
  parent_eq : node.parent = some parent
  previous_eq : node.previous = before.getLast?
  next_eq : node.next = after.head?

/-- A changed node hangs where it hung, and so does everything in it. -/
structure Node.Keeps (node changed : Node) : Prop where
  id_eq : changed.id = node.id
  kind_eq : changed.kind = node.kind
  parent_eq : changed.parent = node.parent
  previous_eq : changed.previous = node.previous
  next_eq : changed.next = node.next
  target_eq : ∀ name, changed.target? name = node.target? name
  slotNames_eq : ∀ {members},
    node.slots.map Slot.name = node.kind.slotsWith members →
      ∃ grown, changed.slots.map Slot.name = node.kind.slotsWith grown

namespace Node

theorem keeps_fields (node : Node) (fields : FieldTable) :
    node.Keeps { node with fields } where
  id_eq := rfl
  kind_eq := rfl
  parent_eq := rfl
  previous_eq := rfl
  next_eq := rfl
  target_eq := fun _ => rfl
  slotNames_eq := fun names => ⟨_, names⟩

theorem keeps_setMutation (node : Node) (mutation : Mutation) :
    node.Keeps (node.setMutation mutation) where
  id_eq := rfl
  kind_eq := rfl
  parent_eq := rfl
  previous_eq := rfl
  next_eq := rfl
  target_eq := target?_setMutation mutation node
  slotNames_eq := by
    intro members names
    cases mutation with
    | dropdown _ => exact ⟨members, names⟩
    | typeGroup count => exact ⟨_, map_name_growSlots names count⟩

/-- A node that hangs where a changed one hangs, after a further change. -/
theorem Keeps.trans {node changed final : Node}
    (keeps : node.Keeps changed) (more : changed.Keeps final) :
    node.Keeps final where
  id_eq := more.id_eq.trans keeps.id_eq
  kind_eq := more.kind_eq.trans keeps.kind_eq
  parent_eq := more.parent_eq.trans keeps.parent_eq
  previous_eq := more.previous_eq.trans keeps.previous_eq
  next_eq := more.next_eq.trans keeps.next_eq
  target_eq := fun name => (more.target_eq name).trans (keeps.target_eq name)
  slotNames_eq := by
    intro members names
    rcases keeps.slotNames_eq names with ⟨grown, between⟩
    rw [← keeps.kind_eq] at between ⊢
    exact more.slotNames_eq between

end Node

namespace Workspace

/-- The links of a workspace agree with the chains of an arrangement. -/
structure Arranged (workspace : Workspace)
    (chains : NodeId → String → List NodeId) (order : NodeId → Nat) :
    Prop where
  id_eq : ∀ {id node}, workspace.node? id = some node → node.id = id
  slotNames : ∀ {id node}, workspace.node? id = some node →
    ∃ members, node.slots.map Slot.name = node.kind.slotsWith members
  target_eq : ∀ id name, workspace.target? id name = (chains id name).head?
  sits : ∀ {parent name before id after},
    chains parent name = before ++ id :: after →
      ∃ node, workspace.node? id = some node ∧
        node.SitsIn parent name before after
  loose : ∀ {id node}, workspace.node? id = some node →
    (∀ parent name, id ∉ chains parent name) →
      node.parent = none ∧ node.previous = none ∧ node.next = none
  name_eq : ∀ {id parent first second}, id ∈ chains parent first →
    id ∈ chains parent second → first = second
  ascending : ∀ parent name,
    (parent :: chains parent name).Pairwise fun upper lower =>
      order upper < order lower
  single : ∀ {parent name}, Slot.isType name = true →
    (chains parent name).length ≤ 1

namespace Arranged

variable {workspace : Workspace} {chains : NodeId → String → List NodeId}
  {order : NodeId → Nat}

/-- What hangs in a slot is in its chain. -/
theorem mem_of_target? (arranged : workspace.Arranged chains order)
    {id parent : NodeId} {name : String}
    (hangs : workspace.target? parent name = some id) :
    id ∈ chains parent name := by
  rw [arranged.target_eq] at hangs
  exact List.mem_of_head? hangs

/-- A member of a chain is a node that hangs there. -/
theorem exists_sitsIn (arranged : workspace.Arranged chains order)
    {id parent : NodeId} {name : String} (member : id ∈ chains parent name) :
    ∃ before after node,
      chains parent name = before ++ id :: after ∧
        workspace.node? id = some node ∧
        node.SitsIn parent name before after := by
  rcases List.append_of_mem member with ⟨before, after, split⟩
  rcases arranged.sits split with ⟨node, found, sits⟩
  exact ⟨before, after, node, split, found, sits⟩

theorem parent?_eq (arranged : workspace.Arranged chains order)
    {id parent : NodeId} {name : String} (member : id ∈ chains parent name) :
    workspace.parent? id = some parent := by
  rcases arranged.exists_sitsIn member with ⟨_, _, node, _, found, sits⟩
  simp [parent?, found, sits.parent_eq]

/-- A node hangs in one slot only. -/
theorem slot_eq (arranged : workspace.Arranged chains order)
    {id firstParent secondParent : NodeId} {first second : String}
    (inFirst : id ∈ chains firstParent first)
    (inSecond : id ∈ chains secondParent second) :
    firstParent = secondParent ∧ first = second := by
  have sameParent : firstParent = secondParent :=
    Option.some.inj
      ((arranged.parent?_eq inFirst).symm.trans
        (arranged.parent?_eq inSecond))
  subst sameParent
  exact ⟨rfl, arranged.name_eq inFirst inSecond⟩

theorem lt_size_of_mem (arranged : workspace.Arranged chains order)
    {id parent : NodeId} {name : String} (member : id ∈ chains parent name) :
    id < workspace.size := by
  rcases arranged.exists_sitsIn member with ⟨_, _, _, _, found, _⟩
  exact lt_size_of_node? found

/-- The owner of an occupied slot is a node with a slot of this name. -/
theorem exists_owner (arranged : workspace.Arranged chains order)
    {id parent : NodeId} {name : String} (member : id ∈ chains parent name) :
    ∃ node, workspace.node? parent = some node ∧
      name ∈ node.slots.map Slot.name := by
  have occupied : (workspace.target? parent name).isSome = true := by
    rw [arranged.target_eq, List.isSome_head?]
    exact List.ne_nil_of_mem member
  rcases Option.isSome_iff_exists.mp occupied with ⟨head, target⟩
  rcases Option.bind_eq_some_iff.mp target with ⟨node, found, hangs⟩
  rcases Node.target?_mem_slots hangs with ⟨slot, inSlots, named, _⟩
  exact ⟨node, found, List.mem_map.mpr ⟨slot, inSlots, named⟩⟩

theorem owner_lt_size (arranged : workspace.Arranged chains order)
    {id parent : NodeId} {name : String} (member : id ∈ chains parent name) :
    parent < workspace.size := by
  rcases arranged.exists_owner member with ⟨node, found, _⟩
  exact lt_size_of_node? found

/-- No chain hangs in a node that does not exist. -/
theorem chain_eq_nil (arranged : workspace.Arranged chains order) {id : NodeId}
    (outside : workspace.size ≤ id) (name : String) : chains id name = [] := by
  rw [List.eq_nil_iff_forall_not_mem]
  intro child member
  exact absurd (arranged.owner_lt_size member) (not_lt.mpr outside)

theorem mem_slotNames_of_mem (arranged : workspace.Arranged chains order)
    {id parent : NodeId} {name : String} (member : id ∈ chains parent name) :
    name ∈ workspace.tree.slotNames parent := by
  rcases arranged.exists_owner member with ⟨node, found, named⟩
  simpa [tree, found] using named

theorem nodup (arranged : workspace.Arranged chains order)
    (parent : NodeId) (name : String) :
    (parent :: chains parent name).Nodup := by
  apply (arranged.ascending parent name).imp
  intro upper lower less equal
  exact absurd less (by rw [equal]; exact lt_irrefl _)

/-- A node with no parent and nothing before it is in no chain. -/
theorem notMem_of_isFree (arranged : workspace.Arranged chains order)
    {id : NodeId} {node : Node} (found : workspace.node? id = some node)
    (free : node.isFree = true) (parent : NodeId) (name : String) :
    id ∉ chains parent name := by
  intro member
  have hasParent := arranged.parent?_eq member
  have noParent : node.parent = none := by
    rw [Node.isFree, Bool.and_eq_true] at free
    simpa using free.1
  simp [parent?, found, noParent] at hasParent

/-! ## Edits that keep the arrangement -/

theorem empty (order : NodeId → Nat) :
    Workspace.empty.Arranged (fun _ _ => []) order where
  id_eq := by simp
  slotNames := by simp
  target_eq := by simp [target?]
  sits := by simp
  loose := by simp
  name_eq := by simp
  ascending := by simp
  single := by simp

theorem addNode (arranged : workspace.Arranged chains order) (kind : Kind) :
    (workspace.addNode kind).Arranged chains order where
  id_eq := by
    intro id node found
    rw [node?_addNode] at found
    split_ifs at found
    · cases found
      rfl
    · exact arranged.id_eq found
  slotNames := by
    intro id node found
    rw [node?_addNode] at found
    split_ifs at found
    · cases found
      exact ⟨0, by simp [Node.ofKind, Kind.slotsWith, Function.comp_def]⟩
    · exact arranged.slotNames found
  target_eq := by
    intro id name
    rw [← arranged.target_eq, target?, target?, node?_addNode]
    split_ifs with added
    · have before : workspace.node? id = none :=
        node?_eq_none (le_of_eq added.symm)
      simp [before]
    · rfl
  sits := by
    intro parent name before id after split
    rcases arranged.sits split with ⟨node, found, sits⟩
    refine ⟨node, ?_, sits⟩
    rw [node?_addNode, if_neg (lt_size_of_node? found).ne]
    exact found
  loose := by
    intro id node found outside
    rw [node?_addNode] at found
    split_ifs at found
    · cases found
      exact ⟨rfl, rfl, rfl⟩
    · exact arranged.loose found outside
  name_eq := arranged.name_eq
  ascending := arranged.ascending
  single := arranged.single

theorem modify (arranged : workspace.Arranged chains order) (id : NodeId)
    {change : Node → Node} (keeps : ∀ node : Node, node.Keeps (change node)) :
    (workspace.modify id change).Arranged chains order := by
  have changed : ∀ {other : NodeId} {node : Node},
      (workspace.modify id change).node? other = some node →
        ∃ old, workspace.node? other = some old ∧ old.Keeps node := by
    intro other node found
    rw [node?_modify] at found
    rcases Option.map_eq_some_iff.mp found with ⟨old, foundOld, equal⟩
    refine ⟨old, foundOld, ?_⟩
    subst equal
    split_ifs
    · exact keeps old
    · exact ⟨rfl, rfl, rfl, rfl, rfl, fun _ => rfl, fun names => ⟨_, names⟩⟩
  refine
    { id_eq := ?_, slotNames := ?_, target_eq := ?_, sits := ?_, loose := ?_,
      name_eq := arranged.name_eq, ascending := arranged.ascending,
      single := arranged.single }
  · intro other node found
    rcases changed found with ⟨old, foundOld, kept⟩
    exact kept.id_eq.trans (arranged.id_eq foundOld)
  · intro other node found
    rcases changed found with ⟨old, foundOld, kept⟩
    rcases arranged.slotNames foundOld with ⟨members, names⟩
    rw [kept.kind_eq]
    exact kept.slotNames_eq names
  · intro other name
    rw [← arranged.target_eq, target?, target?, node?_modify]
    cases workspace.node? other with
    | none => rfl
    | some node =>
        simp only [Option.map_some, Option.bind_some]
        split_ifs
        · exact (keeps node).target_eq name
        · rfl
  · intro parent name before other after split
    rcases arranged.sits split with ⟨old, foundOld, sits⟩
    have found :
        (workspace.modify id change).node? other =
          some (if other = id then change old else old) := by
      rw [node?_modify, foundOld]
      rfl
    rcases changed found with ⟨same, foundSame, kept⟩
    cases foundOld.symm.trans foundSame
    refine ⟨_, found, ?_⟩
    exact
      { fits := by rw [kept.kind_eq]; exact sits.fits
        parent_eq := kept.parent_eq.trans sits.parent_eq
        previous_eq := kept.previous_eq.trans sits.previous_eq
        next_eq := kept.next_eq.trans sits.next_eq }
  · intro other node found outside
    rcases changed found with ⟨old, foundOld, kept⟩
    rw [kept.parent_eq, kept.previous_eq, kept.next_eq]
    exact arranged.loose foundOld outside

end Arranged

end Workspace

end BlockForge
