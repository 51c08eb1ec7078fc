import BlockForge.Proofs.Workspace.Effect

/-!
# Exchanging attachments

Two attachments into different slots can be exchanged: if one succeeds after the
other, then they succeed the other way round and give the same workspace.  The
later child gets in the way of the earlier one only by a loop.  Such a loop
leads through both children, so it would have stopped the later attachment in
the first place.

The main theorem is `run_attach_exchange`.
-/

namespace BlockForge

namespace Node

/-- Slots of different names can be set in any order. -/
theorem setTarget_setTarget {first second : String} (differs : first ≠ second)
    (head other : NodeId) (node : Node) :
    (node.setTarget first head).setTarget second other =
      (node.setTarget second other).setTarget first head := by
  simp only [setTarget, List.map_map]
  congr 1
  apply List.map_congr_left
  intro slot _
  simp only [Function.comp_apply]
  split_ifs <;> simp_all

/-- Links to different children in different slots can be renewed in any
order. -/
theorem relink_relink
    {firstParent secondParent firstChild secondChild id : NodeId}
    {firstName secondName : String} {firstLast secondLast : Option NodeId}
    (slots : ¬ (firstParent = secondParent ∧ firstName = secondName))
    (children : firstChild ≠ secondChild)
    (lasts : firstLast = some id → secondLast ≠ some id) (node : Node) :
    (node.relink firstParent firstName firstLast firstChild id).relink
        secondParent secondName secondLast secondChild id =
      (node.relink secondParent secondName secondLast secondChild id).relink
        firstParent firstName firstLast firstChild id := by
  have apart : id = secondChild → ¬ id = firstChild :=
    fun isSecond isFirst => children (isFirst.symm.trans isSecond)
  unfold relink
  rw [Node.mk.injEq]
  refine ⟨rfl, rfl, rfl, rfl, ?_, ite_ite_comm _ _ _ _ apart,
    ite_ite_comm _ _ _ _ apart,
    ite_ite_comm _ _ _ _ fun isLast other => lasts other isLast⟩
  -- Only where both chains are empty, both slots of one node change.
  by_cases first : id = firstParent ∧ firstLast = none <;>
    by_cases second : id = secondParent ∧ secondLast = none
  · have differs : firstName ≠ secondName := fun same =>
      slots ⟨first.1.symm.trans second.1, same⟩
    simp only [if_pos first, if_pos second]
    have exchanged := congrArg Node.slots
      (setTarget_setTarget differs firstChild secondChild node)
    exact exchanged
  · simp only [if_pos first, if_neg second]
    rfl
  · simp only [if_neg first, if_pos second]
    rfl
  · simp only [if_neg first, if_neg second]

end Node

namespace Workspace

/-- What an attachment needs in another workspace with the same nodes. -/
theorem Attachable.transfer {workspace edited : Workspace}
    {chains : NodeId → String → List NodeId} {order : NodeId → Nat}
    {parent child : NodeId} {name : String}
    (attachable : workspace.Attachable parent name child)
    (arranged : edited.Arranged chains order)
    (label_eq : ∀ id, edited.label? id = workspace.label? id)
    (loose : edited.parent? child = none)
    (apart : ¬ edited.Surrounds child parent)
    (target_eq : edited.target? parent name = workspace.target? parent name) :
    edited.Attachable parent name child := by
  rcases attachable.owner with ⟨owner, foundOwner, present⟩
  rcases attachable.free with ⟨node, found, _, fits⟩
  have counterpart : ∀ {id node}, workspace.node? id = some node →
      ∃ other, edited.node? id = some other ∧ other.label = node.label := by
    intro id node found
    apply exists_node_of_label?
    rw [label_eq, label?, found, Option.map_some]
  rcases counterpart foundOwner with ⟨newOwner, foundNewOwner, ownerLabel⟩
  rcases counterpart found with ⟨newNode, foundNew, nodeLabel⟩
  refine
    { owner := ⟨newOwner, foundNewOwner, ?_⟩
      free := ⟨newNode, foundNew, (arranged.isFree_iff foundNew).mpr loose, ?_⟩
      apart
      vacant := by rw [target_eq]; exact attachable.vacant }
  · rw [Option.isSome_iff_ne_none, Ne, Node.slot?_eq_none_iff] at present ⊢
    rw [ownerLabel]
    exact present
  · have kind_eq : newNode.kind = node.kind := congrArg Label.kind nodeLabel
    rw [kind_eq]
    exact fits

namespace Arranged

variable {workspace : Workspace} {chains : NodeId → String → List NodeId}
  {order : NodeId → Nat}

/-- An attachment that has what it needs succeeds. -/
theorem attach_of_attachable (arranged : workspace.Arranged chains order)
    {parent child : NodeId} {name : String}
    (attachable : workspace.Attachable parent name child) :
    workspace.attach parent name child =
      .ok (workspace.link parent name (workspace.target? parent name)
        child) := by
  rcases attachable.owner with ⟨owner, foundOwner, present⟩
  rcases attachable.free with ⟨node, found, free, fits⟩
  have vacant := attachable.vacant
  rw [arranged.target_eq, List.head?_eq_none_iff] at vacant
  rw [Option.isSome_iff_ne_none, Ne, Node.slot?_eq_none_iff] at present
  rw [arranged.toRank.attach_eq (fun _ => rank_le ..) foundOwner found free
      attachable.apart name, if_neg present, if_neg (by simp [fits]),
    if_neg (fun full => full.2 (vacant full.1)), arranged.target_eq]

section

variable {firstParent secondParent firstChild secondChild : NodeId}
  {firstName secondName : String}

/-- After one attachment there is less to attach: its child is taken, and a node
must not close a loop with it. -/
theorem attachable_link_iff (arranged : workspace.Arranged chains order)
    (first : workspace.Attachable firstParent firstName firstChild)
    (slots : ¬ (secondParent = firstParent ∧ secondName = firstName)) :
    (workspace.link firstParent firstName
        (workspace.target? firstParent firstName) firstChild).Attachable
          secondParent secondName secondChild ↔
      workspace.Attachable secondParent secondName secondChild ∧
        secondChild ≠ firstChild ∧
        ¬ (workspace.Surrounds firstChild secondParent ∧
          workspace.Surrounds secondChild firstParent) := by
  rcases first.free with ⟨_, foundFirst, free, _⟩
  rcases arranged.link first with ⟨_, linked⟩
  have label_eq : ∀ id, (workspace.link firstParent firstName
      (workspace.target? firstParent firstName) firstChild).label? id =
        workspace.label? id := by
    simp
  have target_eq := arranged.target?_link first secondParent secondName
  rw [extend_of_ne slots, ← arranged.target_eq] at target_eq
  constructor
  · intro second
    have loose := linked.parent?_child second
    have apart := second.apart
    rw [arranged.parent?_link first] at loose
    rw [arranged.surrounds_link_iff first, not_or] at apart
    split_ifs at loose with taken
    exact ⟨second.transfer arranged (fun id => (label_eq id).symm) loose
      apart.1 target_eq.symm, taken, apart.2⟩
  · rintro ⟨second, other, acyclic⟩
    apply second.transfer linked label_eq ?_ ?_ target_eq
    · rw [arranged.parent?_link first, if_neg other]
      exact arranged.parent?_child second
    · rw [arranged.surrounds_link_iff first, not_or]
      exact ⟨second.apart, acyclic⟩

/-- The nodes after two attachments into different slots. -/
theorem node?_link_link (arranged : workspace.Arranged chains order)
    (first : workspace.Attachable firstParent firstName firstChild)
    {edited : Workspace}
    (edited_eq : edited = workspace.link firstParent firstName
      (workspace.target? firstParent firstName) firstChild)
    (second : edited.Attachable secondParent secondName secondChild)
    (slots : ¬ (secondParent = firstParent ∧ secondName = firstName))
    (id : NodeId) :
    (edited.link secondParent secondName
        (edited.target? secondParent secondName) secondChild).node? id =
      (workspace.node? id).map fun node =>
        (node.relink firstParent firstName
          (chains firstParent firstName).getLast? firstChild id).relink
            secondParent secondName (chains secondParent secondName).getLast?
              secondChild id := by
  rcases first.free with ⟨_, foundFirst, firstFree, _⟩
  rcases second.free with ⟨_, foundSecond, secondFree, _⟩
  rcases arranged.link first with ⟨_, linked⟩
  rw [← edited_eq] at linked
  rw [linked.target_eq, linked.node?_link foundSecond secondFree,
    extend_of_ne slots, edited_eq, arranged.target_eq,
    arranged.node?_link foundFirst firstFree, Option.map_map]
  rfl

/-- Two attachments into different slots can be exchanged. -/
theorem exists_attach_exchange (arranged : workspace.Arranged chains order)
    {first both : Workspace}
    (slots : ¬ (firstParent = secondParent ∧ firstName = secondName))
    (attaches : workspace.attach firstParent firstName firstChild = .ok first)
    (attachesToo : first.attach secondParent secondName secondChild =
      .ok both) :
    ∃ second,
      workspace.attach secondParent secondName secondChild = .ok second ∧
        second.attach firstParent firstName firstChild = .ok both := by
  have slotsToo : ¬ (secondParent = firstParent ∧ secondName = firstName) :=
    fun same => slots ⟨same.1.symm, same.2.symm⟩
  rcases attachable_of_attach arranged attaches with ⟨attachable, first_eq⟩
  rcases arranged.link attachable with ⟨_, linked⟩
  rw [← first_eq] at linked
  rcases attachable_of_attach linked attachesToo with ⟨laterToo, both_eq⟩
  have conditions := laterToo
  rw [first_eq, arranged.attachable_link_iff attachable slotsToo] at conditions
  rcases conditions with ⟨attachableToo, children, acyclic⟩
  -- The conditions do not tell which attachment comes first.
  have later := (arranged.attachable_link_iff attachableToo slots).mpr
    ⟨attachable, children.symm, fun loop => acyclic loop.symm⟩
  rcases arranged.link attachableToo with ⟨_, linkedToo⟩
  refine ⟨_, arranged.attach_of_attachable attachableToo, ?_⟩
  rw [linkedToo.attach_of_attachable later, both_eq]
  congr 1
  apply eq_of_node?
  intro id
  rw [arranged.node?_link_link attachable first_eq laterToo slotsToo,
    arranged.node?_link_link attachableToo rfl later slots]
  apply Option.map_congr
  intro node _
  apply Node.relink_relink slotsToo children
  intro isLast isLastToo
  exact slotsToo (arranged.slot_eq (List.mem_of_getLast? isLast)
    (List.mem_of_getLast? isLastToo))

end

end Arranged

/-- Whatever edits build a workspace, two attachments into different slots that
succeed one after the other also succeed in the other order, and the workspace
that they give is the same. -/
theorem run_attach_exchange (edits : List Edit)
    {firstParent secondParent firstChild secondChild : NodeId}
    {firstName secondName : String} {first both : Workspace}
    (slots : (firstParent, firstName) ≠ (secondParent, secondName))
    (attaches : (run edits).attach firstParent firstName firstChild = .ok first)
    (attachesToo : first.attach secondParent secondName secondChild =
      .ok both) :
    ∃ second,
      (run edits).attach secondParent secondName secondChild = .ok second ∧
        second.attach firstParent firstName firstChild = .ok both := by
  rcases exists_arranged_run edits with ⟨order, arranged, _⟩
  refine arranged.exists_attach_exchange ?_ attaches attachesToo
  rintro ⟨rfl, rfl⟩
  exact slots rfl

/-- A block, an input and a field that hang nowhere. -/
def scatteredEdits : List Edit :=
  [.addNode .blockCreator, .addNode .inputValue, .addNode .textInput]

/-- The input can come to the block before or after the field comes to it. -/
theorem run_attach_exchange_inner_first :
    (0, Slot.inputs) ≠ (1, Slot.fields) ∧
      (run scatteredEdits).attach 0 Slot.inputs 1 =
        .ok (run (scatteredEdits ++ [.attach 0 Slot.inputs 1])) ∧
      (run (scatteredEdits ++ [.attach 0 Slot.inputs 1])).attach 1 Slot.fields
          2 =
        .ok (run (scatteredEdits ++
          [.attach 0 Slot.inputs 1, .attach 1 Slot.fields 2])) ∧
      ∃ second, (run scatteredEdits).attach 1 Slot.fields 2 = .ok second ∧
        second.attach 0 Slot.inputs 1 =
          .ok (run (scatteredEdits ++
            [.attach 0 Slot.inputs 1, .attach 1 Slot.fields 2])) := by
  have slots : (0, Slot.inputs) ≠ (1, Slot.fields) := by decide
  have attaches : (run scatteredEdits).attach 0 Slot.inputs 1 =
      .ok (run (scatteredEdits ++ [.attach 0 Slot.inputs 1])) := by
    decide +kernel
  have attachesToo :
      (run (scatteredEdits ++ [.attach 0 Slot.inputs 1])).attach 1 Slot.fields
          2 =
        .ok (run (scatteredEdits ++
          [.attach 0 Slot.inputs 1, .attach 1 Slot.fields 2])) := by
    decide +kernel
  exact ⟨slots, attaches, attachesToo,
    run_attach_exchange scatteredEdits slots attaches attachesToo⟩

end Workspace

end BlockForge
