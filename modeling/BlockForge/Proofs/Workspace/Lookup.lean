import BlockForge.Proofs.Workspace.Slots

/-!
# Looking up nodes after an edit

Every edit adds one node or changes nodes in place.  The equations of this
module say what is found under an id afterwards, and `attach_eq_ok` says what a
successful attachment has checked.
-/

namespace BlockForge

namespace Workspace

/-- What comes before a node in its chain. -/
def previous? (workspace : Workspace) (id : NodeId) : Option NodeId :=
  (workspace.node? id).bind Node.previous

/-- The head of the chain in a slot. -/
def target? (workspace : Workspace) (id : NodeId) (name : String) :
    Option NodeId :=
  (workspace.node? id).bind fun node => node.target? name

@[simp]
theorem tree_slotTarget (workspace : Workspace) (id : NodeId) (name : String) :
    workspace.tree.slotTarget id name = workspace.target? id name :=
  rfl

@[simp]
theorem tree_nextSibling (workspace : Workspace) (id : NodeId) :
    workspace.tree.nextSibling id = workspace.next? id :=
  rfl

@[simp]
theorem tree_kind (workspace : Workspace) (id : NodeId) :
    workspace.tree.kind id = workspace.kind? id :=
  rfl

theorem lt_size_of_node? {workspace : Workspace} {id : NodeId} {node : Node}
    (found : workspace.node? id = some node) : id < workspace.size := by
  rcases Array.getElem?_eq_some_iff.mp found with ⟨bound, _⟩
  exact bound

theorem lt_size_of_kind? {workspace : Workspace} {id : NodeId} {kind : Kind}
    (ofKind : workspace.kind? id = some kind) : id < workspace.size := by
  rcases Option.map_eq_some_iff.mp ofKind with ⟨node, found, _⟩
  exact lt_size_of_node? found

theorem exists_node? {workspace : Workspace} {id : NodeId}
    (inside : id < workspace.size) :
    ∃ node, workspace.node? id = some node :=
  ⟨workspace.nodes[id], Array.getElem?_eq_getElem inside⟩

theorem exists_kind? {workspace : Workspace} {id : NodeId}
    (inside : id < workspace.size) :
    ∃ kind, workspace.kind? id = some kind := by
  rcases exists_node? inside with ⟨node, found⟩
  exact ⟨node.kind, by rw [kind?, found, Option.map_some]⟩

/-- Later edits go on with the workspace of the earlier ones. -/
theorem run_append (edits later : List Edit) :
    run (edits ++ later) = (run edits).afterAll later :=
  List.foldl_append

@[simp]
theorem node?_empty (id : NodeId) : empty.node? id = none := by
  simp [node?, empty]

theorem eq_of_node? {first second : Workspace}
    (same : ∀ id, first.node? id = second.node? id) : first = second := by
  rw [Workspace.mk.injEq]
  exact Array.ext_getElem? same

@[simp]
theorem size_modify (workspace : Workspace) (id : NodeId)
    (change : Node → Node) :
    (workspace.modify id change).size = workspace.size := by
  simp [modify, size]

theorem node?_modify (workspace : Workspace) (id other : NodeId)
    (change : Node → Node) :
    (workspace.modify id change).node? other =
      (workspace.node? other).map fun node =>
        if other = id then change node else node := by
  simp only [node?, modify, Array.getElem?_modify]
  by_cases same : id = other
  · subst same
    simp
  · have differs : other ≠ id := fun equal => same equal.symm
    simp [same, differs]

/-- Changing a node that does not exist changes nothing. -/
theorem modify_of_size_le {workspace : Workspace} {id : NodeId}
    (outside : workspace.size ≤ id) (change : Node → Node) :
    workspace.modify id change = workspace := by
  apply eq_of_node?
  intro other
  rw [node?_modify]
  cases found : workspace.node? other with
  | none => rfl
  | some node =>
      have differs : other ≠ id :=
        Nat.ne_of_lt (Nat.lt_of_lt_of_le (lt_size_of_node? found) outside)
      rw [Option.map_some, if_neg differs]

@[simp]
theorem modify_id (workspace : Workspace) (id : NodeId) :
    (workspace.modify id fun node => node) = workspace := by
  apply eq_of_node?
  intro other
  simp [node?_modify]

@[simp]
theorem modify_modify (workspace : Workspace) (id : NodeId)
    (first second : Node → Node) :
    (workspace.modify id first).modify id second =
      workspace.modify id fun node => second (first node) := by
  apply eq_of_node?
  intro other
  simp only [node?_modify, Option.map_map]
  split_ifs <;> rfl

@[simp]
theorem size_addNode (workspace : Workspace) (kind : Kind) :
    (workspace.addNode kind).size = workspace.size + 1 := by
  simp [addNode, size]

theorem node?_addNode (workspace : Workspace) (kind : Kind) (id : NodeId) :
    (workspace.addNode kind).node? id =
      if id = workspace.size then some (Node.ofKind id kind)
      else workspace.node? id := by
  have pushed :
      (workspace.addNode kind).node? id =
        if id = workspace.size then some (Node.ofKind workspace.size kind)
        else workspace.node? id :=
    Array.getElem?_push
  rw [pushed]
  by_cases same : id = workspace.size
  · rw [if_pos same, if_pos same, same]
  · rw [if_neg same, if_neg same]

/-- A change of a node that exists succeeds. -/
theorem update_eq_ok {workspace edited : Workspace} {id : NodeId}
    {change : Node → Node}
    (succeeds : workspace.update id change = .ok edited) :
    edited = workspace.modify id change := by
  unfold update at succeeds
  split_ifs at succeeds
  exact (Except.ok.inj succeeds).symm

/-- The checks of an attachment, in order, where both nodes and the slot
exist. -/
theorem attach_of_found {workspace : Workspace} {parent child : NodeId}
    {name : String} {parentNode childNode : Node} {slot : Slot}
    (foundParent : workspace.node? parent = some parentNode)
    (foundSlot : parentNode.slot? name = some slot)
    (foundChild : workspace.node? child = some childNode) :
    workspace.attach parent name child =
      if childNode.isFree = false then .error (.alreadyAttached child)
      else if child = parent ∨ workspace.isWithin parent child = true then
        .error (.cycle parent child)
      else
        match workspace.misfit? name (workspace.chainFrom child) with
        | some (id, kind) => .error (.misplaced id kind name)
        | none =>
          if Slot.isType name = true ∧
              (slot.target.isSome = true ∨ childNode.next.isSome = true) then
            .error (.slotFull parent name)
          else .ok (workspace.link parent name slot.target child) := by
  unfold attach
  simp only [foundParent, foundSlot, foundChild]
  cases childNode.isFree with
  | false => rfl
  | true =>
      by_cases cyclic : child = parent ∨ workspace.isWithin parent child = true
      · simp only [if_pos cyclic]
        rfl
      · simp only [if_neg cyclic]
        cases workspace.misfit? name (workspace.chainFrom child) with
        | some pair => rfl
        | none =>
            by_cases full :
                Slot.isType name = true ∧
                  (slot.target.isSome = true ∨ childNode.next.isSome = true)
            · simp only [if_pos full]
              rfl
            · simp only [if_neg full]
              rfl

/-- What an attachment has checked when it succeeds, and what it then does. -/
theorem attach_eq_ok {workspace edited : Workspace} {parent child : NodeId}
    {name : String}
    (succeeds : workspace.attach parent name child = .ok edited) :
    ∃ parentNode slot childNode,
      workspace.node? parent = some parentNode ∧
        parentNode.slot? name = some slot ∧
        workspace.node? child = some childNode ∧
        childNode.isFree = true ∧
        child ≠ parent ∧
        workspace.isWithin parent child = false ∧
        workspace.misfit? name (workspace.chainFrom child) = none ∧
        (Slot.isType name = true → slot.target = none) ∧
        edited = workspace.link parent name slot.target child := by
  cases foundParent : workspace.node? parent with
  | none =>
      simp only [attach, foundParent] at succeeds
      cases succeeds
  | some parentNode =>
      cases foundSlot : parentNode.slot? name with
      | none =>
          simp only [attach, foundParent, foundSlot] at succeeds
          cases succeeds
      | some slot =>
          cases foundChild : workspace.node? child with
          | none =>
              simp only [attach, foundParent, foundSlot, foundChild]
                at succeeds
              cases succeeds
          | some childNode =>
              rw [attach_of_found foundParent foundSlot foundChild] at succeeds
              cases fitting :
                  workspace.misfit? name (workspace.chainFrom child) with
              | some pair =>
                  rw [fitting] at succeeds
                  split_ifs at succeeds
              | none =>
                  rw [fitting] at succeeds
                  split_ifs at succeeds with bound cyclic full
                  rw [not_or] at cyclic
                  refine
                    ⟨parentNode, slot, childNode, rfl, foundSlot, rfl,
                      by simpa using bound, cyclic.1, by simpa using cyclic.2,
                      rfl, ?_, (Except.ok.inj succeeds).symm⟩
                  intro holdsType
                  have vacant : ¬ slot.target.isSome = true :=
                    fun occupied => full ⟨holdsType, .inl occupied⟩
                  simpa using vacant

end Workspace

end BlockForge
