import BlockForge.Proofs.Workspace.Forest

/-!
# Placing a free node

On an arranged workspace the outcome of an attachment can be read off the
arrangement.  `Arranged.attach_eq` says what happens to a free node that is not
around its new owner: the checks that are left ask for the slot, for the kind of
the node and for what already hangs in the slot.

An attachment changes links only.  What a node is apart from its links is its
`Label`, and every node keeps it.  Where only the last node is ever attached,
the nodes stay `Stacked`: the ids themselves are the numbers of an arrangement.
-/

namespace BlockForge

/-- A node without its links. -/
structure Label where
  kind : Kind
  fields : FieldTable
  mutation : Option Mutation
  slotNames : List String
deriving DecidableEq, Repr

/-- What a node is apart from its links. -/
def Node.label (node : Node) : Label where
  kind := node.kind
  fields := node.fields
  mutation := node.mutation
  slotNames := node.slots.map Slot.name

theorem Node.slot?_eq_none_iff {node : Node} {name : String} :
    node.slot? name = none ↔ name ∉ node.label.slotNames := by
  rw [slot?, List.find?_eq_none]
  simp [label]

namespace Workspace

/-- The label of a node. -/
def label? (workspace : Workspace) (id : NodeId) : Option Label :=
  (workspace.node? id).map Node.label

theorem exists_node_of_label? {workspace : Workspace} {id : NodeId}
    {label : Label} (labelled : workspace.label? id = some label) :
    ∃ node, workspace.node? id = some node ∧ node.label = label :=
  Option.map_eq_some_iff.mp labelled

theorem lt_size_of_label? {workspace : Workspace} {id : NodeId}
    {label : Label} (labelled : workspace.label? id = some label) :
    id < workspace.size := by
  rcases exists_node_of_label? labelled with ⟨node, found, _⟩
  exact lt_size_of_node? found

@[simp]
theorem size_link (workspace : Workspace) (parent : NodeId) (name : String)
    (head : Option NodeId) (child : NodeId) :
    (workspace.link parent name head child).size = workspace.size := by
  have owned : ∀ (ids : List NodeId) (linked : Workspace),
      (ids.foldl (fun owned id =>
        owned.modify id fun node => { node with parent := some parent })
          linked).size = linked.size := by
    intro ids
    induction ids with
    | nil => exact fun _ => rfl
    | cons id ids ids_ih =>
        intro linked
        rw [List.foldl_cons, ids_ih, size_modify]
  unfold link
  rw [owned]
  cases head <;> simp

/-- A change of links leaves every node what it is. -/
theorem label?_modify (workspace : Workspace) (id : NodeId)
    {change : Node → Node} (keeps : ∀ node, (change node).label = node.label) :
    (workspace.modify id change).label? = workspace.label? := by
  funext other
  rw [label?, label?, node?_modify, Option.map_map]
  congr 1
  funext node
  rw [Function.comp_apply]
  split_ifs
  · exact keeps node
  · rfl

/-- An attachment leaves every node what it is. -/
@[simp]
theorem label?_link (workspace : Workspace) (parent : NodeId) (name : String)
    (head : Option NodeId) (child : NodeId) :
    (workspace.link parent name head child).label? = workspace.label? := by
  have owned : ∀ (ids : List NodeId) (linked : Workspace),
      (ids.foldl (fun owned id =>
        owned.modify id fun node => { node with parent := some parent })
          linked).label? = linked.label? := by
    intro ids
    induction ids with
    | nil => exact fun _ => rfl
    | cons id ids ids_ih =>
        intro linked
        rw [List.foldl_cons, ids_ih]
        exact label?_modify linked id fun _ => rfl
  have hung : ∀ node : Node, (node.setTarget name child).label = node.label := by
    intro node
    rw [Node.label, Node.label, Node.map_name_setTarget]
    rfl
  unfold link
  rw [owned]
  cases head with
  | none => exact label?_modify workspace parent hung
  | some first =>
      refine (label?_modify _ child ?_).trans (label?_modify workspace _ ?_)
      · exact fun _ => rfl
      · exact fun _ => rfl

@[simp]
theorem extend_self (chains : NodeId → String → List NodeId) (parent : NodeId)
    (name : String) (child : NodeId) :
    extend chains parent name child parent name =
      chains parent name ++ [child] :=
  if_pos ⟨rfl, rfl⟩

theorem extend_of_ne {chains : NodeId → String → List NodeId}
    {parent child id : NodeId} {name slot : String}
    (differs : ¬ (id = parent ∧ slot = name)) :
    extend chains parent name child id slot = chains id slot :=
  if_neg differs

/-- A workspace is arranged in the order of the ids: every node comes after its
owner and after what is before it in its chain. -/
abbrev Stacked (workspace : Workspace)
    (chains : NodeId → String → List NodeId) : Prop :=
  workspace.Arranged chains fun id => id

namespace Arranged

variable {workspace : Workspace} {chains : NodeId → String → List NodeId}
  {order : NodeId → Nat}

/-- A way up that is long enough meets only nodes that are around its start. -/
theorem surrounds_of_climbs (arranged : workspace.Arranged chains order)
    {ancestor : NodeId} {steps : Nat} :
    ∀ {id}, order id < steps →
      workspace.climbs ancestor steps (some id) = true →
        workspace.Surrounds ancestor id := by
  induction steps with
  | zero =>
      intro id few
      exact absurd few (Nat.not_lt_zero _)
  | succ steps steps_ih =>
      intro id few meets
      rw [climbs] at meets
      split_ifs at meets with same
      · rw [same]
        exact .refl
      · cases parent : workspace.parent? id with
        | none =>
            rw [parent] at meets
            cases steps <;> cases meets
        | some owner =>
            rw [parent] at meets
            have less := arranged.order_lt_of_parent? parent
            exact (steps_ih (by omega) meets).trans
              (surrounds_of_parent? parent)

/-- No node takes part in a loop unless the links make one. -/
theorem isWithin_eq_false (arranged : workspace.Arranged chains order)
    (bounded : ∀ {id}, id < workspace.size → order id ≤ workspace.size)
    {parent child : NodeId} (apart : ¬ workspace.Surrounds child parent) :
    workspace.isWithin parent child = false := by
  rw [isWithin]
  cases above : workspace.parent? parent with
  | none => rfl
  | some owner =>
      rw [← Bool.not_eq_true]
      intro meets
      have less := arranged.order_lt_of_parent? above
      have most := bounded (lt_size_of_parent? above)
      exact apart ((arranged.surrounds_of_climbs (by omega) meets).trans
        (surrounds_of_parent? above))

/-- What becomes of attaching a free node that is not around its owner. -/
theorem attach_eq (arranged : workspace.Arranged chains order)
    (bounded : ∀ {id}, id < workspace.size → order id ≤ workspace.size)
    {parent child : NodeId} {parentNode childNode : Node}
    (foundParent : workspace.node? parent = some parentNode)
    (foundChild : workspace.node? child = some childNode)
    (free : childNode.isFree = true)
    (apart : ¬ workspace.Surrounds child parent) (name : String) :
    workspace.attach parent name child =
      if name ∉ parentNode.label.slotNames then
        .error (.unknownSlot parent parentNode.kind name)
      else if childNode.kind.fits name = false then
        .error (.misplaced child childNode.kind name)
      else if Slot.isType name = true ∧ chains parent name ≠ [] then
        .error (.slotFull parent name)
      else
        .ok (workspace.link parent name (chains parent name).head? child) := by
  cases foundSlot : parentNode.slot? name with
  | none =>
      rw [if_pos (Node.slot?_eq_none_iff.mp foundSlot)]
      simp only [attach, foundParent, foundSlot]
      rfl
  | some slot =>
      have present : ¬ name ∉ parentNode.label.slotNames := by
        rw [← Node.slot?_eq_none_iff, foundSlot]
        simp
      have target_eq : slot.target = (chains parent name).head? := by
        rw [← arranged.target_eq]
        simp [target?, foundParent, Node.target?, foundSlot]
      have noNext : childNode.next = none :=
        (arranged.loose foundChild
          (arranged.notMem_of_isFree foundChild free)).2.2
      have acyclic : ¬ (child = parent ∨
          workspace.isWithin parent child = true) := by
        rintro (same | within)
        · exact apart (same ▸ .refl)
        · rw [arranged.isWithin_eq_false bounded apart] at within
          cases within
      rw [if_neg present, attach_of_found foundParent foundSlot foundChild,
        free, if_neg (by simp), if_neg acyclic,
        arranged.chainFrom_of_isFree foundChild free]
      have occupied : ((chains parent name).head?.isSome = true ∨
          childNode.next.isSome = true) ↔ chains parent name ≠ [] := by
        rw [noNext, List.isSome_head?]
        simp
      have misfit : workspace.misfit? name [child] =
          if childNode.kind.fits name = false then
            some (child, childNode.kind)
          else none := by
        cases fits : childNode.kind.fits name <;>
          simp [misfit?, kind?, foundChild, fits]
      rw [misfit]
      cases childNode.kind.fits name with
      | false => rfl
      | true =>
          simp only [Bool.true_eq_false, if_false, target_eq, occupied]

/-- A workspace stays stacked when its last node is attached. -/
theorem link_last (stacked : workspace.Stacked chains)
    {parent child : NodeId} {name : String}
    (attachable : workspace.Attachable parent name child)
    (last : ∀ id ∈ parent :: chains parent name, id < child) :
    (workspace.link parent name (workspace.target? parent name)
      child).Stacked (extend chains parent name child) := by
  rcases stacked.link attachable with ⟨lifted, arranged⟩
  refine { arranged with ascending := ?_ }
  intro owner slot
  by_cases here : owner = parent ∧ slot = name
  · rcases here with ⟨rfl, rfl⟩
    rw [extend_self, ← List.cons_append, List.pairwise_append]
    refine ⟨stacked.ascending owner slot, List.pairwise_singleton _ _, ?_⟩
    intro upper member lower isChild
    rw [List.mem_singleton.mp isChild]
    exact last upper member
  · rw [extend_of_ne here]
    exact stacked.ascending owner slot

end Arranged

end Workspace

end BlockForge
