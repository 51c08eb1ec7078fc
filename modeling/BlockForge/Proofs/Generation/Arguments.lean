import BlockForge.Generation.Definition
import BlockForge.Proofs.Tree.Coherent
import Mathlib.Algebra.BigOperators.Group.List.Basic

/-!
# The arguments of a block

The arguments of a block are the fields and the inputs in the order of its
document: the fields of each item, then the item.  A last item without value is
left out.

All of them hang below the block creator, and apart from type constraints
nothing else does.  `countP_descendants` counts the nodes of the subtree and
`length_argumentNodes` the arguments.
-/

namespace BlockForge

namespace Kind

theorem slotNames_of_isField {kind : Kind} (isField : kind.isField = true) :
    kind.slotNames = [] := by
  cases kind <;> first | rfl | cases isField

theorem slotNames_of_isTypeConstraint {kind : Kind}
    (constraint : kind.isTypeConstraint = true) : kind.slotNames = [] := by
  cases kind <;> first | rfl | cases constraint

theorem isTypeConstraint_of_isField {kind : Kind} (isField : kind.isField = true) :
    kind.isTypeConstraint = false := by
  cases kind <;> first | rfl | cases isField

theorem isTypeConstraint_of_isInput {kind : Kind} (isInput : kind.isInput = true) :
    kind.isTypeConstraint = false := by
  cases kind <;> first | rfl | cases isInput

/-- The slots of an input hold fields and type constraints. -/
theorem slotNames_of_isInput {kind : Kind} (isInput : kind.isInput = true) :
    kind.slotNames = [Slot.fields] ∨
      kind.slotNames = [Slot.fields, Slot.type] := by
  cases kind <;> first | exact .inl rfl | exact .inr rfl | cases isInput

end Kind

namespace BlockTree

/-- The items of a block. -/
def items (tree : BlockTree) (root : NodeId) : List NodeId :=
  tree.chain root Slot.inputs

/-- The fields of an item. -/
def fieldsOf (tree : BlockTree) (item : NodeId) : List NodeId :=
  tree.chain item Slot.fields

/-- The nodes that an item contributes to the arguments of its block. -/
def argumentsOf (tree : BlockTree) (item : NodeId) : List NodeId :=
  tree.fieldsOf item ++ if Definition.isElided tree item then [] else [item]

/-- The nodes that the arguments of a block stand for. -/
def argumentNodes (tree : BlockTree) (root : NodeId) : List NodeId :=
  (tree.items root).flatMap tree.argumentsOf

/-- Whether a node is no type constraint. -/
def isShown (tree : BlockTree) (id : NodeId) : Bool :=
  !(tree.kind id).any Kind.isTypeConstraint

/-- The subtree of a node without what is chained after the node. -/
def own (tree : BlockTree) (id : NodeId) : List NodeId :=
  id :: ((tree.slotNames id).filterMap (tree.slotTarget id)).flatMap
    tree.descendants

/-! ## The number of arguments -/

theorem length_argumentNodes (tree : BlockTree) (root : NodeId) :
    (tree.argumentNodes root).length +
        (tree.items root).countP (Definition.isElided tree) =
      ((tree.items root).map fun item =>
        1 + (tree.fieldsOf item).length).sum := by
  unfold argumentNodes
  induction tree.items root with
  | nil => rfl
  | cons item items items_ih =>
      have own : (tree.argumentsOf item).length +
          (if Definition.isElided tree item then 1 else 0) =
            1 + (tree.fieldsOf item).length := by
        unfold argumentsOf
        split_ifs <;> simp [Nat.add_comm]
      rw [List.flatMap_cons, List.length_append, List.countP_cons,
        List.map_cons, List.sum_cons, ← items_ih, ← own]
      omega

namespace Coherent

variable {tree : BlockTree} {rank : NodeId → Nat}

/-! ## The nodes of a block -/

theorem exists_kind_of_mem_items (coherent : tree.Coherent rank)
    {root item : NodeId} (member : item ∈ tree.items root) :
    ∃ kind, tree.kind item = some kind ∧
      (kind.isInput = true ∨ kind.isField = true) := by
  rcases coherent.fits member with ⟨kind, ofKind, fits⟩
  refine ⟨kind, ofKind, ?_⟩
  simpa [Kind.fits] using fits

theorem exists_kind_of_mem_fieldsOf (coherent : tree.Coherent rank)
    {item field : NodeId} (member : field ∈ tree.fieldsOf item) :
    ∃ kind, tree.kind field = some kind ∧ kind.isField = true := by
  rcases coherent.fits member with ⟨kind, ofKind, fits⟩
  have differs : Slot.fields ≠ Slot.inputs := by decide
  refine ⟨kind, ofKind, ?_⟩
  simpa [Kind.fits, differs] using fits

theorem exists_kind_of_mem_type (coherent : tree.Coherent rank)
    {owner constraint : NodeId} {name : String}
    (isType : Slot.isType name = true)
    (member : constraint ∈ tree.chain owner name) :
    ∃ kind, tree.kind constraint = some kind ∧
      kind.isTypeConstraint = true := by
  rcases coherent.fits member with ⟨kind, ofKind, fits⟩
  have notInputs : name ≠ Slot.inputs := by
    rintro rfl
    rw [Slot.isType_inputs] at isType
    cases isType
  have notFields : name ≠ Slot.fields := by
    rintro rfl
    rw [Slot.isType_fields] at isType
    cases isType
  refine ⟨kind, ofKind, ?_⟩
  simpa [Kind.fits, notInputs, notFields, isType] using fits

theorem isLive_of_mem_items (coherent : tree.Coherent rank)
    {root item : NodeId} (creator : tree.kind root = some .blockCreator)
    (member : item ∈ tree.items root) : tree.isLive item = true :=
  (coherent.isLive_iff member).mpr (.inl creator)

theorem isLive_of_mem_chain (coherent : tree.Coherent rank)
    {owner id : NodeId} {name : String} (live : tree.isLive owner = true)
    (member : id ∈ tree.chain owner name) : tree.isLive id = true :=
  (coherent.isLive_iff member).mpr (.inr live)

/-- The members of a type constraint hang deeper than the constraint, so what
passes from the members to a constraint holds for every constraint. -/
theorem constraint_induction (coherent : tree.Coherent rank)
    (holds : NodeId → Prop)
    (step : ∀ {id kind}, tree.kind id = some kind →
      kind.isTypeConstraint = true →
        (∀ {index member}, member ∈ tree.chain id (Slot.member index) →
          holds member) → holds id)
    {id : NodeId} {kind : Kind} (ofKind : tree.kind id = some kind)
    (constraint : kind.isTypeConstraint = true) : holds id := by
  -- The rank grows from a constraint to its members, up to the size of the tree.
  induction id using (measure fun id => tree.size - rank id).wf.induction
    generalizing kind with
  | _ id id_ih =>
      apply step ofKind constraint
      intro index member inChain
      rcases coherent.exists_kind_of_mem_type (Slot.isType_member index) inChain
        with ⟨memberKind, ofMember, memberConstraint⟩
      have less := coherent.rank_lt_of_mem inChain
      have bounded := coherent.rank_le member
      have nearer : tree.size - rank member < tree.size - rank id := by omega
      exact id_ih member nearer ofMember memberConstraint

/-- A field holds no fields of its own. -/
theorem fieldsOf_eq_nil (coherent : tree.Coherent rank) {id : NodeId}
    {kind : Kind} (ofKind : tree.kind id = some kind)
    (isField : kind.isField = true) : tree.fieldsOf id = [] := by
  apply coherent.chain_eq_nil_iff.mpr
  apply coherent.slotTarget_eq_none ofKind ?_ Slot.member_ne_fields
  rw [Kind.slotNames_of_isField isField]
  exact List.not_mem_nil

/-! ## Subtrees -/

theorem descendants_eq_own (coherent : tree.Coherent rank) (id : NodeId) :
    tree.descendants id =
      tree.own id ++ (tree.nextSibling id).toList.flatMap tree.descendants := by
  rw [coherent.descendants_eq, coherent.children_eq, List.flatMap_append]
  rfl

theorem flatMap_descendants (coherent : tree.Coherent rank)
    {start : Option NodeId} {list : List NodeId}
    (follows : tree.Follows start list) :
    start.toList.flatMap tree.descendants = list.flatMap tree.own := by
  induction follows with
  | nil => rfl
  | cons next next_ih =>
      rename_i id rest
      rw [List.flatMap_cons, ← next_ih, Option.toList_some,
        List.flatMap_singleton, coherent.descendants_eq_own]

theorem own_eq (coherent : tree.Coherent rank) (id : NodeId) :
    tree.own id =
      id :: (tree.slotNames id).flatMap fun name =>
        (tree.chain id name).flatMap tree.own := by
  have heads : ∀ names : List String,
      (names.filterMap (tree.slotTarget id)).flatMap tree.descendants =
        names.flatMap fun name => (tree.chain id name).flatMap tree.own := by
    intro names
    induction names with
    | nil => rfl
    | cons name names names_ih =>
        have chain := coherent.flatMap_descendants (coherent.follows id name)
        rw [List.flatMap_cons, ← names_ih, ← chain]
        cases target : tree.slotTarget id name <;> simp [target]
  rw [own, heads]

/-- How many nodes of its own subtree are no type constraints. -/
theorem countP_own (coherent : tree.Coherent rank) (id : NodeId) :
    (tree.own id).countP tree.isShown =
      (if tree.isShown id then 1 else 0) +
        ((tree.slotNames id).map fun name =>
          ((tree.chain id name).map fun other =>
            (tree.own other).countP tree.isShown).sum).sum := by
  rw [coherent.own_eq, List.countP_cons, Nat.add_comm, List.countP_flatMap]
  congr 3
  funext name
  rw [Function.comp_apply, List.countP_flatMap]
  rfl

theorem countP_own_eq_zero (coherent : tree.Coherent rank) {id : NodeId}
    {kind : Kind} (ofKind : tree.kind id = some kind)
    (constraint : kind.isTypeConstraint = true) :
    (tree.own id).countP tree.isShown = 0 := by
  refine coherent.constraint_induction
    (fun id => (tree.own id).countP tree.isShown = 0) ?_ ofKind constraint
  intro id kind ofKind constraint members
  have hidden : tree.isShown id = false := by
    simp [isShown, ofKind, constraint]
  rw [coherent.countP_own, hidden]
  rcases coherent.slotNames_eq ofKind with ⟨count, names⟩
  have none : ∀ name ∈ tree.slotNames id,
      ((tree.chain id name).map fun other =>
        (tree.own other).countP tree.isShown).sum = 0 := by
    intro name member
    rw [names, Kind.mem_slotsWith,
      Kind.slotNames_of_isTypeConstraint constraint] at member
    rcases member with impossible | ⟨index, _, rfl⟩
    · cases impossible
    · rw [List.sum_eq_zero]
      intro count inCounts
      rcases List.mem_map.mp inCounts with ⟨other, inChain, rfl⟩
      exact members inChain
  rw [List.map_congr_left none]
  simp

/-- Type slots hold type constraints only. -/
theorem sum_countP_type (coherent : tree.Coherent rank) {id : NodeId}
    {name : String} (isType : Slot.isType name = true) :
    ((tree.chain id name).map fun other =>
      (tree.own other).countP tree.isShown).sum = 0 := by
  apply List.sum_eq_zero
  intro count inCounts
  rcases List.mem_map.mp inCounts with ⟨other, inChain, rfl⟩
  rcases coherent.exists_kind_of_mem_type isType inChain with
    ⟨kind, ofKind, constraint⟩
  exact coherent.countP_own_eq_zero ofKind constraint

/-- Member slots do not count. -/
theorem countP_own_eq (coherent : tree.Coherent rank) {id : NodeId}
    {kind : Kind} (ofKind : tree.kind id = some kind)
    (shown : kind.isTypeConstraint = false) :
    (tree.own id).countP tree.isShown =
      1 + (kind.slotNames.map fun name =>
        ((tree.chain id name).map fun other =>
          (tree.own other).countP tree.isShown).sum).sum := by
  have isShown : tree.isShown id = true := by simp [isShown, ofKind, shown]
  rcases coherent.slotNames_eq ofKind with ⟨members, names⟩
  have none : ∀ name ∈ (List.range members).map Slot.member,
      ((tree.chain id name).map fun other =>
        (tree.own other).countP tree.isShown).sum = 0 := by
    intro name member
    rcases List.mem_map.mp member with ⟨index, _, rfl⟩
    exact coherent.sum_countP_type (Slot.isType_member index)
  rw [coherent.countP_own, isShown, names, Kind.slotsWith, List.map_append,
    List.sum_append, List.map_congr_left none]
  simp [Function.comp_def]

theorem countP_own_field (coherent : tree.Coherent rank) {id : NodeId}
    {kind : Kind} (ofKind : tree.kind id = some kind)
    (isField : kind.isField = true) :
    (tree.own id).countP tree.isShown = 1 := by
  rw [coherent.countP_own_eq ofKind (Kind.isTypeConstraint_of_isField isField),
    Kind.slotNames_of_isField isField]
  rfl

/-- An item and its fields are shown. -/
theorem countP_own_item (coherent : tree.Coherent rank) {root item : NodeId}
    (member : item ∈ tree.items root) :
    (tree.own item).countP tree.isShown = 1 + (tree.fieldsOf item).length := by
  rcases coherent.exists_kind_of_mem_items member with
    ⟨kind, ofKind, isInput | isField⟩
  · have fields : ((tree.chain item Slot.fields).map fun other =>
        (tree.own other).countP tree.isShown).sum =
          (tree.fieldsOf item).length := by
      have ones : ∀ field ∈ tree.fieldsOf item,
          (tree.own field).countP tree.isShown = 1 := by
        intro field inFields
        rcases coherent.exists_kind_of_mem_fieldsOf inFields with
          ⟨fieldKind, ofField, isField⟩
        exact coherent.countP_own_field ofField isField
      change ((tree.fieldsOf item).map _).sum = _
      rw [List.map_congr_left ones]
      simp
    rw [coherent.countP_own_eq ofKind (Kind.isTypeConstraint_of_isInput isInput)]
    rcases Kind.slotNames_of_isInput isInput with names | names
    · simp [names, fields]
    · simp [names, fields, coherent.sum_countP_type Slot.isType_type]
  · rw [coherent.countP_own_field ofKind isField,
      coherent.fieldsOf_eq_nil ofKind isField]
    rfl

/-- Below a block creator its items and their fields are shown, nothing else. -/
theorem countP_descendants (coherent : tree.Coherent rank) {root : NodeId}
    (creator : tree.kind root = some .blockCreator) :
    (tree.descendants root).countP tree.isShown =
      1 + ((tree.items root).map fun item =>
        1 + (tree.fieldsOf item).length).sum := by
  have items : ∀ item ∈ tree.items root,
      (tree.own item).countP tree.isShown =
        1 + (tree.fieldsOf item).length :=
    fun item member => coherent.countP_own_item member
  rw [coherent.descendants_eq_own, coherent.creator_loose creator,
    Option.toList_none, List.flatMap_nil, List.append_nil,
    coherent.countP_own_eq creator rfl, ← List.map_congr_left items]
  change 1 + [((tree.items root).map _).sum].sum = _
  rw [List.sum_singleton]

/-- The message counts the arguments by what it takes away from the whole
subtree, and it never takes away more than there is. -/
theorem length_descendants (coherent : tree.Coherent rank) {root : NodeId}
    (creator : tree.kind root = some .blockCreator) :
    (tree.descendants root).length =
      1 + (tree.descendants root).countP (fun id =>
          (tree.kind id).any Kind.isTypeConstraint) +
        (tree.items root).countP (Definition.isElided tree) +
          (tree.argumentNodes root).length := by
  have shown := coherent.countP_descendants creator
  have arguments := length_argumentNodes tree root
  have hidden : (tree.descendants root).countP (fun id => ¬ tree.isShown id) =
      (tree.descendants root).countP fun id =>
        (tree.kind id).any Kind.isTypeConstraint := by
    apply List.countP_congr
    intro id _
    simp [isShown]
  rw [List.length_eq_countP_add_countP tree.isShown, hidden, shown]
  omega

end Coherent

end BlockTree

end BlockForge
