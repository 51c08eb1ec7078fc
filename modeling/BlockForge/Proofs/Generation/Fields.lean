import BlockForge.Proofs.Generation.Arguments
import BlockForge.Proofs.Workspace.Lookup

/-!
# Fields

The fields of a tree determine neither its nodes nor their links, so the
functions that read the links alone give the same on `withFields`: the chains,
the search for a block creator, the list of what is below a node and the
arguments of a block.

Setting fields changes a workspace in nothing else.  Two workspaces with the same
`bare` workspace give trees that differ in their fields only
(`tree_eq_withFields`), and `field_setField` says what the fields are afterwards.
-/

namespace BlockForge

/-! ## Trees -/

namespace BlockTree

/-- The tree with other fields. -/
def withFields (tree : BlockTree)
    (field : NodeId → String → Option FieldValue) : BlockTree :=
  { tree with field }

section

variable (tree : BlockTree) (field : NodeId → String → Option FieldValue)

@[simp]
theorem withFields_kind : (tree.withFields field).kind = tree.kind := rfl

@[simp]
theorem withFields_nextSibling :
    (tree.withFields field).nextSibling = tree.nextSibling := rfl

@[simp]
theorem withFields_slotTarget :
    (tree.withFields field).slotTarget = tree.slotTarget := rfl

@[simp]
theorem withFields_hasSlot :
    (tree.withFields field).hasSlot = tree.hasSlot := rfl

@[simp]
theorem withFields_chain (node : NodeId) (name : String) :
    (tree.withFields field).chain node name = tree.chain node name := by
  have follows : ∀ fuel met place,
      (tree.withFields field).chainFrom fuel met place =
        tree.chainFrom fuel met place := by
    intro fuel
    induction fuel with
    | zero => exact fun _ _ => rfl
    | succ fuel fuel_ih =>
        intro met place
        cases place with
        | none => rfl
        | some id => rw [chainFrom, chainFrom, fuel_ih, withFields_nextSibling]
  exact follows _ _ _

@[simp]
theorem withFields_isLive (node : NodeId) :
    (tree.withFields field).isLive node = tree.isLive node := by
  have climbs : ∀ count node,
      (tree.withFields field).ancestors count node =
        tree.ancestors count node := by
    intro count
    induction count with
    | zero => exact fun _ => rfl
    | succ count count_ih =>
        intro node
        simp only [ancestors, count_ih]
        rfl
  unfold isLive
  rw [climbs]
  rfl

@[simp]
theorem withFields_descendants? (node : NodeId) :
    (tree.withFields field).descendants? node = tree.descendants? node := by
  have lists : ∀ depth, (tree.withFields field).descendantsWithin depth =
      tree.descendantsWithin depth := by
    intro depth
    induction depth with
    | zero => rfl
    | succ depth depth_ih =>
        funext node
        rw [descendantsWithin, descendantsWithin, depth_ih]
        rfl
  exact congrFun (lists _) node

@[simp]
theorem withFields_descendantCount? (node : NodeId) :
    (tree.withFields field).descendantCount? node =
      tree.descendantCount? node := by
  have lists := tree.withFields_descendants? field node
  rw [descendantCount?, descendantCount?, countWithin_eq, countWithin_eq]
  exact congrArg (Option.map List.length) lists

@[simp]
theorem withFields_isElided :
    Definition.isElided (tree.withFields field) = Definition.isElided tree := rfl

theorem withFields_argumentNodes (root : NodeId) :
    (tree.withFields field).argumentNodes root = tree.argumentNodes root := by
  have each : (tree.withFields field).argumentsOf = tree.argumentsOf := by
    funext item
    rw [argumentsOf, argumentsOf, fieldsOf, fieldsOf, withFields_chain,
      withFields_isElided]
  rw [argumentNodes, argumentNodes, items, items, withFields_chain, each]

end

end BlockTree

/-! ## Workspaces -/

/-- A node without its fields. -/
def Node.bare (node : Node) : Node := { node with fields := .empty }

namespace Workspace

/-- The workspace without fields. -/
def bare (workspace : Workspace) : Workspace := ⟨workspace.nodes.map Node.bare⟩

section

variable {workspace other : Workspace}

theorem node?_bare (workspace : Workspace) (id : NodeId) :
    workspace.bare.node? id = (workspace.node? id).map Node.bare :=
  Array.getElem?_map

theorem topBlocks_bare (workspace : Workspace) :
    workspace.bare.topBlocks = workspace.topBlocks := by
  rw [topBlocks, topBlocks, bare, Array.toList_map, List.filter_map, List.map_map]
  rfl

theorem size_eq_of_bare_eq (same : other.bare = workspace.bare) :
    other.size = workspace.size := by
  have sizes := congrArg size same
  rwa [size, size, bare, bare, Array.size_map, Array.size_map] at sizes

/-- Generators see the same of a workspace and of the workspace without fields,
apart from the fields. -/
theorem tree_eq_withFields_bare (workspace : Workspace) :
    workspace.tree = workspace.bare.tree.withFields workspace.tree.field := by
  have size_eq : workspace.bare.size = workspace.size := Array.size_map
  have kind_eq : workspace.bare.kind? = workspace.kind? := by
    funext id
    rw [kind?, kind?, node?_bare, Option.map_map]
    rfl
  have next_eq : workspace.bare.next? = workspace.next? := by
    funext id
    rw [next?, next?, node?_bare, Option.bind_map]
    rfl
  have parent_eq : workspace.bare.parent? = workspace.parent? := by
    funext id
    rw [parent?, parent?, node?_bare, Option.bind_map]
    rfl
  unfold tree BlockTree.withFields
  simp only [topBlocks_bare, size_eq, kind_eq, next_eq, parent_eq, node?_bare,
    Option.map_map, Option.bind_map]
  rfl

/-- Workspaces that differ in fields only give trees that differ in fields
only. -/
theorem tree_eq_withFields (same : other.bare = workspace.bare) :
    other.tree = workspace.tree.withFields other.tree.field := by
  rw [tree_eq_withFields_bare other, same, tree_eq_withFields_bare workspace]
  rfl

theorem bare_modify {id : NodeId} {change : Node → Node}
    (keeps : ∀ node, (change node).bare = node.bare) :
    (workspace.modify id change).bare = workspace.bare := by
  apply congrArg Workspace.mk
  apply Array.ext_getElem?
  intro index
  rw [modify, Array.getElem?_map, Array.getElem?_map, Array.getElem?_modify]
  split_ifs
  · rw [Option.map_map]
    exact congrArg (Option.map · _) (funext keeps)
  · rfl

theorem bare_setField (workspace : Workspace) (id : NodeId) (key : String)
    (value : FieldValue) :
    (workspace.after (.setField id key value)).bare = workspace.bare := by
  unfold after
  cases performed : workspace.perform (.setField id key value) with
  | error _ => rfl
  | ok edited =>
      rw [update_eq_ok performed]
      exact bare_modify fun _ => rfl

theorem field_setField {id : NodeId} (inside : id < workspace.size)
    (key : String) (value : FieldValue) (node : NodeId) (other : String) :
    (workspace.after (.setField id key value)).tree.field node other =
      if (node, other) = (id, key) then some value
      else workspace.tree.field node other := by
  rcases exists_node? inside with ⟨changed, found⟩
  have succeeds : workspace.perform (.setField id key value) = .ok _ :=
    if_pos inside
  rw [after, succeeds]
  simp only [tree, node?_modify, Prod.mk.injEq]
  by_cases same : node = id
  · subst same
    by_cases sameKey : other = key <;> simp [found, sameKey]
  · simp [same]

end

end Workspace

end BlockForge
