import BlockForge.Block.Default
import BlockForge.Block.FieldTable
import BlockForge.Tree

/-!
# Workspaces

A workspace holds nodes.  A node is given its place in the workspace as its id,
so ids never change.  The links of a node say where it hangs: the node that
surrounds it and its neighbours in the chain; its slots say what hangs in it.
-/

namespace BlockForge

/-- A named slot; a chain is held by its head. -/
structure Slot where
  name : String
  target : Option NodeId
deriving DecidableEq, Repr

/-- A node of a workspace. -/
structure Node where
  id : NodeId
  kind : Kind
  fields : FieldTable
  mutation : Option Mutation
  slots : List Slot
  /-- The owner of the slot in which the node or the head of its chain hangs. -/
  parent : Option NodeId
  previous : Option NodeId
  next : Option NodeId
deriving DecidableEq, Repr

namespace Node

/-- A new node of a kind: its default fields, its slots and no links. -/
def ofKind (id : NodeId) (kind : Kind) : Node where
  id := id
  kind := kind
  fields := FieldTable.empty.insertAll kind.defaultFields
  mutation := none
  slots := kind.slotNames.map fun name => ⟨name, none⟩
  parent := none
  previous := none
  next := none

/-- The slot of this name. -/
def slot? (node : Node) (name : String) : Option Slot :=
  node.slots.find? fun slot => slot.name = name

/-- What hangs directly below a node or follows it. -/
def children (node : Node) : List NodeId :=
  node.slots.filterMap Slot.target ++ node.next.toList

/-- Whether a node hangs in no slot and follows no other node. -/
def isFree (node : Node) : Bool :=
  node.parent.isNone && node.previous.isNone

end Node

/-- The nodes of a workspace, by id. -/
structure Workspace where
  nodes : Array Node
deriving DecidableEq, Repr

namespace Workspace

/-- The workspace without nodes. -/
def empty : Workspace := ⟨#[]⟩

/-- The number of nodes. -/
def size (workspace : Workspace) : Nat := workspace.nodes.size

/-- The node of an id. -/
def node? (workspace : Workspace) (id : NodeId) : Option Node :=
  workspace.nodes[id]?

/-- The kind of a node. -/
def kind? (workspace : Workspace) (id : NodeId) : Option Kind :=
  (workspace.node? id).map Node.kind

/-- What follows a node in its chain. -/
def next? (workspace : Workspace) (id : NodeId) : Option NodeId :=
  (workspace.node? id).bind Node.next

/-- The owner of the slot in which a node hangs. -/
def parent? (workspace : Workspace) (id : NodeId) : Option NodeId :=
  (workspace.node? id).bind Node.parent

/-- The ids of the nodes that hang nowhere, in the order of the workspace. -/
def topBlocks (workspace : Workspace) : List NodeId :=
  (workspace.nodes.toList.filter Node.isFree).map Node.id

theorem node?_eq_none {workspace : Workspace} {id : NodeId}
    (outside : workspace.size ≤ id) : workspace.node? id = none := by
  simpa [node?, size] using outside

/-- A workspace as generators see it. -/
def tree (workspace : Workspace) : BlockTree where
  topBlocks := workspace.topBlocks
  kind := workspace.kind?
  field := fun id key => (workspace.node? id).bind fun node => node.fields.get? key
  mutation := fun id => (workspace.node? id).bind Node.mutation
  children := fun id => ((workspace.node? id).map Node.children).getD []
  nextSibling := workspace.next?
  surroundingParent := workspace.parent?
  slotNames := fun id =>
    ((workspace.node? id).map fun node => node.slots.map Slot.name).getD []
  slotTarget := fun id name =>
    (workspace.node? id).bind fun node => (node.slot? name).bind Slot.target
  size := workspace.size
  absent := by
    intro id outside
    simp [kind?, next?, parent?, node?_eq_none outside]

end Workspace

end BlockForge
