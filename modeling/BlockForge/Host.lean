import BlockForge.Block.Default
import BlockForge.Tree

/-!
# Trees of a host

A host program can hand over its own tree, link by link.  Nothing makes the
links agree: chains may loop, links may lead to no node, and the parent of a
node may not be the one in whose slot it hangs.
-/

namespace BlockForge

/-- A node as a host describes it. -/
structure HostNode where
  /-- The kind of the node; a node without kind counts as missing. -/
  kind : Option Kind
  fields : List (String × FieldValue)
  /-- Whether fields that are not given have the default of the kind. -/
  defaults : Bool
  mutation : Option Mutation
  slots : List (String × Option NodeId)
  next : Option NodeId
  parent : Option NodeId
  /-- The children, if the host lists them; the slots and the next sibling say
  them otherwise. -/
  children : Option (List NodeId)
deriving DecidableEq, Repr

namespace HostNode

/-- The value of a field. -/
def field? (node : HostNode) (key : String) : Option FieldValue :=
  match node.fields.lookup key with
  | some value => some value
  | none =>
    if node.defaults then node.kind.bind fun kind => kind.defaultField? key
    else none

/-- The children of a node. -/
def childList (node : HostNode) : List NodeId :=
  node.children.getD (node.slots.filterMap Prod.snd ++ node.next.toList)

end HostNode

/-- The nodes of a host, by id, and what the host lists as top blocks. -/
structure HostTree where
  top : List NodeId
  nodes : Array HostNode
deriving DecidableEq, Repr

/-- A host's tree as generators see it. -/
def HostTree.tree (host : HostTree) : BlockTree where
  topBlocks := host.top
  kind := fun id => host.nodes[id]?.bind HostNode.kind
  field := fun id key => host.nodes[id]?.bind fun node => node.field? key
  mutation := fun id => host.nodes[id]?.bind HostNode.mutation
  children := fun id => (host.nodes[id]?.map HostNode.childList).getD []
  nextSibling := fun id => host.nodes[id]?.bind HostNode.next
  surroundingParent := fun id => host.nodes[id]?.bind HostNode.parent
  slotNames := fun id =>
    (host.nodes[id]?.map fun node => node.slots.map Prod.fst).getD []
  slotTarget := fun id name =>
    host.nodes[id]?.bind fun node => (node.slots.lookup name).join
  size := host.nodes.size
  absent := by
    intro id outside
    have missing : host.nodes[id]? = none := by simpa using outside
    simp [missing]

end BlockForge
