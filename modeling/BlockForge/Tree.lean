import BlockForge.Block.FieldValue
import BlockForge.Block.Mutation
import BlockForge.Block.Slot

/-!
# Trees of nodes

A `BlockTree` is what a generator can see of a workspace: the kind, the fields,
the slots and the links of each node.  The owner of a tree may hand over links
that are broken, so nothing says that they agree with one another; only the
number of nodes is bounded.

`chain` and `isLive` end on every tree.  `descendants?` and `descendantCount?`
follow the children downwards and have no answer where the children loop.
-/

namespace BlockForge

/-- The id of a node: its place in the workspace. -/
abbrev NodeId := Nat

/-- The text of a node id in messages. -/
def idText (node : NodeId) : String := "#" ++ toString node

/-- A read-only view of a workspace. -/
structure BlockTree where
  /-- The nodes that hang nowhere, in the order of the workspace. -/
  topBlocks : List NodeId
  /-- The kind of a node; none if there is no such node. -/
  kind : NodeId → Option Kind
  field : NodeId → String → Option FieldValue
  mutation : NodeId → Option Mutation
  /-- The heads of the occupied slots in slot order, then the next sibling. -/
  children : NodeId → List NodeId
  nextSibling : NodeId → Option NodeId
  /-- The node in whose slot a node hangs, alone or in a chain. -/
  surroundingParent : NodeId → Option NodeId
  /-- The names of the slots of a node, occupied or not. -/
  slotNames : NodeId → List String
  /-- The head of the chain in a slot. -/
  slotTarget : NodeId → String → Option NodeId
  /-- A bound on the ids of the nodes. -/
  size : Nat
  /-- An id beyond the bound belongs to no node. -/
  absent : ∀ node, size ≤ node →
    kind node = none ∧ children node = [] ∧ nextSibling node = none ∧
      surroundingParent node = none

namespace BlockTree

/-- Whether a node has a slot of this name. -/
def hasSlot (tree : BlockTree) (node : NodeId) (name : String) : Bool :=
  name ∈ tree.slotNames node

/-- The text of a field; a missing field has the empty text. -/
def text (tree : BlockTree) (node : NodeId) (key : String) : String :=
  match tree.field node key with
  | some value => value.display
  | none => ""

/-- The chain from an optional head, without the ids already met: it ends
before the first id that comes up again. -/
def chainFrom (tree : BlockTree) :
    Nat → List NodeId → Option NodeId → List NodeId
  | 0, _, _ => []
  | _ + 1, _, none => []
  | fuel + 1, met, some node =>
    if node ∈ met then []
    else node :: tree.chainFrom fuel (node :: met) (tree.nextSibling node)

/-- The chain in a slot, head first, cut before the first repetition.  Every id
in it but the last one belongs to a node. -/
def chain (tree : BlockTree) (node : NodeId) (name : String) : List NodeId :=
  tree.chainFrom (tree.size + 1) [] (tree.slotTarget node name)

/-- The first `count` surrounding parents of a node, from the inside out. -/
def ancestors (tree : BlockTree) : Nat → NodeId → List NodeId
  | 0, _ => []
  | count + 1, node =>
    match tree.surroundingParent node with
    | none => []
    | some parent => parent :: tree.ancestors count parent

/-- Whether a node is surrounded, at any depth, by a block creator.  A block
creator that surrounds a node is met before any id can come up twice, so as
many parents as there are nodes are enough. -/
def isLive (tree : BlockTree) (node : NodeId) : Bool :=
  (tree.ancestors tree.size node).any fun parent =>
    tree.kind parent = some .blockCreator

/-- The nodes of a subtree whose depth is below a bound. -/
def descendantsWithin (tree : BlockTree) : Nat → NodeId → Option (List NodeId)
  | 0, _ => none
  | depth + 1, node => do
    let below ← (tree.children node).mapM (tree.descendantsWithin depth)
    return node :: below.flatten

/-- The nodes of the subtree of a node in preorder, itself first; none if the
children loop below it. -/
def descendants? (tree : BlockTree) (node : NodeId) : Option (List NodeId) :=
  tree.descendantsWithin (tree.size + 1) node

/-- The number of nodes of a subtree whose depth is below a bound. -/
def countWithin (tree : BlockTree) : Nat → NodeId → Option Nat
  | 0, _ => none
  | depth + 1, node => do
    let below ← (tree.children node).mapM (tree.countWithin depth)
    return 1 + below.foldr (· + ·) 0

/-- The number of nodes of the subtree of a node, with everything chained after
it; none if the children loop below it. -/
def descendantCount? (tree : BlockTree) (node : NodeId) : Option Nat :=
  tree.countWithin (tree.size + 1) node

end BlockTree

end BlockForge
