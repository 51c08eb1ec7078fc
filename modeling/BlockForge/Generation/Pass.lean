import BlockForge.Tree

/-!
# Passes over a tree

Both generators walk a tree in the same way: the code of a node is followed by
the code of its next siblings, and a node out of reach of a block creator has
no code.  A `Producer` supplies what differs: the code of a node of each kind
and how the code of a node is joined with that of its siblings.

The calls of a walk nest.  A call that comes up again inside itself would come
up for ever, so a walk that nests deeper than there are different calls has no
result.
-/

namespace BlockForge

/-- A computation that carries a state and may have no result. -/
abbrev Pass (σ α : Type) := StateT σ Option α

/-- The code of a node and, unless `thisOnly`, of everything chained after
it. -/
abbrev Walk (σ : Type) := (node : NodeId) → (thisOnly : Bool) → Pass σ String

/-- What a generator adds to the walk over a tree. -/
structure Producer (σ : Type) where
  /-- The code of a node of a kind; the walk gives the code of other nodes. -/
  produce : Walk σ → NodeId → Kind → Pass σ String
  /-- The code of a node joined with that of its siblings. -/
  join : String → String → String

namespace Producer

variable {σ : Type}

/-- The walk whose calls nest less than `depth` deep. -/
def walkWithin (producer : Producer σ) (tree : BlockTree) : Nat → Walk σ
  | 0, _, _ => fun _ => none
  | depth + 1, node, thisOnly =>
    match tree.kind node with
    | none => pure ""
    | some kind =>
      if kind ≠ .blockCreator ∧ tree.isLive node = false then pure ""
      else do
        let code ← producer.produce (producer.walkWithin tree depth) node kind
        match tree.nextSibling node with
        | none => return code
        | some next =>
          if thisOnly then return code
          else
            let rest ← producer.walkWithin tree depth next false
            return producer.join code rest

/-- The walk of a producer over a tree.  There are two different calls for each
node, and one more for an id without node. -/
def walk (producer : Producer σ) (tree : BlockTree) : Walk σ :=
  producer.walkWithin tree (2 * tree.size + 1)

end Producer

/-- The code of the chain in a slot. -/
def slotCode {σ : Type} (walk : Walk σ) (tree : BlockTree) (node : NodeId)
    (name : String) : Pass σ String :=
  match tree.slotTarget node name with
  | some head => walk head false
  | none => pure ""

end BlockForge
