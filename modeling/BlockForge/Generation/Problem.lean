import BlockForge.Text.Quoted
import BlockForge.Tree

/-!
# Problems

What can be wrong with a workspace from which a block is generated.  Only a
workspace without block creator has no result; every other problem is resolved
by a default and reported as a warning about a node.
-/

namespace BlockForge

/-- What is wrong with a workspace. -/
inductive Problem where
  /-- There is no block creator. -/
  | noRoot
  /-- There are several block creators; the first one is used. -/
  | multipleRoots (count : Nat)
  /-- The block has nothing to show in its message. -/
  | noLiveFields
  /-- A node lacks a slot that its kind always has; it counts as empty. -/
  | missingRequiredSlot (node : NodeId) (slot : String)
  /-- The value of a field has no reading; the default is used. -/
  | invalidFieldValue (node : NodeId) (key value : String)
deriving DecidableEq, Repr

namespace Problem

/-- The words for a problem. -/
def message : Problem → String
  | noRoot => "no block_creator in the workspace"
  | multipleRoots count =>
    toString count
      ++ " block_creator nodes in the workspace; only the first is generated"
  | noLiveFields => "the block has no fields or inputs"
  | missingRequiredSlot node slot =>
    "node " ++ idText node ++ " has no " ++ slot ++ " slot"
  | invalidFieldValue node key value =>
    "invalid value " ++ Text.quoted value ++ " for " ++ key ++ " on node "
      ++ idText node

end Problem

/-- A problem that was resolved by a default, and the node it concerns. -/
structure Warning where
  problem : Problem
  node : NodeId
deriving DecidableEq, Repr

namespace Warning

/-- Where a warning arose, in words. -/
def note (warning : Warning) : String := "at node " ++ idText warning.node

/-- Add a warning to a list, unless its problem is already there. -/
def addTo (warnings : List Warning) (warning : Warning) : List Warning :=
  if warnings.any fun earlier => earlier.problem = warning.problem then warnings
  else warnings ++ [warning]

/-- Put the warnings of a pass behind those of an earlier one, without those that
are already there. -/
def merge (earlier warnings : List Warning) : List Warning :=
  warnings.foldl (fun known warning =>
    if warning ∈ known then known else known ++ [warning]) earlier

end Warning

end BlockForge
