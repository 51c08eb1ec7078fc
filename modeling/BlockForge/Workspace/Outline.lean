import BlockForge.Workspace.Basic

/-!
# Outlines of a workspace

An outline lists every node on a line of its own: the nodes that hang nowhere,
each followed by what hangs in its slots and by the rest of its chain.  What
hangs in a slot stands below a line with the name of the slot and is indented
by two steps.
-/

namespace BlockForge

/-- A line of an outline. -/
inductive OutlineLine where
  | node (depth : Nat) (id : NodeId) (content : Node)
  /-- The name of an occupied slot of the node above. -/
  | slot (depth : Nat) (name : String)
deriving DecidableEq, Repr

namespace OutlineLine

/-- The spaces before a line. -/
def padding (depth : Nat) : String :=
  String.ofList (List.replicate (2 * depth) ' ')

/-- The fields of a node on one line. -/
def fieldsText (fields : FieldTable) : String :=
  " ".intercalate (fields.entries.map fun field =>
    field.1 ++ "=" ++ field.2.display)

/-- The text of a line. -/
def text : OutlineLine → String
  | node depth id content =>
    padding depth ++ idText id ++ " " ++ content.kind.tag ++ " "
      ++ fieldsText content.fields
  | slot depth name => padding depth ++ "  [" ++ name ++ "]"

end OutlineLine

namespace Workspace

/-- The outline of the chain from an optional head, as long as the calls nest
less than `bound` deep. -/
def outlineWithin (workspace : Workspace) :
    (bound depth : Nat) → Option NodeId → Option (List OutlineLine)
  | 0, _, _ => none
  | _ + 1, _, none => some []
  | bound + 1, depth, some id =>
    match workspace.node? id with
    | none => some []
    | some node => do
      let below ← node.slots.mapM fun slot =>
        match slot.target with
        | none => some []
        | some target =>
          (workspace.outlineWithin bound (depth + 2) (some target)).map
            (OutlineLine.slot depth slot.name :: ·)
      let after ← workspace.outlineWithin bound depth node.next
      return OutlineLine.node depth id node :: (below.flatten ++ after)

/-- The outline of the chain of a node; none if its links loop. -/
def outlineOf? (workspace : Workspace) (id : NodeId) :
    Option (List OutlineLine) :=
  workspace.outlineWithin (workspace.size + 2) 0 (some id)

/-- The outline of a workspace; none if the links loop. -/
def outline? (workspace : Workspace) : Option (List OutlineLine) :=
  (workspace.topBlocks.mapM workspace.outlineOf?).map List.flatten

end Workspace

end BlockForge
