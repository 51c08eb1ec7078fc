import BlockForge.Workspace.Basic

/-!
# Editing a workspace

A workspace grows by four edits: adding a node, setting a field, setting a
mutation and attaching a node to a slot.  An edit that cannot be done gives the
reason and leaves the workspace as it is.

`Workspace.run` performs a list of edits on the empty workspace; a workspace
that it gives is `Reachable`.
-/

namespace BlockForge

/-- Why an edit cannot be done. -/
inductive EditError where
  | unknownNode (node : NodeId)
  | unknownSlot (node : NodeId) (kind : Kind) (slot : String)
  | alreadyAttached (node : NodeId)
  | cycle (parent child : NodeId)
  | misplaced (child : NodeId) (kind : Kind) (slot : String)
  | slotFull (node : NodeId) (slot : String)
deriving DecidableEq, Repr

namespace EditError

/-- The words for a reason. -/
def message : EditError → String
  | unknownNode node => "unknown node " ++ idText node
  | unknownSlot node kind slot =>
    kind.tag ++ " node " ++ idText node ++ " has no slot named " ++ slot
  | alreadyAttached node => "node " ++ idText node ++ " is already attached"
  | cycle parent child =>
    "attaching " ++ idText child ++ " under " ++ idText parent
      ++ " would create a cycle"
  | misplaced _ kind slot =>
    if kind = .blockCreator then
      "block_creator cannot be nested in `" ++ slot ++ "`"
    else
      "`" ++ slot ++ "` holds " ++ Slot.contents slot ++ ", not " ++ kind.tag
  | slotFull node slot =>
    "`" ++ slot ++ "` of node " ++ idText node ++ " holds a single node"

end EditError

namespace Node

/-- Add the member slots below `count` that are missing. -/
def growSlots (slots : List Slot) (count : Nat) : List Slot :=
  (List.range count).foldl (fun grown index =>
    let name := Slot.member index
    if grown.any fun slot => slot.name = name then grown
    else grown ++ [⟨name, none⟩]) slots

/-- Set the mutation of a node; a group grows the slots of its members. -/
def setMutation (mutation : Mutation) (node : Node) : Node :=
  let slots :=
    match mutation with
    | .typeGroup count => growSlots node.slots count
    | .dropdown _ => node.slots
  { node with slots, mutation := some mutation }

/-- Hang the head of a chain in a slot. -/
def setTarget (name : String) (head : NodeId) (node : Node) : Node :=
  { node with
    slots := node.slots.map fun slot =>
      if slot.name = name then { slot with target := some head } else slot }

end Node

namespace Workspace

/-- Change the node of an id. -/
def modify (workspace : Workspace) (id : NodeId) (change : Node → Node) :
    Workspace :=
  ⟨workspace.nodes.modify id change⟩

/-- Add a new node of a kind; its id is the old size. -/
def addNode (workspace : Workspace) (kind : Kind) : Workspace :=
  ⟨workspace.nodes.push (Node.ofKind workspace.size kind)⟩

/-- Change a node if it exists. -/
def update (workspace : Workspace) (id : NodeId) (change : Node → Node) :
    Except EditError Workspace :=
  if id < workspace.size then .ok (workspace.modify id change)
  else .error (.unknownNode id)

/-- Set a field of a node. -/
def setField (workspace : Workspace) (id : NodeId) (key : String)
    (value : FieldValue) : Except EditError Workspace :=
  workspace.update id fun node =>
    { node with fields := node.fields.insert key value }

/-- Set the mutation of a node. -/
def setMutation (workspace : Workspace) (id : NodeId) (mutation : Mutation) :
    Except EditError Workspace :=
  workspace.update id (Node.setMutation mutation)

/-- The first nodes of a chain, from an optional head on. -/
def follow (workspace : Workspace) : Nat → Option NodeId → List NodeId
  | 0, _ => []
  | _ + 1, none => []
  | count + 1, some id => id :: workspace.follow count (workspace.next? id)

/-- The chain that starts with a node. -/
def chainFrom (workspace : Workspace) (head : NodeId) : List NodeId :=
  workspace.follow workspace.size (some head)

/-- Whether the way up from an optional node meets `ancestor`.  The way is
given up, as if it did, after more steps than any way has. -/
def climbs (workspace : Workspace) (ancestor : NodeId) :
    Nat → Option NodeId → Bool
  | _, none => false
  | 0, some _ => true
  | steps + 1, some id =>
    if id = ancestor then true
    else workspace.climbs ancestor steps (workspace.parent? id)

/-- Whether a node hangs somewhere below `ancestor`. -/
def isWithin (workspace : Workspace) (id ancestor : NodeId) : Bool :=
  workspace.climbs ancestor (workspace.size + 1) (workspace.parent? id)

/-- The first node of a chain whose kind does not fit a slot. -/
def misfit? (workspace : Workspace) (name : String) (chain : List NodeId) :
    Option (NodeId × Kind) :=
  chain.findSome? fun id =>
    (workspace.kind? id).bind fun kind =>
      if kind.fits name then none else some (id, kind)

/-- Link the chain that starts with `child` to the end of the chain in a slot
of `parent`. -/
def link (workspace : Workspace) (parent : NodeId) (name : String)
    (head : Option NodeId) (child : NodeId) : Workspace :=
  let linked :=
    match head with
    | none => workspace.modify parent (Node.setTarget name child)
    | some first =>
      let last := (workspace.chainFrom first).getLastD first
      (workspace.modify last fun node => { node with next := some child }).modify
        child fun node => { node with previous := some last }
  (workspace.chainFrom child).foldl (fun owned id =>
    owned.modify id fun node => { node with parent := some parent }) linked

/-- Attach a free node, with everything chained after it, to the end of the
chain in a slot. -/
def attach (workspace : Workspace) (parent : NodeId) (name : String)
    (child : NodeId) : Except EditError Workspace := do
  let some parentNode := workspace.node? parent
    | throw (.unknownNode parent)
  let some slot := parentNode.slot? name
    | throw (.unknownSlot parent parentNode.kind name)
  let some childNode := workspace.node? child
    | throw (.unknownNode child)
  if !childNode.isFree then throw (.alreadyAttached child)
  if child = parent ∨ workspace.isWithin parent child then
    throw (.cycle parent child)
  if let some (id, kind) := workspace.misfit? name (workspace.chainFrom child)
    then throw (.misplaced id kind name)
  if Slot.isType name ∧ (slot.target.isSome ∨ childNode.next.isSome) then
    throw (.slotFull parent name)
  return workspace.link parent name slot.target child

end Workspace

/-- A change of a workspace. -/
inductive Edit where
  | addNode (kind : Kind)
  | setField (node : NodeId) (key : String) (value : FieldValue)
  | setMutation (node : NodeId) (mutation : Mutation)
  | attach (parent : NodeId) (slot : String) (child : NodeId)
deriving DecidableEq, Repr

namespace Workspace

/-- Perform an edit, if it can be done. -/
def perform (workspace : Workspace) : Edit → Except EditError Workspace
  | .addNode kind => .ok (workspace.addNode kind)
  | .setField node key value => workspace.setField node key value
  | .setMutation node mutation => workspace.setMutation node mutation
  | .attach parent slot child => workspace.attach parent slot child

/-- The workspace after an edit: an edit that cannot be done changes nothing. -/
def after (workspace : Workspace) (edit : Edit) : Workspace :=
  match workspace.perform edit with
  | .ok edited => edited
  | .error _ => workspace

/-- The workspace after a list of edits. -/
def afterAll (workspace : Workspace) (edits : List Edit) : Workspace :=
  edits.foldl after workspace

/-- The workspace that a list of edits builds. -/
def run (edits : List Edit) : Workspace := empty.afterAll edits

/-- A workspace that edits can build. -/
def Reachable (workspace : Workspace) : Prop :=
  ∃ edits, workspace = run edits

end Workspace

end BlockForge
