import BlockForge.BlockFile.Blueprint
import BlockForge.Workspace.Edit

/-!
# Loading a block file

A block file is loaded by performing the edits that its blueprints call for:
each node is added, its fields and its mutation are set, and what hangs in its
slots is loaded and attached, slot by slot in the order of the names.

An edit that cannot be done is an error of the file.  Loading goes on after an
error, so that all errors are found; a file with errors has no workspace.
-/

namespace BlockForge

/-- What is wrong with a block file. -/
inductive LoadProblem where
  /-- The text is no document at all. -/
  | noDocument
  /-- A value of the document does not have the shape that is wanted. -/
  | shape (problem : Toml.ShapeProblem)
  /-- Options are given for a node that is no dropdown. -/
  | strayOptions (kind : Kind)
  /-- A number of members is given for a node that is no type group. -/
  | strayTypeCount (kind : Kind)
  /-- A node of this kind has no slot of this name, only those of the list. -/
  | unknownSlot (slot : String) (kind : Kind) (slots : List String)
  /-- A slot for a single type constraint is given several. -/
  | slotFull (slot : String) (kind : Kind)
  /-- An edit cannot be done for another reason. -/
  | edit (error : EditError)
deriving DecidableEq, Repr

namespace LoadProblem

/-- The words for a problem. -/
def message : LoadProblem → String
  | noDocument => "not a TOML document"
  | shape problem => problem.message
  | strayOptions kind =>
    "`options` is only valid on field_dropdown, not " ++ kind.tag
  | strayTypeCount kind =>
    "`type_count` is only valid on type_group, not " ++ kind.tag
  | unknownSlot slot kind _ =>
    "unknown slot " ++ Text.ticked slot ++ " on " ++ kind.tag
  | slotFull slot kind =>
    Text.ticked slot ++ " of " ++ kind.tag ++ " holds a single type constraint"
  | edit error => error.message

/-- Remarks that help with a problem. -/
def notes : LoadProblem → List String
  | unknownSlot _ kind [] => [kind.tag ++ " nodes have no slots"]
  | unknownSlot _ kind slots =>
    [kind.tag ++ " nodes have: " ++ ", ".intercalate slots]
  | slotFull .. => ["combine several constraints with a type_group"]
  | _ => []

end LoadProblem

/-- A problem and what part of the file it concerns. -/
structure LoadError where
  problem : LoadProblem
  span : Span
deriving DecidableEq, Repr

/-- The words for an error. -/
def LoadError.message (error : LoadError) : String := error.problem.message

namespace Blueprint

/-- What the option of an index shows, if there are fields for it: a picture if
there is a source of one. -/
def optionAt? (fields : FieldTable) (index : Nat) : Option OptionKind :=
  let has := fun key => (fields.get? (FieldKey.indexed key index)).isSome
  if has FieldKey.source then some .image
  else if has FieldKey.optionValue ∨ has FieldKey.optionText then some .text
  else none

/-- The options that the fields of a dropdown imply: one for every index up to
the first one without fields.  There are no more of them than fields. -/
def impliedOptions (fields : FieldTable) : List OptionKind :=
  let options := (List.range fields.entries.length).map (optionAt? fields)
  (options.takeWhile Option.isSome).filterMap id

/-- Read a decimal number of 64 bits; a plus sign may stand before it. -/
def readIndex? (chars : List Char) : Option Nat :=
  let digits :=
    match chars with
    | '+' :: rest => rest
    | rest => rest
  if digits = [] ∨ ¬ digits.all Char.isDigit then none
  else
    let index := digitsValue digits
    if index < UInt64.size then some index else none

/-- The number of members that the name of a slot of a type group implies.  The
largest index has no successor of 64 bits; that is left aside here, as no memory
holds a node with so many slots. -/
def impliedCount (name : String) : Nat :=
  match (Slot.afterType? name).bind readIndex? with
  | some index => index + 1
  | none => 0

/-- The number of members of a type group: enough for the given number and for
every slot that is used. -/
def memberCount (blueprint : Blueprint) : Nat :=
  (blueprint.slots.map fun slot => impliedCount slot.1).foldl max
    (blueprint.typeCount.getD 0)

/-- The mutation of a node. -/
def mutation? (blueprint : Blueprint) : Option Mutation :=
  match blueprint.kind with
  | .fieldDropdown =>
    some (.dropdown (blueprint.options.getD (impliedOptions blueprint.fields)))
  | .typeGroup => some (.typeGroup blueprint.memberCount)
  | _ => none

/-- The slots that a remark about an unknown slot lists. -/
def listedSlots (blueprint : Blueprint) : List String :=
  let members :=
    if blueprint.kind = .typeGroup then
      (List.range (blueprint.typeCount.getD 0)).map Slot.member
    else []
  blueprint.kind.slotNames ++ members

/-- Settings of a node that its kind does not have. -/
def strays (blueprint : Blueprint) : List LoadProblem :=
  (if blueprint.options.isSome ∧ blueprint.kind ≠ .fieldDropdown then
    [.strayOptions blueprint.kind] else [])
  ++ (if blueprint.typeCount.isSome ∧ blueprint.kind ≠ .typeGroup then
    [.strayTypeCount blueprint.kind] else [])

/-- What an edit that hangs a node into `slot` failing with `error` says about
the file. -/
def attachProblem (blueprint : Blueprint) (slot : String) :
    EditError → LoadProblem
  | .unknownSlot .. =>
    .unknownSlot slot blueprint.kind blueprint.listedSlots
  | .slotFull .. => .slotFull slot blueprint.kind
  | error => .edit error

end Blueprint

/-- A workspace that is being loaded, and the errors found so far. -/
structure Loading where
  workspace : Workspace
  errors : List LoadError
deriving DecidableEq, Repr

namespace Loading

/-- Nothing loaded yet. -/
def start : Loading := ⟨Workspace.empty, []⟩

/-- Note an error. -/
def report (loading : Loading) (span : Span) (problem : LoadProblem) :
    Loading :=
  { loading with errors := loading.errors ++ [⟨problem, span⟩] }

/-- Perform an edit, or note why it cannot be done. -/
def perform (loading : Loading) (span : Span)
    (problem : EditError → LoadProblem) (edit : Edit) : Loading :=
  match loading.workspace.perform edit with
  | .ok workspace => { loading with workspace }
  | .error error => loading.report span (problem error)

/-- Add a node with its fields and its mutation, apart from its slots. -/
def addNode (loading : Loading) (blueprint : Blueprint) : Loading :=
  let id := loading.workspace.size
  let span := blueprint.kindSpan
  let added := loading.perform span .edit (.addNode blueprint.kind)
  let filled := blueprint.fields.entries.foldl (fun loading field =>
    loading.perform span .edit (.setField id field.1 field.2)) added
  let checked := blueprint.strays.foldl (fun loading problem =>
    loading.report span problem) filled
  match blueprint.mutation? with
  | some mutation => checked.perform span .edit (.setMutation id mutation)
  | none => checked

mutual

/-- Load a node with everything that hangs in its slots; its id is the size of
the workspace before. -/
def load (loading : Loading) : Blueprint → Loading
  | ⟨kind, kindSpan, fields, slots, options, typeCount⟩ =>
    let blueprint : Blueprint := ⟨kind, kindSpan, fields, slots, options, typeCount⟩
    loadSlots blueprint loading.workspace.size (loading.addNode blueprint) slots

/-- Load what hangs in the slots of a node. -/
def loadSlots (owner : Blueprint) (id : NodeId) (loading : Loading) :
    List (String × List Blueprint) → Loading
  | [] => loading
  | (name, chain) :: rest =>
    loadSlots owner id (loadChain owner id name loading chain) rest

/-- Load the nodes of a slot and attach them one after the other. -/
def loadChain (owner : Blueprint) (id : NodeId) (name : String)
    (loading : Loading) : List Blueprint → Loading
  | [] => loading
  | blueprint :: rest =>
    let child := loading.workspace.size
    let attached := (load loading blueprint).perform blueprint.kindSpan
      (owner.attachProblem name) (.attach id name child)
    loadChain owner id name attached rest

end

/-- Load the nodes that hang nowhere. -/
def loadAll (blueprints : List Blueprint) : Loading :=
  blueprints.foldl load start

/-- The workspace, if no error was found. -/
def result (loading : Loading) : Except (List LoadError) Workspace :=
  if loading.errors.isEmpty then .ok loading.workspace
  else .error loading.errors

end Loading

namespace BlockFile

/-- The workspace that a list of blueprints describes, or all errors. -/
def build (blueprints : List Blueprint) : Except (List LoadError) Workspace :=
  (Loading.loadAll blueprints).result

/-- Load the workspace that the text of a block file describes. -/
def load (source : String) : Except (List LoadError) Workspace :=
  match Toml.readDocument? source with
  | none => .error [⟨.noDocument, ⟨0, 0⟩⟩]
  | some entries =>
    match Blueprint.ofDocument entries with
    | .error ⟨problem, span⟩ => .error [⟨.shape problem, span.getD ⟨0, 0⟩⟩]
    | .ok blueprints => build blueprints

end BlockFile

end BlockForge
