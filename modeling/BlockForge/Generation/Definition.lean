import BlockForge.Block.Default
import BlockForge.Block.Message
import BlockForge.Block.Option
import BlockForge.Generation.Pass
import BlockForge.Generation.Problem
import BlockForge.Json.Text
import BlockForge.Text.Name

/-!
# The definition of a block

The definition is a JSON document.  Every kind of node has a fragment of it:
one object for an input or a field, one text or array for a type constraint.
The fragment of the block creator is the whole document, put together from the
fragments of its inputs; in `args0` the fields of an input come before the
input itself.

Reading a field can find a value without a reading.  The default is used then,
and the state of the pass collects the warnings.
-/

namespace BlockForge

namespace Definition

/-- A pass that collects warnings. -/
abbrev Reporting := Pass (List Warning)

/-- Report a problem of a node, once. -/
def warn (problem : Problem) (node : NodeId) : Reporting Unit :=
  modify fun warnings => Warning.addTo warnings ⟨problem, node⟩

/-- Read a field.  A missing field has the default of its kind without a word,
a value without reading has it with a warning. -/
def read {α : Type} (reading : FieldValue → Option α) (otherwise : α)
    (tree : BlockTree) (node : NodeId) (key : String) : Reporting α := do
  let standard := (tree.kind node).bind fun kind => kind.defaultField? key
  let fallback := (standard.bind reading).getD otherwise
  match tree.field node key with
  | none => return fallback
  | some value =>
    match reading value with
    | some result => return result
    | none =>
      warn (.invalidFieldValue node key value.display) node
      return fallback

/-- Read a field as a number. -/
def readNumber (tree : BlockTree) (node : NodeId) (key : String) :
    Reporting Binary64 :=
  read FieldValue.asNumber Binary64.zero tree node key

/-- Read a field as a boolean. -/
def readBool (tree : BlockTree) (node : NodeId) (key : String) :
    Reporting Bool :=
  read FieldValue.asBool false tree node key

/-- The text of a numeric field in the document. -/
def numberField (tree : BlockTree) (node : NodeId) (key : String) :
    Reporting String :=
  return Json.numberText (← readNumber tree node key)

/-- The text of a boolean field in the document. -/
def boolField (tree : BlockTree) (node : NodeId) (key : String) :
    Reporting String :=
  return Json.boolText (← readBool tree node key)

/-- The string literal of a field. -/
def quotedField (tree : BlockTree) (node : NodeId) (key : String) : String :=
  Json.quote (tree.text node key)

/-- The string literal of the cleaned name in a field. -/
def nameField (tree : BlockTree) (node : NodeId) (key : String) : String :=
  Json.quote (Text.cleanName (tree.text node key))

/-- The entry for an alignment, left out for the usual one. -/
def alignEntries (tree : BlockTree) (node : NodeId) : List (String × String) :=
  let align := tree.text node FieldKey.align
  if align = "" ∨ align = "LEFT" then [] else [("align", Json.quote align)]

/-- The fragment of an input without value. -/
def dummyInput (tree : BlockTree) (node : NodeId) : String :=
  Json.object (("type", Json.quote "input_dummy") :: alignEntries tree node)

/-- The fragment of the type constraint of an input; the empty text stands for
any type. -/
def typeCheck (walk : Walk (List Warning)) (tree : BlockTree) (node : NodeId) :
    Reporting String := do
  if tree.hasSlot node Slot.type then
    match tree.slotTarget node Slot.type with
    | some target => walk target true
    | none => return ""
  else
    warn (.missingRequiredSlot node Slot.type) node
    return ""

/-- The fragment of an input for a value or for statements. -/
def input (jsonType : String) (walk : Walk (List Warning)) (tree : BlockTree)
    (node : NodeId) : Reporting String := do
  let check ← typeCheck walk tree node
  return Json.object (
    [("type", Json.quote jsonType),
      ("name", nameField tree node FieldKey.inputName)]
    ++ alignEntries tree node
    ++ (if check = "" then [] else [("check", check)]))

/-- The fragment of a field with a single further entry of its own. -/
def namedField (jsonType key value : String) (tree : BlockTree)
    (node : NodeId) : String :=
  Json.object
    [("type", Json.quote jsonType),
      ("name", nameField tree node FieldKey.fieldName),
      (key, value)]

/-- The entry for a bound, left out if there is none. -/
def boundEntries (key : String) (bound : Binary64) : List (String × String) :=
  if bound.isFinite then [(key, Json.numberText bound)] else []

/-- The fragment of a numeric field. -/
def numericInput (tree : BlockTree) (node : NodeId) : Reporting String := do
  let value ← numberField tree node FieldKey.value
  let min ← readNumber tree node FieldKey.min
  let max ← readNumber tree node FieldKey.max
  let precision ← readNumber tree node FieldKey.precision
  return Json.object (
    [("type", Json.quote "field_number"),
      ("name", nameField tree node FieldKey.fieldName),
      ("value", value)]
    ++ boundEntries "min" min
    ++ boundEntries "max" max
    ++ (if precision.isZero then [] else boundEntries "precision" precision))

/-- The fragment of an option of a dropdown: what it shows and its value. -/
def dropdownOption (tree : BlockTree) (node : NodeId) (index : Nat)
    (kind : OptionKind) : Reporting String := do
  let key := fun name => FieldKey.indexed name index
  let shown ← match kind with
    | .text => pure (quotedField tree node (key FieldKey.optionText))
    | .image => do
      let width ← numberField tree node (key FieldKey.width)
      let height ← numberField tree node (key FieldKey.height)
      pure (Json.object
        [("src", quotedField tree node (key FieldKey.source)),
          ("width", width),
          ("height", height),
          ("alt", quotedField tree node (key FieldKey.alternative))])
  return Json.array [shown, quotedField tree node (key FieldKey.optionValue)]

/-- The options of a dropdown. -/
def dropdownKinds (tree : BlockTree) (node : NodeId) : List OptionKind :=
  match tree.mutation node with
  | some (.dropdown kinds) => kinds
  | _ => []

/-- The fragments of options, from an index on. -/
def dropdownOptions (tree : BlockTree) (node : NodeId) :
    Nat → List OptionKind → Reporting (List String)
  | _, [] => return []
  | index, kind :: rest => do
    let first ← dropdownOption tree node index kind
    return first :: (← dropdownOptions tree node (index + 1) rest)

/-- The fragment of a dropdown. -/
def fieldDropdown (tree : BlockTree) (node : NodeId) : Reporting String := do
  let options ← dropdownOptions tree node 0 (dropdownKinds tree node)
  return namedField "field_dropdown" "options" (Json.array options) tree node

/-- The fragment of a picture. -/
def fieldImage (tree : BlockTree) (node : NodeId) : Reporting String := do
  let width ← numberField tree node FieldKey.width
  let height ← numberField tree node FieldKey.height
  let flip ← boolField tree node FieldKey.flipRtl
  return Json.object
    [("type", Json.quote "field_image"),
      ("src", quotedField tree node FieldKey.source),
      ("width", width),
      ("height", height),
      ("alt", quotedField tree node FieldKey.alternative),
      ("flipRtl", flip)]

/-- The number of members of a type group: what its mutation says, and without
one the number of member slots that follow one another from the first. -/
def memberCount (tree : BlockTree) (node : NodeId) : Nat :=
  match tree.mutation node with
  | some (.typeGroup count) => count
  | _ =>
    ((List.range (tree.slotNames node).length).takeWhile fun index =>
      tree.hasSlot node (Slot.member index)).length

/-- The fragment of the member of an index of a type group. -/
def memberCode (walk : Walk (List Warning)) (tree : BlockTree) (node : NodeId)
    (index : Nat) : Reporting String :=
  match tree.slotTarget node (Slot.member index) with
  | some target => walk target true
  | none => return ""

/-- The texts that are not empty. -/
def nonempty (texts : List String) : List String :=
  texts.filter fun text => text ≠ ""

/-- The fragment of a type group: the fragments of its members on one line. -/
def typeGroup (walk : Walk (List Warning)) (tree : BlockTree) (node : NodeId) :
    Reporting String := do
  let codes ← (List.range (memberCount tree node)).mapM
    (memberCode walk tree node)
  let types := nonempty codes
  return if types.isEmpty then "" else Json.inlineArray types

/-- The fragment of a type that the author names. -/
def typeOther (tree : BlockTree) (node : NodeId) : String :=
  let custom := tree.text node FieldKey.type
  if custom = "" then "" else Json.quote custom

/-- Whether an item of a block is an input without value that ends the chain:
the document leaves such an input out. -/
def isElided (tree : BlockTree) (item : NodeId) : Bool :=
  tree.kind item = some .dummyInput && (tree.nextSibling item).isNone

/-- The fragments of an item of a block: its fields, then the item. -/
def itemCodes (walk : Walk (List Warning)) (tree : BlockTree) (item : NodeId) :
    Reporting (List String) := do
  let fields ← slotCode walk tree item Slot.fields
  let own ← if isElided tree item then pure "" else walk item true
  return nonempty [fields, own]

/-- The name that the document gives to a block. -/
def typeName (tree : BlockTree) (node : NodeId) : String :=
  Text.lowerName (tree.text node FieldKey.blockName)

/-- The document of a block.  Its message has a placeholder for every node
below the block creator that is neither a type constraint nor left out. -/
def blockCreator (walk : Walk (List Warning)) (tree : BlockTree)
    (node : NodeId) : Reporting String := do
  let items := tree.chain node Slot.inputs
  let args := (← items.mapM (itemCodes walk tree)).flatten
  let below ← liftM (tree.descendants? node)
  let constraints := below.countP fun id =>
    (tree.kind id).any Kind.isTypeConstraint
  let elided := items.countP (isElided tree)
  let count ← liftM (tree.descendantCount? node)
  let argCount := count - (1 + constraints + elided)
  if argCount = 0 then warn .noLiveFields node
  let layout := InputLayout.ofOption (tree.text node FieldKey.inputLayout)
  let connections := Connections.ofOption (tree.text node FieldKey.connections)
  let category := Category.ofOption? (tree.text node FieldKey.blockCategory)
  return Json.object (
    [("type", Json.quote (typeName tree node))]
    ++ (if argCount = 0 then []
      else [("message0", Json.quote (placeholders argCount))])
    ++ (if args.isEmpty then [] else [("args0", Json.array args)])
    ++ (match layout.inputsInline? with
      | some inline => [("inputsInline", Json.boolText inline)]
      | none => [])
    ++ connections.keys.map (fun key => (key, "null"))
    ++ [("colour", match category with
        | some known => Json.quote known.colour
        | none => toString defaultHue),
      ("tooltip", quotedField tree node FieldKey.tooltip),
      ("helpUrl", quotedField tree node FieldKey.help)])

/-- The fragment of a node of each kind. -/
def produce (tree : BlockTree) (walk : Walk (List Warning)) (node : NodeId) :
    Kind → Reporting String
  | .blockCreator => blockCreator walk tree node
  | .dummyInput => return dummyInput tree node
  | .inputValue => input "input_value" walk tree node
  | .inputStatement => input "input_statement" walk tree node
  | .textInput =>
    return namedField "field_input" "text"
      (quotedField tree node FieldKey.text) tree node
  | .textLabel =>
    return namedField "field_label" "text"
      (quotedField tree node FieldKey.text) tree node
  | .numericInput => numericInput tree node
  | .angleInput => do
    let angle ← numberField tree node FieldKey.angle
    return namedField "field_angle" "angle" angle tree node
  | .fieldDropdown => fieldDropdown tree node
  | .fieldCheckbox => do
    let checked ← boolField tree node FieldKey.checked
    return namedField "field_checkbox" "checked" checked tree node
  | .fieldColour =>
    return namedField "field_colour" "colour"
      (quotedField tree node FieldKey.colour) tree node
  | .fieldVariable =>
    return namedField "field_variable" "variable"
      (quotedField tree node FieldKey.text) tree node
  | .fieldImage => fieldImage tree node
  | .typeGroup => typeGroup walk tree node
  | .typeNull => return ""
  | .typeBoolean => return Json.quote "Boolean"
  | .typeNumber => return Json.quote "Number"
  | .typeString => return Json.quote "String"
  | .typeList => return Json.quote "Array"
  | .typeOther => return typeOther tree node

/-- Fragments of siblings are joined by commas; nothing is joined to nothing. -/
def join (code rest : String) : String :=
  if rest = "" then code else code ++ ",\n" ++ rest

/-- The generator of definitions. -/
def producer (tree : BlockTree) : Producer (List Warning) where
  produce := produce tree
  join := join

/-- The walk of the generator of definitions. -/
def walk (tree : BlockTree) : Walk (List Warning) :=
  (producer tree).walk tree

/-- The fragment of a node, and of its siblings unless `thisOnly`. -/
def code? (tree : BlockTree) (node : NodeId) (thisOnly : Bool) :
    Option String :=
  (walk tree node thisOnly).run' []

/-- The fragments of the chain in a slot. -/
def slotCode? (tree : BlockTree) (node : NodeId) (name : String) :
    Option String :=
  (slotCode (walk tree) tree node name).run' []

end Definition

/-- The definition of a block. -/
structure Definition where
  document : String
  blockType : String
deriving DecidableEq, Repr

/-- Generate the definition of the block of a node, with the warnings; none if
the walk over the tree has no end. -/
def Definition.generate? (tree : BlockTree) (root : NodeId) :
    Option (Definition × List Warning) :=
  ((Definition.walk tree root true).run []).map fun (document, warnings) =>
    let blockType :=
      if tree.kind root = some .blockCreator then Definition.typeName tree root
      else ""
    (⟨document, blockType⟩, warnings)

end BlockForge
