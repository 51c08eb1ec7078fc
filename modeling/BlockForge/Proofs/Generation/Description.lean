import BlockForge.Proofs.Generation.Arguments
import BlockForge.Proofs.Json.Token

/-!
# What a definition says

The JSON value that the definition of a block stands for, as a function of the
tree and without any text.  `documentValue` is the value of the whole document,
`argumentValue` that of one argument and `constraintValue` that of a type
constraint; a constraint that stands for any type has no value.

`reports` lists the warnings about the readings that an argument needs.
-/

namespace BlockForge.Definition

open Json (Value)

/-! ## Readings -/

/-- The reading of a field, and the default where there is none: that of the
kind, if it has a reading. -/
def readingOf {α : Type} (reading : FieldValue → Option α) (otherwise : α)
    (tree : BlockTree) (node : NodeId) (key : String) : α :=
  let standard := (tree.kind node).bind fun kind => kind.defaultField? key
  ((tree.field node key).bind reading).getD
    ((standard.bind reading).getD otherwise)

/-- What to report about a field: that its value has no reading. -/
def unreadable {α : Type} (reading : FieldValue → Option α)
    (tree : BlockTree) (node : NodeId) (key : String) : List Warning :=
  match tree.field node key with
  | none => []
  | some value =>
    if (reading value).isSome then []
    else [⟨.invalidFieldValue node key value.display, node⟩]

/-- The number in a field. -/
def numberOf (tree : BlockTree) (node : NodeId) (key : String) : Binary64 :=
  readingOf FieldValue.asNumber Binary64.zero tree node key

/-- The number in a field, as a document says it. -/
def numberMember (tree : BlockTree) (node : NodeId) (key : String) : Value :=
  Json.numberValue (numberOf tree node key)

/-- The boolean in a field, as a document says it. -/
def boolMember (tree : BlockTree) (node : NodeId) (key : String) : Value :=
  .bool (readingOf FieldValue.asBool false tree node key)

/-- The text of a field, as a document says it. -/
def textMember (tree : BlockTree) (node : NodeId) (key : String) : Value :=
  .string (tree.text node key)

/-- The cleaned name in a field. -/
def nameMember (tree : BlockTree) (node : NodeId) (key : String) : Value :=
  .string (Text.cleanName (tree.text node key))

/-! ## Type constraints -/

/-- The value of a type constraint whose members nest less than `depth` deep. -/
def constraintWithin (tree : BlockTree) : Nat → NodeId → Option Value
  | 0, _ => none
  | depth + 1, node =>
    match tree.kind node with
    | some .typeBoolean => some (.string "Boolean")
    | some .typeNumber => some (.string "Number")
    | some .typeString => some (.string "String")
    | some .typeList => some (.string "Array")
    | some .typeOther =>
      let custom := tree.text node FieldKey.type
      if custom = "" then none else some (.string custom)
    | some .typeGroup =>
      let members := (List.range (memberCount tree node)).filterMap fun index =>
        (tree.slotTarget node (Slot.member index)).bind
          (constraintWithin tree depth)
      if members = [] then none else some (.array members)
    | _ => none

/-- The value of a type constraint; none if it stands for any type. -/
def constraintValue (tree : BlockTree) (node : NodeId) : Option Value :=
  constraintWithin tree (tree.size + 1) node

/-! ## Arguments -/

def alignMembers (tree : BlockTree) (node : NodeId) : List (String × Value) :=
  let align := tree.text node FieldKey.align
  if align = "" ∨ align = "LEFT" then [] else [("align", .string align)]

def checkMembers (tree : BlockTree) (node : NodeId) : List (String × Value) :=
  match (tree.slotTarget node Slot.type).bind (constraintValue tree) with
  | some check => [("check", check)]
  | none => []

def boundMembers (key : String) (bound : Binary64) : List (String × Value) :=
  if bound.isFinite then [(key, Json.numberValue bound)] else []

/-- An input with the name and the type constraint of its node. -/
def inputValue (jsonType : String) (tree : BlockTree) (node : NodeId) : Value :=
  .object (
    [("type", .string jsonType), ("name", nameMember tree node FieldKey.inputName)]
    ++ alignMembers tree node ++ checkMembers tree node)

/-- A field with one member of its own. -/
def namedValue (jsonType key : String) (value : Value) (tree : BlockTree)
    (node : NodeId) : Value :=
  .object
    [("type", .string jsonType), ("name", nameMember tree node FieldKey.fieldName),
      (key, value)]

def numericValue (tree : BlockTree) (node : NodeId) : Value :=
  let precision := numberOf tree node FieldKey.precision
  .object (
    [("type", .string "field_number"),
      ("name", nameMember tree node FieldKey.fieldName),
      ("value", numberMember tree node FieldKey.value)]
    ++ boundMembers "min" (numberOf tree node FieldKey.min)
    ++ boundMembers "max" (numberOf tree node FieldKey.max)
    ++ (if precision.isZero then [] else boundMembers "precision" precision))

/-- An option of a dropdown: what it shows and its value. -/
def optionValue (tree : BlockTree) (node : NodeId) (index : Nat)
    (kind : OptionKind) : Value :=
  let key := fun name => FieldKey.indexed name index
  let shown := match kind with
    | .text => textMember tree node (key FieldKey.optionText)
    | .image => .object
        [("src", textMember tree node (key FieldKey.source)),
          ("width", numberMember tree node (key FieldKey.width)),
          ("height", numberMember tree node (key FieldKey.height)),
          ("alt", textMember tree node (key FieldKey.alternative))]
  .array [shown, textMember tree node (key FieldKey.optionValue)]

def imageValue (tree : BlockTree) (node : NodeId) : Value :=
  .object
    [("type", .string "field_image"),
      ("src", textMember tree node FieldKey.source),
      ("width", numberMember tree node FieldKey.width),
      ("height", numberMember tree node FieldKey.height),
      ("alt", textMember tree node FieldKey.alternative),
      ("flipRtl", boolMember tree node FieldKey.flipRtl)]

/-- The value of an argument of a kind; other kinds are no arguments. -/
def kindValue (tree : BlockTree) (node : NodeId) : Kind → Value
  | .dummyInput =>
    .object (("type", .string "input_dummy") :: alignMembers tree node)
  | .inputValue => inputValue "input_value" tree node
  | .inputStatement => inputValue "input_statement" tree node
  | .textInput =>
    namedValue "field_input" "text" (textMember tree node FieldKey.text) tree node
  | .textLabel =>
    namedValue "field_label" "text" (textMember tree node FieldKey.text) tree node
  | .numericInput => numericValue tree node
  | .angleInput =>
    namedValue "field_angle" "angle" (numberMember tree node FieldKey.angle) tree
      node
  | .fieldDropdown =>
    namedValue "field_dropdown" "options"
      (.array ((dropdownKinds tree node).mapIdx (optionValue tree node))) tree node
  | .fieldCheckbox =>
    namedValue "field_checkbox" "checked" (boolMember tree node FieldKey.checked)
      tree node
  | .fieldColour =>
    namedValue "field_colour" "colour" (textMember tree node FieldKey.colour) tree
      node
  | .fieldVariable =>
    namedValue "field_variable" "variable" (textMember tree node FieldKey.text)
      tree node
  | .fieldImage => imageValue tree node
  | _ => .null

/-- The value of an argument. -/
def argumentValue (tree : BlockTree) (node : NodeId) : Value :=
  ((tree.kind node).map (kindValue tree node)).getD .null

/-- The values of the arguments of a block. -/
def argumentValues (tree : BlockTree) (root : NodeId) : List Value :=
  (tree.argumentNodes root).map (argumentValue tree)

/-! ## Documents -/

/-- The value of the document of a block. -/
def documentValue (tree : BlockTree) (root : NodeId) : Value :=
  let arguments := argumentValues tree root
  let layout := InputLayout.ofOption (tree.text root FieldKey.inputLayout)
  let connections := Connections.ofOption (tree.text root FieldKey.connections)
  let category := Category.ofOption? (tree.text root FieldKey.blockCategory)
  .object (
    [("type", .string (typeName tree root))]
    ++ (if arguments = [] then []
      else [("message0", .string (placeholders arguments.length)),
        ("args0", .array arguments)])
    ++ (match layout.inputsInline? with
      | some inline => [("inputsInline", .bool inline)]
      | none => [])
    ++ connections.keys.map (fun key => (key, .null))
    ++ [("colour", match category with
        | some known => .string known.colour
        | none => .number (Decimal.nearest false ⟨defaultHue, 0⟩)),
      ("tooltip", textMember tree root FieldKey.tooltip),
      ("helpUrl", textMember tree root FieldKey.help)])

/-! ## Reports -/

/-- The warnings about the readings of the option of an index. -/
def optionReports (tree : BlockTree) (node : NodeId) (index : Nat) :
    OptionKind → List Warning
  | .text => []
  | .image => [FieldKey.width, FieldKey.height].flatMap fun key =>
      unreadable FieldValue.asNumber tree node (FieldKey.indexed key index)

/-- The warnings about the readings that an argument of a kind needs. -/
def kindReports (tree : BlockTree) (node : NodeId) : Kind → List Warning
  | .numericInput =>
    [FieldKey.value, FieldKey.min, FieldKey.max, FieldKey.precision].flatMap
      (unreadable FieldValue.asNumber tree node)
  | .angleInput => unreadable FieldValue.asNumber tree node FieldKey.angle
  | .fieldCheckbox => unreadable FieldValue.asBool tree node FieldKey.checked
  | .fieldImage =>
    [FieldKey.width, FieldKey.height].flatMap
        (unreadable FieldValue.asNumber tree node)
      ++ unreadable FieldValue.asBool tree node FieldKey.flipRtl
  | .fieldDropdown =>
    ((dropdownKinds tree node).mapIdx (optionReports tree node)).flatten
  | _ => []

/-- The warnings about the readings of an argument. -/
def reports (tree : BlockTree) (node : NodeId) : List Warning :=
  ((tree.kind node).map (kindReports tree node)).getD []

/-- The warnings about a block. -/
def documentReports (tree : BlockTree) (root : NodeId) : List Warning :=
  (tree.argumentNodes root).flatMap (reports tree)
    ++ if tree.argumentNodes root = [] then [⟨.noLiveFields, root⟩] else []

end BlockForge.Definition
