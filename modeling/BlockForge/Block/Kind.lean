import BlockForge.Text.Choice

/-!
# Kinds of nodes

A workspace is built from a fixed vocabulary of node kinds: the block creator,
which is the root of a block, inputs, fields and type constraints.  Each kind
has a tag, the name that block files use for it.
-/

namespace BlockForge

/-- The kinds of nodes. -/
inductive Kind where
  | blockCreator
  | dummyInput
  | inputValue
  | inputStatement
  | textInput
  | textLabel
  | numericInput
  | angleInput
  | fieldDropdown
  | fieldCheckbox
  | fieldColour
  | fieldVariable
  | fieldImage
  | typeGroup
  | typeNull
  | typeBoolean
  | typeNumber
  | typeString
  | typeList
  | typeOther
deriving DecidableEq, Repr

namespace Kind

/-- Every kind, in the order in which messages list them. -/
def all : List Kind :=
  [blockCreator, dummyInput, inputValue, inputStatement, textInput, textLabel,
    numericInput, angleInput, fieldDropdown, fieldCheckbox, fieldColour,
    fieldVariable, fieldImage, typeGroup, typeNull, typeBoolean, typeNumber,
    typeString, typeList, typeOther]

/-- The name of a kind in block files and messages. -/
def tag : Kind → String
  | blockCreator => "block_creator"
  | dummyInput => "dummy_input"
  | inputValue => "input_value"
  | inputStatement => "input_statement"
  | textInput => "text_input"
  | textLabel => "text_label"
  | numericInput => "numeric_input"
  | angleInput => "angle_input"
  | fieldDropdown => "field_dropdown"
  | fieldCheckbox => "field_checkbox"
  | fieldColour => "field_colour"
  | fieldVariable => "field_variable"
  | fieldImage => "field_image"
  | typeGroup => "type_group"
  | typeNull => "type_null"
  | typeBoolean => "type_boolean"
  | typeNumber => "type_number"
  | typeString => "type_string"
  | typeList => "type_list"
  | typeOther => "type_other"

/-- The kind that a tag names. -/
def ofTag? (name : String) : Option Kind :=
  all.find? fun kind => kind.tag = name

@[simp]
theorem ofTag?_tag (kind : Kind) : ofTag? kind.tag = some kind := by
  cases kind <;> decide

/-- What to say about a tag that names no kind. -/
def unknownTag (name : String) : String :=
  Text.unknownVariant name (all.map tag)

/-- The kinds that hold the fields of one row of the block. -/
def isInput : Kind → Bool
  | dummyInput | inputValue | inputStatement => true
  | _ => false

/-- The kinds that show something inside a row. -/
def isField : Kind → Bool
  | textInput | textLabel | numericInput | angleInput | fieldDropdown
  | fieldCheckbox | fieldColour | fieldVariable | fieldImage => true
  | _ => false

/-- The kinds that restrict what may be plugged into an input. -/
def isTypeConstraint : Kind → Bool
  | typeGroup | typeNull | typeBoolean | typeNumber | typeString | typeList
  | typeOther => true
  | _ => false

end Kind

end BlockForge
