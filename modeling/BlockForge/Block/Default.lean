import BlockForge.Block.FieldKey
import BlockForge.Block.FieldValue
import BlockForge.Block.Kind

/-!
# Default fields

The fields that a new node of each kind carries.
-/

namespace BlockForge

/-- The picture that a new image field shows. -/
def defaultImage : String :=
  "https://www.gstatic.com/codesite/ph/images/star_on.gif"

/-- A field with a whole number. -/
def FieldValue.ofNat (number : Nat) : FieldValue :=
  .number (Decimal.nearest false ⟨number, 0⟩)

namespace Kind

/-- The fields of a new node of this kind. -/
def defaultFields : Kind → List (String × FieldValue)
  | blockCreator =>
    [(FieldKey.blockName, .text "block_type"),
      (FieldKey.blockCategory, .text "CATEGORY_MOVEMENT"),
      (FieldKey.inputLayout, .text "OPTION_AUTO"),
      (FieldKey.connections, .text "OPTION_CONNECTIONS_NONE"),
      (FieldKey.tooltip, .text ""),
      (FieldKey.help, .text ""),
      (FieldKey.description, .text "")]
  | dummyInput => [(FieldKey.align, .text "LEFT")]
  | inputValue | inputStatement =>
    [(FieldKey.inputName, .text "NAME"), (FieldKey.align, .text "LEFT")]
  | textInput =>
    [(FieldKey.fieldName, .text "NAME"), (FieldKey.text, .text "default")]
  | textLabel => [(FieldKey.fieldName, .text ""), (FieldKey.text, .text "text")]
  | numericInput =>
    [(FieldKey.fieldName, .text "NAME"),
      (FieldKey.value, .ofNat 0),
      (FieldKey.min, .number (.infinite true)),
      (FieldKey.max, .number (.infinite false)),
      (FieldKey.precision, .ofNat 0)]
  | angleInput =>
    [(FieldKey.fieldName, .text "NAME"), (FieldKey.angle, .ofNat 90)]
  | fieldDropdown => [(FieldKey.fieldName, .text "NAME")]
  | fieldCheckbox =>
    [(FieldKey.fieldName, .text "NAME"), (FieldKey.checked, .text "TRUE")]
  | fieldColour =>
    [(FieldKey.fieldName, .text "NAME"), (FieldKey.colour, .text "#ff0000")]
  | fieldVariable =>
    [(FieldKey.fieldName, .text "NAME"), (FieldKey.text, .text "item")]
  | fieldImage =>
    [(FieldKey.source, .text defaultImage),
      (FieldKey.width, .ofNat 15),
      (FieldKey.height, .ofNat 15),
      (FieldKey.alternative, .text "*"),
      (FieldKey.flipRtl, .text "FALSE")]
  | typeOther => [(FieldKey.type, .text "")]
  | _ => []

/-- The value of a field of a new node of this kind. -/
def defaultField? (kind : Kind) (key : String) : Option FieldValue :=
  kind.defaultFields.lookup key

end Kind

end BlockForge
