import BlockForge.Block.FieldKey
import BlockForge.Block.Option
import BlockForge.Generation.Pass
import BlockForge.Generation.Problem
import BlockForge.Text.Name

/-!
# The glue code of a block

The glue connects a block with the program that runs it.  Its *declaration*
registers a wrapper function under the name of the block; its *body* reads the
arguments of the block into local variables and builds the text of a call.

Every argument of the block is a `Variable`: its role says how it is read and
how its local variable is called.  The state of the pass lists the variables in
the order in which the body declares them, and has room for warnings.
-/

namespace BlockForge

/-- What kind of argument a variable reads. -/
inductive Role where
  | value
  | statements
  | text
  | number
  | angle
  | dropdown
  | checkbox
  | colour
  | variableName
deriving DecidableEq, Repr

namespace Role

/-- The role of a kind; inputs without value, labels, pictures and type
constraints are no arguments. -/
def ofKind? : Kind → Option Role
  | .inputValue => some value
  | .inputStatement => some statements
  | .textInput => some text
  | .numericInput => some number
  | .angleInput => some angle
  | .fieldDropdown => some dropdown
  | .fieldCheckbox => some checkbox
  | .fieldColour => some colour
  | .fieldVariable => some variableName
  | _ => none

/-- The word that local variables of a role start with. -/
def word : Role → String
  | value => "value"
  | statements => "statements"
  | text => "text"
  | number => "number"
  | angle => "angle"
  | dropdown => "dropdown"
  | checkbox => "checkbox"
  | colour => "colour"
  | variableName => "variable"

/-- The key of the field that names an argument of a role. -/
def nameKey : Role → String
  | value | statements => FieldKey.inputName
  | _ => FieldKey.fieldName

/-- The expression that reads an argument of a role. -/
def accessor (parameter : String) : Role → String
  | value =>
    "Blockly.JavaScript.valueToCode(block, '" ++ parameter
      ++ "', Blockly.JavaScript.ORDER_ATOMIC)"
  | statements =>
    "Blockly.JavaScript.statementToCode(block, '" ++ parameter ++ "')"
  | checkbox => "block.getFieldValue('" ++ parameter ++ "') === 'TRUE'"
  | variableName =>
    "Blockly.JavaScript.nameDB_.getName(block.getFieldValue('" ++ parameter
      ++ "'), Blockly.Variables.NAME_TYPE)"
  | _ => "block.getFieldValue('" ++ parameter ++ "')"

end Role

/-- An argument of a block, as its glue code reads it. -/
structure Variable where
  role : Role
  /-- The cleaned name of the argument. -/
  parameter : String
deriving DecidableEq, Repr

namespace Variable

/-- The local variable that an argument is read into. -/
def localName (declared : Variable) : String :=
  declared.role.word ++ "_" ++ Text.lowerVisible declared.parameter

/-- The statement that reads an argument. -/
def statement (declared : Variable) : String :=
  "var " ++ declared.localName ++ " = "
    ++ declared.role.accessor declared.parameter ++ ";\n"

/-- The argument in the text of the call. -/
def argument (declared : Variable) : String :=
  "\" ' + " ++ declared.localName ++ " + ' \""

end Variable

/-- The glue code of a block. -/
structure Glue where
  /-- The cleaned name of the block, with its capitals. -/
  name : String
  declaration : String
  body : String
  arguments : List Variable
deriving DecidableEq, Repr

namespace Glue

/-- The parameters of the wrapper function, each with a comma after it.  A
single parameter without name leaves no trace. -/
def parameterText (arguments : List Variable) : String :=
  let names := ",".intercalate (arguments.map Variable.parameter)
  if names = "" then "" else names ++ ","

/-- The registration of the wrapper function of a block. -/
def declarationText (name : String) (arguments : List Variable) : String :=
  "\nfunction init" ++ name ++ "(interpreter, globalObject)\n\x7b\n"
    ++ "  var wrapper = async function(" ++ parameterText arguments
    ++ "callback)\n  \x7b\x7d;\n\n"
    ++ "  Blockly.JavaScript.addReservedWords('" ++ name ++ "');\n"
    ++ "  interpreter.setProperty(globalObject, '" ++ name
    ++ "', interpreter.createAsyncFunction(wrapper));\n\x7d\n\n"
    ++ "init" ++ name ++ "(interpreter, globalObject);\n\n"

/-- The end of the body: an expression returns its code with a precedence, any
other block closes the call as a statement. -/
def returnText : Connections → String
  | .left => "';\nreturn [code, Blockly.JavaScript.ORDER_NONE];\n"
  | _ => ";\\n';\nreturn code;"

/-- The line that builds the text of the call. -/
def callText (name : String) (arguments : List Variable)
    (connections : Connections) : String :=
  "var code = '" ++ name ++ "("
    ++ ",".intercalate (arguments.map Variable.argument) ++ ")"
    ++ returnText connections

/-- What a pass has found so far. -/
structure State where
  /-- The variables, in the order of their declarations. -/
  arguments : List Variable := []
  warnings : List Warning := []
deriving DecidableEq, Repr

/-- A pass that collects variables.  It reads fields as texts only, for which
nothing has to be reported. -/
abbrev Declaring := Pass State

/-- Declare the variable of a node and give the statement that reads it. -/
def declare (tree : BlockTree) (node : NodeId) (role : Role) :
    Declaring String := do
  let declared : Variable :=
    ⟨role, Text.cleanName (tree.text node role.nameKey)⟩
  modify fun state => { state with arguments := state.arguments ++ [declared] }
  return declared.statement

/-- The name under which the glue code registers a block. -/
def blockName (tree : BlockTree) (node : NodeId) : String :=
  Text.cleanName (tree.text node FieldKey.blockName)

/-- The code of an item of a block: the item, then its fields. -/
def itemCode (walk : Walk State) (tree : BlockTree) (item : NodeId) :
    Declaring String := do
  let own ← walk item true
  let fields ← slotCode walk tree item Slot.fields
  return own ++ fields

/-- The body of the glue code of a block. -/
def blockCreator (walk : Walk State) (tree : BlockTree) (node : NodeId) :
    Declaring String := do
  let codes ← (tree.chain node Slot.inputs).mapM (itemCode walk tree)
  let state ← get
  let connections := Connections.ofOption (tree.text node FieldKey.connections)
  return String.join codes
    ++ callText (blockName tree node) state.arguments connections

/-- The code of a node of each kind. -/
def produce (tree : BlockTree) (walk : Walk State) (node : NodeId)
    (kind : Kind) : Declaring String :=
  if kind = .blockCreator then blockCreator walk tree node
  else
    match Role.ofKind? kind with
    | some role => declare tree node role
    | none => return ""

/-- The generator of glue code; the code of siblings is simply put together. -/
def producer (tree : BlockTree) : Producer State where
  produce := produce tree
  join := fun code rest => code ++ rest

/-- The walk of the generator of glue code. -/
def walk (tree : BlockTree) : Walk State :=
  (producer tree).walk tree

/-- The code of a node, and of its siblings unless `thisOnly`. -/
def code? (tree : BlockTree) (node : NodeId) (thisOnly : Bool) :
    Option String :=
  (walk tree node thisOnly).run' {}

/-- The code of the chain in a slot. -/
def slotCode? (tree : BlockTree) (node : NodeId) (name : String) :
    Option String :=
  (slotCode (walk tree) tree node name).run' {}

/-- Generate the glue code of the block of a node, with the warnings; none if the
walk over the tree has no end. -/
def withWarnings? (tree : BlockTree) (root : NodeId) :
    Option (Glue × List Warning) :=
  ((walk tree root true).run {}).map fun (body, ⟨arguments, warnings⟩) =>
    let name :=
      if tree.kind root = some .blockCreator then blockName tree root else ""
    let declaration := declarationText name arguments
    ({ name, declaration, body, arguments }, warnings)

/-- Generate the glue code of the block of a node, without the warnings. -/
def generate? (tree : BlockTree) (root : NodeId) : Option Glue :=
  (withWarnings? tree root).map Prod.fst

end Glue

end BlockForge
