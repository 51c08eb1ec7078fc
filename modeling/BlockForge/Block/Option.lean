/-!
# Options of a block

The block creator lets its author choose a category, a layout of the inputs
and the connections of the finished block.  Each choice is stored as the text
of an option.
-/

namespace BlockForge

/-- The categories that a block can be filed under. -/
inductive Category where
  | movement
  | sensing
  | logic
  | loops
  | math
  | text
  | lists
  | variableNames
deriving DecidableEq, Repr

namespace Category

/-- The category that an option chooses. -/
def ofOption? (option : String) : Option Category :=
  match option with
  | "CATEGORY_MOVEMENT" => some movement
  | "CATEGORY_SENSING" => some sensing
  | "CATEGORY_LOGIC" => some logic
  | "CATEGORY_LOOPS" => some loops
  | "CATEGORY_MATH" => some math
  | "CATEGORY_TEXT" => some text
  | "CATEGORY_LISTS" => some lists
  | "CATEGORY_VARIABLES" => some variableNames
  | _ => none

/-- The colour of the blocks of a category. -/
def colour : Category → String
  | movement => "#D91E1E"
  | sensing => "#FF811E"
  | logic => "#FFA800"
  | loops => "#3EBB10"
  | math => "#0ACA96"
  | text => "#0AB6D4"
  | lists => "#0A68CA"
  | variableNames => "#5C0ACA"

/-- The name of a category. -/
def label : Category → String
  | movement => "Movement"
  | sensing => "Sensing"
  | logic => "Logic"
  | loops => "Loops"
  | math => "Math"
  | text => "Text"
  | lists => "Lists"
  | variableNames => "Variables"

end Category

/-- The colour of a block without a known category. -/
def defaultHue : Nat := 230

/-- How a block lays out its inputs. -/
inductive InputLayout where
  | auto
  | external
  | inline
deriving DecidableEq, Repr

namespace InputLayout

/-- The layout that an option chooses; an unknown option leaves it open. -/
def ofOption (option : String) : InputLayout :=
  match option with
  | "OPTION_EXTERNAL" => external
  | "OPTION_INLINE" => inline
  | _ => auto

/-- Whether the inputs are inline, if the layout says so. -/
def inputsInline? : InputLayout → Option Bool
  | auto => none
  | external => some false
  | inline => some true

end InputLayout

/-- The connections of a block. -/
inductive Connections where
  | none
  /-- An output on the left: the block is an expression. -/
  | left
  | topBottom
  | top
  | bottom
deriving DecidableEq, Repr

namespace Connections

/-- The connections that an option chooses; an unknown option chooses none. -/
def ofOption (option : String) : Connections :=
  match option with
  | "OPTION_CONNECTIONS_LEFT" => left
  | "OPTION_CONNECTIONS_TOP_BOTTOM" => topBottom
  | "OPTION_CONNECTIONS_TOP" => top
  | "OPTION_CONNECTIONS_BOTTOM" => bottom
  | _ => none

/-- The keys by which a definition declares the connections. -/
def keys : Connections → List String
  | none => []
  | left => ["output"]
  | topBottom => ["previousStatement", "nextStatement"]
  | top => ["previousStatement"]
  | bottom => ["nextStatement"]

end Connections

end BlockForge
