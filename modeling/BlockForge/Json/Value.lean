import BlockForge.Number.Binary64

/-!
# JSON values

What a JSON document says, apart from its layout.  An object keeps its entries
in the order of the document.
-/

namespace BlockForge.Json

/-- A JSON value. -/
inductive Value where
  | null
  | bool (value : Bool)
  | number (value : Binary64)
  | string (text : String)
  | array (items : List Value)
  | object (entries : List (String × Value))

namespace Value

/-- The value under a key of an object; of several entries the last one
counts. -/
def member? (name : String) : Value → Option Value
  | object entries => entries.reverse.lookup name
  | _ => none

/-- The text of a string. -/
def text? : Value → Option String
  | string text => some text
  | _ => none

end Value

end BlockForge.Json
