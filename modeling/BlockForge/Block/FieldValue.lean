import BlockForge.Number.Shortest
import BlockForge.Text.Blank

/-!
# Field values

A field holds a boolean, a number or a text.  An editor stores most values as
text, so each value has a text, and a text may have a reading as a number or as
a boolean.
-/

namespace BlockForge

/-- The value of a field. -/
inductive FieldValue where
  | bool (value : Bool)
  | number (value : Binary64)
  | text (value : String)
deriving DecidableEq, Repr

namespace FieldValue

/-- The number that a text writes, blanks around it ignored. -/
def readNumber (text : String) : Option Binary64 :=
  readBinary64 (Text.trim text.toList)

/-- The numeric reading of a value.  NaN is no reading, and neither is a
boolean. -/
def asNumber : FieldValue → Option Binary64
  | .number value => if value = .nan then none else some value
  | .text value =>
    (readNumber value).filter fun reading => reading ≠ .nan
  | .bool _ => none

/-- The boolean reading of a value: a boolean itself, or its word in capital or
in small letters. -/
def asBool : FieldValue → Option Bool
  | .bool value => some value
  | .text value =>
    let word := String.ofList (Text.trim value.toList)
    if word = "TRUE" ∨ word = "true" then some true
    else if word = "FALSE" ∨ word = "false" then some false
    else none
  | .number _ => none

/-- The text of a number in a field. -/
def numberText : Binary64 → String
  | .infinite negative => if negative then "-Infinity" else "Infinity"
  | value => value.plainText

/-- The text of a value. -/
def display : FieldValue → String
  | .bool value => if value then "TRUE" else "FALSE"
  | .number value => numberText value
  | .text value => value

end FieldValue

end BlockForge
