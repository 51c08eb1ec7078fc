import BlockForge.Block.Kind

/-!
# Slot names

Nodes hang in named slots of other nodes.  The slots `INPUTS` and `FIELDS` hold
chains of any length; the type slots `TYPE`, `TYPE0`, `TYPE1`, ... hold a single
type constraint each.  `Kind.fits` says which kind may hang where.
-/

namespace BlockForge

namespace Slot

/-- The slot of a block creator that holds its inputs. -/
def inputs : String := "INPUTS"

/-- The slot of an input that holds its fields. -/
def fields : String := "FIELDS"

/-- The slot of an input that holds its type constraint. -/
def type : String := "TYPE"

/-- The slot of a type group for its member of an index. -/
def member (index : Nat) : String := type ++ toString index

/-- What follows the word `TYPE` in a slot name that starts with it. -/
def afterType? (name : String) : Option (List Char) :=
  if type.toList.isPrefixOf name.toList then
    some (name.toList.drop type.length)
  else none

/-- Whether a slot holds a single type constraint: `TYPE`, alone or followed by
digits. -/
def isType (name : String) : Bool :=
  match afterType? name with
  | some index => index.all Char.isDigit
  | none => false

/-- What a slot may hold, in words. -/
def contents (name : String) : String :=
  if name = inputs then "inputs and fields"
  else if name = fields then "fields"
  else if isType name then "a type constraint"
  else "nothing"

end Slot

namespace Kind

/-- The slots that every node of a kind has from the start. -/
def slotNames : Kind → List String
  | blockCreator => [Slot.inputs]
  | dummyInput => [Slot.fields]
  | inputValue | inputStatement => [Slot.fields, Slot.type]
  | _ => []

/-- Whether a node of this kind may hang in a slot of this name. -/
def fits (kind : Kind) (name : String) : Bool :=
  if name = Slot.inputs then kind.isInput || kind.isField
  else if name = Slot.fields then kind.isField
  else if Slot.isType name then kind.isTypeConstraint
  else false

/-- A block creator fits no slot. -/
@[simp]
theorem fits_blockCreator (name : String) :
    blockCreator.fits name = false := by
  simp [fits, isInput, isField, isTypeConstraint]

end Kind

end BlockForge
