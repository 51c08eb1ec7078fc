import BlockForge.Number.Shortest
import BlockForge.Text.Choice
import BlockForge.Text.Quoted
import BlockForge.Toml.Value

/-!
# The shape of values

A program wants values of certain shapes: texts, lists, tables with certain
keys, tags out of a choice.  A value of another shape is refused with the
reason and the span of what is wrong.  A reason that concerns a value without
text of its own is given the span of what encloses the value.
-/

namespace BlockForge.Toml

/-- Why a value does not have the shape that is wanted. -/
inductive ShapeProblem where
  | unknownVariant (found : String) (allowed : List String)
  | unknownField (found : String) (allowed : List String)
  | missingField (name : String)
  /-- The value is of another type. -/
  | wrongType (found wanted : String)
  /-- The value is of the right type, but out of range. -/
  | wrongValue (found wanted : String)
  | wrongLength (length : Nat) (wanted : String)
  /-- A tag is neither a text nor a table. -/
  | noTag
  /-- A table that stands for a tag has no entry. -/
  | noEntry
  /-- A table that stands for a tag has several entries. -/
  | manyEntries
  | notEmpty (wanted : String)
  | noTable (found : String)
  /-- The value is none of those that a field may have. -/
  | noFieldValue
deriving DecidableEq, Repr

namespace ShapeProblem

/-- The words for a reason. -/
def message : ShapeProblem → String
  | unknownVariant found allowed => Text.unknownVariant found allowed
  | unknownField found allowed => Text.unknownField found allowed
  | missingField name => "missing field " ++ Text.ticked name
  | wrongType found wanted =>
    "invalid type: " ++ found ++ ", expected " ++ wanted
  | wrongValue found wanted =>
    "invalid value: " ++ found ++ ", expected " ++ wanted
  | wrongLength length wanted =>
    "invalid length " ++ toString length ++ ", expected " ++ wanted
  | noTag => "wanted string or table"
  | noEntry => "wanted exactly 1 element, found 0 elements"
  | manyEntries => "wanted exactly 1 element, more than 1 element"
  | notEmpty wanted => "expected empty " ++ wanted
  | noTable found => "expected table, found " ++ found
  | noFieldValue => "data did not match any variant of untagged enum FieldValue"

end ShapeProblem

/-- A reason and the span of what is wrong, if that is known. -/
structure ShapeError where
  problem : ShapeProblem
  span : Option Span
deriving DecidableEq, Repr

/-- A value of the wanted shape, or the reason why there is none. -/
abbrev Shaped (α : Type) := Except ShapeError α

namespace Shaped

variable {α : Type}

/-- Refuse with a reason whose span is not known yet. -/
def refuse (problem : ShapeProblem) : Shaped α :=
  .error ⟨problem, none⟩

/-- Refuse with a reason and a span. -/
def refuseAt (span : Span) (problem : ShapeProblem) : Shaped α :=
  .error ⟨problem, some span⟩

/-- Give a reason without span the span of what encloses the value. -/
def inside (span : Option Span) : Shaped α → Shaped α
  | .ok value => .ok value
  | .error ⟨problem, known⟩ => .error ⟨problem, known.or span⟩

end Shaped

namespace Value

/-- A number in words; a whole number has a zero behind the point. -/
def floatText (number : Binary64) : String :=
  let text := number.shortestText
  if number.isFinite ∧ '.' ∉ text.toList then text ++ ".0" else text

/-- What a value is, in words that show it. -/
def found : Value → String
  | string _ text => "string " ++ Text.quoted text
  | integer _ number => "integer " ++ Text.ticked (toString number)
  | float _ number => "floating point " ++ Text.ticked (floatText number)
  | boolean _ flag =>
    "boolean " ++ Text.ticked (if flag then "true" else "false")
  | array .. | tables _ => "sequence"
  | table .. | moment .. => "map"

/-- The name of the type of a value. -/
def typeName : Value → String
  | string .. => "string"
  | integer .. => "integer"
  | float .. => "float"
  | boolean .. => "boolean"
  | moment .. => "datetime"
  | array .. | tables _ => "array"
  | table .. => "table"

/-- Refuse a value that has another type than the wanted one. -/
def refuse {α : Type} (value : Value) (wanted : String) : Shaped α :=
  .error ⟨.wrongType value.found wanted, value.span?⟩

/-- Read a text. -/
def asText : Value → Shaped String
  | string _ text => .ok text
  | value => value.refuse "a string"

/-- Read a natural number. -/
def asNatural : Value → Shaped Nat
  | integer span number =>
    if 0 ≤ number then .ok number.toNat
    else
      Shaped.refuseAt span
        (.wrongValue ("integer " ++ Text.ticked (toString number)) "usize")
  | value => value.refuse "usize"

/-- Read a list of values. -/
def asList {α : Type} (read : Value → Shaped α) : Value → Shaped (List α)
  | array _ items => items.mapM read
  | tables elements => elements.mapM read
  | value => value.refuse "a sequence"

/-- The key under which a date or time holds its text, where it is read as a
table. -/
def momentKey : String := "$__toml_private_datetime"

/-- Refuse the content of a table that stands for a tag, unless it is empty. -/
def requireEmpty : Value → Shaped Unit
  | array span items =>
    if items.isEmpty then .ok () else .error ⟨.notEmpty "table", some span⟩
  | table _ span entries =>
    if entries.isEmpty then .ok () else .error ⟨.notEmpty "table", span⟩
  | tables elements => .error ⟨.notEmpty "array", (tables elements).span?⟩
  | value => .error ⟨.noTable value.typeName, value.span?⟩

/-- Read a tag: a text, or a table whose only key is the tag. -/
def asTag {α : Type} (ofTag? : String → Option α) (allowed : List String) :
    Value → Shaped α
  | string span text =>
    match ofTag? text with
    | some tagged => .ok tagged
    | none => Shaped.refuseAt span (.unknownVariant text allowed)
  | table _ span entries =>
    Shaped.inside span <|
      match entries with
      | [] => Shaped.refuse .noEntry
      | [(key, content)] =>
        match ofTag? key.text with
        | some tagged => do
          requireEmpty content
          return tagged
        | none => Shaped.refuseAt key.span (.unknownVariant key.text allowed)
      | _ => Shaped.refuse .manyEntries
  | value => .error ⟨.noTag, value.span?⟩

end Value

end BlockForge.Toml
