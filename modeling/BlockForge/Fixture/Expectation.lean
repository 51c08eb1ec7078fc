import BlockForge.Toml.Document
import BlockForge.Toml.Shape

/-!
# Expectations

A fixture is a block file that also says, in a table `expect`, what generating
its block should give: parts of the generated texts, the message of the block,
an error, or the warnings.
-/

namespace BlockForge

open Toml (Key Shaped Value)

/-- What a fixture expects. -/
structure Expectations where
  /-- Texts that occur in the definition. -/
  definitionParts : List String
  /-- Texts that occur in the body of the glue code. -/
  bodyParts : List String
  /-- Texts that occur in the declaration of the glue code. -/
  declarationParts : List String
  /-- The message of the block; no message counts as the empty one. -/
  message : Option String
  /-- A text that occurs in the error that loading or generating gives. -/
  error : Option String
  /-- Texts that occur in the warnings, one for each warning. -/
  warnings : Option (List String)
deriving DecidableEq, Repr

namespace Expectations

/-- Nothing expected but success. -/
def none : Expectations := ⟨[], [], [], .none, .none, .none⟩

/-- The keys that say what is expected, in the order in which a list gives
their values. -/
def keys : List String :=
  ["definition_contains", "body_contains", "declaration_contains", "message",
    "error", "warnings"]

/-- Read the value of a key. -/
def set (expected : Expectations) (name : String) (value : Value) :
    Shaped Expectations := do
  if name = "definition_contains" then
    return { expected with definitionParts := ← value.asList Value.asText }
  else if name = "body_contains" then
    return { expected with bodyParts := ← value.asList Value.asText }
  else if name = "declaration_contains" then
    return { expected with declarationParts := ← value.asList Value.asText }
  else if name = "message" then
    return { expected with message := some (← value.asText) }
  else if name = "error" then
    return { expected with error := some (← value.asText) }
  else if name = "warnings" then
    return { expected with warnings := some (← value.asList Value.asText) }
  else Shaped.refuse (.unknownField name keys)

/-- Read the entry of a key. -/
def setEntry (expected : Expectations) (entry : Key × Value) :
    Shaped Expectations :=
  Shaped.inside (some entry.1.span) (expected.set entry.1.text entry.2)

/-- Read what is expected: a table, or the list of the values of its keys. -/
def ofValue : Value → Shaped Expectations
  | .table _ _ entries => entries.foldlM setEntry none
  | .array _ items =>
    (keys.zip items).foldlM (fun expected item =>
      expected.set item.1 item.2) none
  | .tables elements =>
    (keys.zip elements).foldlM (fun expected item =>
      expected.set item.1 item.2) none
  | .moment span _ => Shaped.refuseAt span (.unknownField Value.momentKey keys)
  | value => value.refuse "struct Expectations"

end Expectations

/-- What a fixture says besides its blocks. -/
structure FixtureSheet where
  description : Option String
  expected : Expectations
deriving DecidableEq, Repr

namespace FixtureSheet

/-- Read an entry of a fixture. -/
def setEntry (sheet : FixtureSheet) (entry : Key × Value) :
    Shaped FixtureSheet :=
  Shaped.inside (some entry.1.span) do
    if entry.1.text = "description" then
      return { sheet with description := some (← entry.2.asText) }
    else if entry.1.text = "expect" then
      return { sheet with expected := ← Expectations.ofValue entry.2 }
    else return sheet

/-- Read what a fixture says besides its blocks. -/
def ofDocument (entries : Toml.Entries) : Shaped FixtureSheet :=
  entries.foldlM setEntry ⟨none, Expectations.none⟩

end FixtureSheet

end BlockForge
