import BlockForge.Block.FieldTable
import BlockForge.Block.Kind
import BlockForge.Block.Mutation
import BlockForge.Text.Span
import BlockForge.Toml.Document
import BlockForge.Toml.Shape

/-!
# Blueprints

A block file describes a workspace: a list of blueprints, one for each node
that hangs nowhere.  The blueprint of a node holds the blueprints of what hangs
in its slots.

`Blueprint.ofValue` reads a blueprint out of a value of the file.
-/

namespace BlockForge

/-- A node as a block file describes it. -/
structure Blueprint where
  kind : Kind
  /-- Where the file says the kind. -/
  kindSpan : Span
  fields : FieldTable
  /-- The nodes in each slot, in ascending order of the names of the slots. -/
  slots : List (String × List Blueprint)
  /-- The options of a dropdown, if the file lists them. -/
  options : Option (List OptionKind)
  /-- The number of members of a type group, if the file gives it. -/
  typeCount : Option Nat

namespace Blueprint

open Toml (Value Key Shaped)

/-- The keys that describe a node, in the order in which a list gives their
values. -/
def keys : List String := ["type", "fields", "slots", "options", "type_count"]

/-- What is known of a node after some of its keys. -/
structure Draft where
  kind : Option (Kind × Span) := none
  fields : FieldTable := FieldTable.empty
  slots : List (String × List Blueprint) := []
  options : Option (List OptionKind) := none
  typeCount : Option Nat := none

/-- The blueprint of a draft, if the kind is known. -/
def Draft.finish (draft : Draft) (missing : Toml.ShapeProblem) :
    Shaped Blueprint :=
  match draft.kind with
  | some (kind, span) =>
    .ok ⟨kind, span, draft.fields,
      draft.slots.mergeSort fun slot other => slot.1 ≤ other.1,
      draft.options, draft.typeCount⟩
  | none => Shaped.refuse missing

/-- Read the kind of a node and the span that says it. -/
def kindOf (value : Value) : Shaped (Kind × Span) :=
  match value.span?, value with
  | some span, _ => do
    return (← value.asTag Kind.ofTag? (Kind.all.map Kind.tag), span)
  | none, .table _ _ ((key, _) :: _) =>
    Shaped.refuseAt key.span
      (.wrongType ("string " ++ Text.quoted key.text) "a borrowed string")
  | none, _ => Shaped.refuse .noTag

/-- Read the value of a field. -/
def fieldOf : Value → Shaped FieldValue
  | .boolean _ flag => .ok (.bool flag)
  | .integer _ number =>
    .ok (.number (Decimal.nearest (number < 0) ⟨number.natAbs, 0⟩))
  | .float _ number => .ok (.number number)
  | .string _ text => .ok (.text text)
  | _ => Shaped.refuse .noFieldValue

/-- Read the fields of a node. -/
def fieldsOf : Value → Shaped FieldTable
  | .table _ _ entries =>
    entries.foldlM (fun table (key, value) => do
      let field ← Shaped.inside (value.span?.or key.span) (fieldOf value)
      return table.insert key.text field) FieldTable.empty
  | .moment _ text =>
    .ok (FieldTable.empty.insert Value.momentKey (.text text))
  | value => value.refuse "a map"

/-- Read the value of a key other than the slots. -/
def Draft.set (draft : Draft) (name : String) (value : Value) :
    Shaped Draft := do
  if name = "type" then
    return { draft with kind := some (← kindOf value) }
  else if name = "fields" then
    return { draft with fields := ← fieldsOf value }
  else if name = "options" then
    let options ←
      value.asList (Value.asTag OptionKind.ofTag? (OptionKind.all.map OptionKind.tag))
    return { draft with options := some options }
  else if name = "type_count" then
    return { draft with typeCount := some (← value.asNatural) }
  else Shaped.refuse (.unknownField name keys)

mutual

/-- Read a blueprint. -/
def ofValue : Value → Shaped Blueprint
  | .table _ span entries => Shaped.inside span do
    (← ofEntries {} entries).finish (.missingField "type")
  | .array span items => Shaped.inside span do
    (← ofItems {} keys items).finish
      (.wrongLength 0 "struct NodeSpec with 5 elements")
  | .tables elements => Shaped.inside (Value.tables elements).span? do
    (← ofItems {} keys elements).finish
      (.wrongLength 0 "struct NodeSpec with 5 elements")
  | .moment span _ =>
    Shaped.refuseAt span (.unknownField Value.momentKey keys)
  | value => value.refuse "struct NodeSpec"

/-- Read the entries of a table that describes a node. -/
def ofEntries (draft : Draft) : List (Key × Value) → Shaped Draft
  | [] => .ok draft
  | (key, value) :: rest => do
    let known : Shaped Draft :=
      if key.text = "slots" then do
        return { draft with slots := ← slotsOf value }
      else if key.text ∈ keys then draft.set key.text value
      else Shaped.refuseAt key.span (.unknownField key.text keys)
    ofEntries (← Shaped.inside (value.span?.or key.span) known) rest

/-- Read the items of a list that describes a node, key by key. -/
def ofItems (draft : Draft) : List String → List Value → Shaped Draft
  | name :: names, value :: rest => do
    let known : Shaped Draft :=
      if name = "slots" then do
        return { draft with slots := ← slotsOf value }
      else draft.set name value
    ofItems (← Shaped.inside value.span? known) names rest
  | _, _ => .ok draft

/-- Read the slots of a node. -/
def slotsOf : Value → Shaped (List (String × List Blueprint))
  | .table _ _ entries => slotEntriesOf entries
  | .moment span text =>
    Shaped.refuseAt span
      (.wrongType ("string " ++ Text.quoted text) "a sequence")
  | value => value.refuse "a map"

/-- Read the entries of a table of slots. -/
def slotEntriesOf :
    List (Key × Value) → Shaped (List (String × List Blueprint))
  | [] => .ok []
  | (key, value) :: rest => do
    let chain ← Shaped.inside (value.span?.or key.span) (chainOf value)
    return (key.text, chain) :: (← slotEntriesOf rest)

/-- Read the nodes of a slot. -/
def chainOf : Value → Shaped (List Blueprint)
  | .array _ items => chainItemsOf items
  | .tables elements => chainItemsOf elements
  | value => value.refuse "a sequence"

/-- Read a list of nodes. -/
def chainItemsOf : List Value → Shaped (List Blueprint)
  | [] => .ok []
  | value :: rest => do
    let blueprint ← ofValue value
    return blueprint :: (← chainItemsOf rest)

end

/-- Read the blueprints of a block file; keys other than `block` mean nothing
here. -/
def ofDocument (entries : Toml.Entries) : Shaped (List Blueprint) :=
  match List.find? (fun entry => entry.1.text = "block") entries with
  | some (key, value) => Shaped.inside (some key.span) (chainOf value)
  | none => .ok []

end Blueprint

end BlockForge
