import BlockForge.BlockFile.Load
import BlockForge.Proofs.Workspace.Slots
import Mathlib.Data.List.Basic

/-!
# Violations of a block file

What is wrong with a block file can be said without loading it.  A node breaks
a rule by a setting that its kind does not have, and a child breaks one by the
slot that it stands in: its owner has no such slot, its kind does not fit the
slot, or the slot is for one node and an earlier child was accepted there.

`Blueprint.violations` lists what is wrong with a node and with everything that
hangs in it, in the order of the file.
-/

namespace BlockForge

/-- What can be wrong with a node of a block file. -/
inductive Fault where
  | strayOptions (kind : Kind)
  | strayTypeCount (kind : Kind)
  | unknownSlot (slot : String) (owner : Kind)
  | misplaced (slot : String) (kind : Kind)
  | slotFull (slot : String) (owner : Kind)
deriving DecidableEq, Repr

/-- A fault, and where the file says the kind of the node that has it. -/
structure Violation where
  fault : Fault
  span : Span
deriving DecidableEq, Repr

/-- The fault that a problem is about; the other problems are about the text of
the file or about edits that no file can call for. -/
def LoadProblem.fault? : LoadProblem → Option Fault
  | .strayOptions kind => some (.strayOptions kind)
  | .strayTypeCount kind => some (.strayTypeCount kind)
  | .unknownSlot slot owner _ => some (.unknownSlot slot owner)
  | .slotFull slot owner => some (.slotFull slot owner)
  | .edit (.misplaced _ kind slot) => some (.misplaced slot kind)
  | _ => none

/-- The violation that an error reports. -/
def LoadError.violation? (error : LoadError) : Option Violation :=
  error.problem.fault?.map fun fault => ⟨fault, error.span⟩

namespace Blueprint

/-- What a file holds in tables has each key once, in ascending order. -/
inductive Ordered : Blueprint → Prop where
  | intro {blueprint : Blueprint}
      (fields : (blueprint.fields.entries.map Prod.fst).Pairwise (· < ·))
      (slots : (blueprint.slots.map Prod.fst).Pairwise (· < ·))
      (below : ∀ slot ∈ blueprint.slots, ∀ child ∈ slot.2, Ordered child) :
      Ordered blueprint

/-- A node is ordered if nothing hangs in it. -/
theorem Ordered.of_slots_eq_nil {blueprint : Blueprint}
    (fields : (blueprint.fields.entries.map Prod.fst).Pairwise (· < ·))
    (none : blueprint.slots = []) : blueprint.Ordered :=
  .intro fields (by rw [none]; exact .nil) (by simp [none])

theorem nodup_of_ascending {keys : List String}
    (ascending : keys.Pairwise (· < ·)) : keys.Nodup :=
  ascending.imp fun less => by
    rintro rfl
    exact absurd less (String.lt_irrefl _)

/-- The nodes that a file puts into the slot of a name. -/
def chain (blueprint : Blueprint) (name : String) : List Blueprint :=
  (blueprint.slots.lookup name).getD []

theorem lookup_eq_none_of_notMem {β : Type} {key : String}
    {entries : List (String × β)} (absent : key ∉ entries.map Prod.fst) :
    entries.lookup key = none := by
  rw [List.lookup_eq_none_iff]
  intro entry member
  have differs : key ≠ entry.1 := fun equal =>
    absent (List.mem_map.mpr ⟨entry, member, equal.symm⟩)
  simpa using differs

/-- What hangs in a slot is in one of the slots that the file lists. -/
theorem exists_slot_of_mem_chain {blueprint child : Blueprint} {name : String}
    (member : child ∈ blueprint.chain name) :
    ∃ slot ∈ blueprint.slots, child ∈ slot.2 := by
  unfold chain at member
  cases found : blueprint.slots.lookup name with
  | none =>
      rw [found] at member
      cases member
  | some listed =>
      rw [found, Option.getD_some] at member
      rcases List.lookup_eq_some_iff.mp found with ⟨before, after, split, _⟩
      exact ⟨(name, listed), by rw [split]; simp, member⟩

mutual

/-- A node and everything that hangs in it, in the order of the file. -/
def nodes : Blueprint → List Blueprint
  | ⟨kind, kindSpan, fields, slots, options, typeCount⟩ =>
    ⟨kind, kindSpan, fields, slots, options, typeCount⟩ :: slotNodes slots

/-- What hangs in the slots of a node. -/
def slotNodes : List (String × List Blueprint) → List Blueprint
  | [] => []
  | (_, chain) :: rest => chainNodes chain ++ slotNodes rest

/-- The nodes of a chain and everything that hangs in them. -/
def chainNodes : List Blueprint → List Blueprint
  | [] => []
  | blueprint :: rest => nodes blueprint ++ chainNodes rest

end

theorem nodes_eq (blueprint : Blueprint) :
    blueprint.nodes = blueprint :: slotNodes blueprint.slots := by
  cases blueprint
  rw [nodes]

theorem chainNodes_eq (chain : List Blueprint) :
    chainNodes chain = chain.flatMap nodes := by
  induction chain with
  | nil => rw [chainNodes, List.flatMap_nil]
  | cons blueprint rest rest_ih =>
      rw [chainNodes, List.flatMap_cons, rest_ih]

theorem slotNodes_eq (slots : List (String × List Blueprint)) :
    slotNodes slots = slots.flatMap fun slot => chainNodes slot.2 := by
  induction slots with
  | nil => rw [slotNodes, List.flatMap_nil]
  | cons slot rest rest_ih =>
      rw [slotNodes, List.flatMap_cons, rest_ih]

/-- Everything that hangs in an ordered node is ordered. -/
theorem Ordered.of_mem_nodes {blueprint : Blueprint}
    (ordered : blueprint.Ordered) : ∀ node ∈ blueprint.nodes, node.Ordered := by
  induction ordered with
  | @intro blueprint fields slots below below_ih =>
      rw [nodes_eq, List.forall_mem_cons]
      refine ⟨.intro fields slots below, ?_⟩
      intro node member
      rw [slotNodes_eq] at member
      rcases List.mem_flatMap.mp member with ⟨slot, listed, inChain⟩
      rw [chainNodes_eq] at inChain
      rcases List.mem_flatMap.mp inChain with ⟨child, inSlot, inChild⟩
      exact below_ih slot listed child inSlot node inChild

/-! ## Slots -/

/-- The index that the name of a slot for a member gives. -/
def slotIndex? (name : String) : Option Nat :=
  (Slot.afterType? name).bind readIndex?

/-- The number of slots of a type group: the number that the file gives, or more
if the file uses a slot with a greater index. -/
def groupSize (blueprint : Blueprint) : Nat :=
  let indices := blueprint.slots.filterMap fun slot => slotIndex? slot.1
  max (blueprint.typeCount.getD 0) ((indices.map (· + 1)).max?.getD 0)

/-- The names of the slots of a node. -/
def slotNames (blueprint : Blueprint) : List String :=
  blueprint.kind.slotsWith
    (if blueprint.kind = .typeGroup then blueprint.groupSize else 0)

/-! ## Faults -/

/-- What is wrong with the settings of a node. -/
def settingFaults (blueprint : Blueprint) : List Fault :=
  (if blueprint.options.isSome ∧ blueprint.kind ≠ .fieldDropdown then
    [.strayOptions blueprint.kind] else [])
  ++ (if blueprint.typeCount.isSome ∧ blueprint.kind ≠ .typeGroup then
    [.strayTypeCount blueprint.kind] else [])

/-- What is wrong with hanging a child in a slot; the slot is taken if an
earlier child was accepted there. -/
def childFault? (owner : Blueprint) (name : String) (taken : Bool)
    (child : Blueprint) : Option Fault :=
  if name ∉ owner.slotNames then some (.unknownSlot name owner.kind)
  else if child.kind.fits name = false then some (.misplaced name child.kind)
  else if Slot.isType name ∧ taken then some (.slotFull name owner.kind)
  else none

mutual

/-- What is wrong with a node and with everything that hangs in it. -/
def violations : Blueprint → List Violation
  | ⟨kind, kindSpan, fields, slots, options, typeCount⟩ =>
    let owner : Blueprint := ⟨kind, kindSpan, fields, slots, options, typeCount⟩
    owner.settingFaults.map (fun fault => ⟨fault, kindSpan⟩)
      ++ slotViolations owner slots

/-- What is wrong in the slots of a node. -/
def slotViolations (owner : Blueprint) :
    List (String × List Blueprint) → List Violation
  | [] => []
  | (name, chain) :: rest =>
    chainViolations owner name false chain ++ slotViolations owner rest

/-- What is wrong in the rest of a slot: first in a child, then with it. -/
def chainViolations (owner : Blueprint) (name : String) (taken : Bool) :
    List Blueprint → List Violation
  | [] => []
  | child :: rest =>
    let fault := owner.childFault? name taken child
    violations child
      ++ (fault.map fun fault => ⟨fault, child.kindSpan⟩).toList
      ++ chainViolations owner name (taken || fault.isNone) rest

end

theorem violations_eq (blueprint : Blueprint) :
    blueprint.violations =
      blueprint.settingFaults.map (fun fault => ⟨fault, blueprint.kindSpan⟩)
        ++ slotViolations blueprint blueprint.slots := by
  cases blueprint
  rw [violations]

/-- What is wrong in a file. -/
def fileViolations (blueprints : List Blueprint) : List Violation :=
  blueprints.flatMap violations

/-! ## What loading computes -/

/-- Strays are the faults of the settings. -/
theorem map_fault?_strays (blueprint : Blueprint) :
    blueprint.strays.map LoadProblem.fault? =
      blueprint.settingFaults.map some := by
  unfold strays settingFaults
  split_ifs <;> rfl

theorem impliedCount_eq (name : String) :
    impliedCount name = ((slotIndex? name).map (· + 1)).getD 0 := by
  unfold impliedCount slotIndex?
  cases (Slot.afterType? name).bind readIndex? <;> rfl

theorem foldl_impliedCount (slots : List (String × List Blueprint)) :
    ∀ count, (slots.map fun slot => impliedCount slot.1).foldl max count =
      max count (((slots.filterMap fun slot => slotIndex? slot.1).map
        (· + 1)).max?.getD 0) := by
  induction slots with
  | nil => simp
  | cons slot slots slots_ih =>
      intro count
      rw [List.map_cons, List.foldl_cons, slots_ih, impliedCount_eq]
      cases found : slotIndex? slot.1 with
      | none => simp [found]
      | some index =>
          rw [List.filterMap_cons, found, List.map_cons, List.max?_cons]
          cases ((slots.filterMap fun slot => slotIndex? slot.1).map
            (· + 1)).max? with
          | none => simp
          | some most => simp [Nat.max_assoc]

/-- A type group gets as many slots as its file calls for. -/
theorem memberCount_eq (blueprint : Blueprint) :
    blueprint.memberCount = blueprint.groupSize :=
  foldl_impliedCount blueprint.slots _

end Blueprint

end BlockForge
