import BlockForge.Proofs.BlockFile.Loading
import Mathlib.Data.List.Sort

/-!
# A loaded workspace shows its file

A file that loads without errors can be read back from the workspace: the nodes
that hang nowhere are those of the file, and each node shows what the file says
about it, down to what hangs in its slots.  `BlockTree.Depicts` states this for
a node; it only speaks of what a generator can see of the workspace.

The main theorem is `build_shows`.
-/

namespace BlockForge

namespace FieldTable

/-- Fields with different keys override and extend a table. -/
theorem get?_insertAll {fields : List (String × FieldValue)}
    (distinct : (fields.map Prod.fst).Nodup) (key : String) :
    ∀ table : FieldTable,
      (table.insertAll fields).get? key =
        (fields.lookup key).or (table.get? key) := by
  induction fields with
  | nil => exact fun _ => rfl
  | cons field fields fields_ih =>
      rcases field with ⟨name, value⟩
      intro table
      rw [List.map_cons, List.nodup_cons] at distinct
      change ((table.insert name value).insertAll fields).get? key = _
      rw [fields_ih distinct.2, get?_insert, List.lookup_cons]
      by_cases same : key = name
      · rw [same, Blueprint.lookup_eq_none_of_notMem distinct.1, if_pos rfl,
          beq_self_eq_true]
        rfl
      · rw [if_neg same, beq_false_of_ne same]

end FieldTable

theorem Kind.defaultFields_nodup (kind : Kind) :
    (kind.defaultFields.map Prod.fst).Nodup := by
  cases kind <;> decide

namespace Blueprint

/-- The fields of a loaded node are those of its kind, overridden and extended
by those of the file. -/
theorem get?_label_fields (blueprint : Blueprint)
    (ascending : (blueprint.fields.entries.map Prod.fst).Pairwise (· < ·))
    (key : String) :
    blueprint.label.fields.get? key =
      (blueprint.fields.get? key).or (blueprint.kind.defaultField? key) := by
  rw [label, FieldTable.get?_insertAll (nodup_of_ascending ascending),
    FieldTable.get?_insertAll blueprint.kind.defaultFields_nodup]
  rw [show FieldTable.empty.get? key = none from rfl, Option.or_none]
  rfl

end Blueprint

namespace BlockTree

/-- A node has the mutation that its kind calls for. -/
structure Mutates (tree : BlockTree) (id : NodeId) (blueprint : Blueprint) :
    Prop where
  /-- The options are those of the file or those that the fields imply. -/
  dropdown : blueprint.kind = .fieldDropdown →
    tree.mutation id = some (.dropdown
      (blueprint.options.getD (Blueprint.impliedOptions blueprint.fields)))
  /-- The members are at least as many as the file says, they reach to every
  slot in which something hangs, and each of them has a slot. -/
  typeGroup : blueprint.kind = .typeGroup →
    ∃ count, tree.mutation id = some (.typeGroup count) ∧
      blueprint.typeCount.getD 0 ≤ count ∧
      (∀ index, tree.chain id (Slot.member index) ≠ [] → index < count) ∧
      (tree.slotNames id).length = count
  other : blueprint.kind ≠ .fieldDropdown → blueprint.kind ≠ .typeGroup →
    tree.mutation id = none

/-- A node shows what a file says about it and about what hangs in it. -/
inductive Depicts (tree : BlockTree) : NodeId → Blueprint → Prop where
  | intro {id : NodeId} {blueprint : Blueprint}
      (kind : tree.kind id = some blueprint.kind)
      (field : ∀ key, tree.field id key =
        (blueprint.fields.get? key).or (blueprint.kind.defaultField? key))
      (mutates : tree.Mutates id blueprint)
      (chain : ∀ name, List.Forall₂ (Depicts tree) (tree.chain id name)
        (blueprint.chain name))
      (owned : ∀ name, ∀ child ∈ tree.chain id name,
        tree.surroundingParent child = some id) :
      Depicts tree id blueprint

/-- A tree shows a file: it has one node for each node of the file, in the order
of the file. -/
structure Shows (tree : BlockTree) (blueprints : List Blueprint) : Prop where
  size_eq : tree.size = (Blueprint.chainNodes blueprints).length
  nodes : ∀ {id blueprint},
    (Blueprint.chainNodes blueprints)[id]? = some blueprint →
      tree.Depicts id blueprint
  topBlocks : List.Forall₂ tree.Depicts tree.topBlocks blueprints

end BlockTree

namespace Workspace

variable {workspace : Workspace} {chains : NodeId → String → List NodeId}
  {listing : List Blueprint} {id : NodeId} {blueprint : Blueprint}

/-- What a generator sees of a node is its label. -/
theorem tree_eq_of_label? {label : Label}
    (labelled : workspace.label? id = some label) :
    workspace.tree.kind id = some label.kind ∧
      (∀ key, workspace.tree.field id key = label.fields.get? key) ∧
      workspace.tree.mutation id = label.mutation ∧
      workspace.tree.slotNames id = label.slotNames := by
  rcases exists_node_of_label? labelled with ⟨node, found, rfl⟩
  simp [tree, kind?, found, Node.label]

/-- A node that is what the file says has the mutation of its kind. -/
theorem Holds.mutates
    (holds : workspace.Holds workspace.tree.chain 0 listing id blueprint)
    (stacked : workspace.Stacked workspace.tree.chain) :
    workspace.tree.Mutates id blueprint := by
  rcases tree_eq_of_label? holds.label_eq with ⟨_, _, mutation, slotNames⟩
  change _ = blueprint.mutation? at mutation
  change _ = blueprint.slotNames at slotNames
  refine { dropdown := ?_, typeGroup := ?_, other := ?_ }
  · intro dropdown
    rw [mutation, Blueprint.mutation?, dropdown]
  · intro group
    have listed : blueprint.slotNames =
        blueprint.kind.slotsWith blueprint.groupSize := by
      rw [Blueprint.slotNames, if_pos group]
    refine ⟨blueprint.groupSize, ?_, Nat.le_max_left .., ?_, ?_⟩
    · rw [mutation, Blueprint.mutation?, group, Blueprint.memberCount_eq]
    · intro index occupied
      rcases List.exists_mem_of_ne_nil _ occupied with ⟨child, member⟩
      have hasSlot := stacked.mem_slotNames_of_mem member
      rwa [slotNames, listed, Kind.mem_slotsWith_member] at hasSlot
    · rw [slotNames, listed, group]
      simp [Kind.slotsWith, Kind.slotNames]
  · intro notDropdown notGroup
    rw [mutation, Blueprint.mutation?]
    split <;> first | contradiction | rfl

/-- Where every node of a listing is what the file says, each of them shows it:
by induction on the file. -/
theorem depicts_of_holds (stacked : workspace.Stacked workspace.tree.chain)
    (holds : ∀ {id blueprint}, Blueprint.StandsAt 0 listing id blueprint →
      workspace.Holds workspace.tree.chain 0 listing id blueprint)
    (ordered : blueprint.Ordered) :
    ∀ {id}, Blueprint.StandsAt 0 listing id blueprint →
      workspace.tree.Depicts id blueprint := by
  induction ordered with
  | @intro blueprint fields slots below below_ih =>
      intro id stands
      have held := holds stands
      rcases tree_eq_of_label? held.label_eq with ⟨kind, field, _, _⟩
      refine .intro kind ?_ (held.mutates stacked) ?_ ?_
      · intro key
        rw [field]
        exact blueprint.get?_label_fields fields key
      · intro name
        have hung := List.forall₂_iff_zip.mp (held.chain name)
        refine List.forall₂_iff_zip.mpr ⟨hung.1, fun {child part} member => ?_⟩
        rcases Blueprint.exists_slot_of_mem_chain (List.of_mem_zip member).2 with
          ⟨slot, listed, inSlot⟩
        exact below_ih slot listed part inSlot (hung.2 member)
      · intro name child member
        exact stacked.parent?_eq member

/-- The nodes that hang nowhere are known from the chains. -/
theorem Arranged.topBlocks_eq_of_mem_iff {order : NodeId → Nat}
    (arranged : workspace.Arranged chains order) {roots : List NodeId}
    (ascending : roots.Pairwise (· < ·))
    (loose : ∀ id, id ∈ roots ↔
      id < workspace.size ∧ ∀ owner name, id ∉ chains owner name) :
    workspace.topBlocks = roots := by
  apply arranged.topBlocks_ascending.eq_of_mem_iff ascending
  intro id
  rw [arranged.mem_topBlocks, loose]
  refine and_congr_right fun _ => ⟨?_, ?_⟩
  · intro none owner name member
    cases none.symm.trans (arranged.parent?_eq member)
  · intro nowhere
    rw [Option.eq_none_iff_forall_ne_some]
    intro owner parent
    rcases arranged.exists_mem_of_parent? parent with ⟨name, member⟩
    exact nowhere owner name member

end Workspace

namespace BlockFile

open Blueprint

/-- A file that loads without errors can be read back from the workspace. -/
theorem build_shows {blueprints : List Blueprint}
    (ordered : ∀ blueprint ∈ blueprints, blueprint.Ordered)
    {workspace : Workspace} (loaded : build blueprints = .ok workspace) :
    workspace.tree.Shows blueprints := by
  rcases build_eq_ok_iff.mp loaded with ⟨silent, rfl⟩
  have clean : fileViolations blueprints = [] := by
    rw [← List.map_eq_nil_iff, ← map_violation?_errors ordered, silent,
      List.map_nil]
  rcases exists_grows ordered with ⟨grown, roots, grows, ascending, placed⟩
  have chains : (Loading.loadAll blueprints).workspace.tree.chain = grown := by
    funext owner name
    exact grows.stacked.tree_chain_eq owner name
  have depicts : ∀ {id blueprint},
      StandsAt 0 (chainNodes blueprints) id blueprint →
        (Loading.loadAll blueprints).workspace.tree.Depicts id blueprint := by
    intro id blueprint stands
    have member : blueprint ∈ chainNodes blueprints :=
      List.mem_of_getElem? stands.2
    rw [chainNodes_eq] at member
    rcases List.mem_flatMap.mp member with ⟨top, isTop, inTop⟩
    subst chains
    exact Workspace.depicts_of_holds grows.stacked
      (fun stands => grows.holds clean stands)
      ((ordered top isTop).of_mem_nodes blueprint inTop) stands
  have topBlocks : (Loading.loadAll blueprints).workspace.topBlocks = roots := by
    apply grows.stacked.topBlocks_eq_of_mem_iff ascending
    intro id
    constructor
    · exact fun member => (grows.loose id member).2
    · rintro ⟨inside, nowhere⟩
      rcases grows.hangs clean (Nat.zero_le id) inside with
        isRoot | ⟨owner, name, member⟩
      · exact isRoot
      · exact absurd member (nowhere owner name)
  refine { size_eq := ?_, nodes := ?_, topBlocks := ?_ }
  · exact grows.size_eq.trans (Nat.zero_add _)
  · intro id blueprint found
    exact depicts ⟨Nat.zero_le id, found⟩
  · change List.Forall₂ _ (Loading.loadAll blueprints).workspace.topBlocks _
    rw [topBlocks]
    exact placed.imp fun _ _ => depicts

/-- An input with a dropdown and a group of two constraints. -/
def groupedInput : Blueprint where
  kind := .inputValue
  kindSpan := ⟨0, 1⟩
  fields := ⟨[("INPUTNAME", .text "CHOICE")]⟩
  slots :=
    [("FIELDS",
      [⟨.fieldDropdown, ⟨2, 3⟩, ⟨[("CPU0", .text "a"), ("SRC1", .text "b")]⟩, [],
        none, none⟩]),
      ("TYPE",
        [⟨.typeGroup, ⟨4, 5⟩, FieldTable.empty,
          [("TYPE0", [⟨.typeNumber, ⟨6, 7⟩, FieldTable.empty, [], none, none⟩]),
            ("TYPE2", [⟨.typeString, ⟨8, 9⟩, FieldTable.empty, [], none, none⟩])],
          none, some 2⟩])]
  options := none
  typeCount := none

theorem build_shows_grouped :
    ∃ workspace, build [groupedInput] = .ok workspace ∧
      workspace.size = 5 ∧ workspace.tree.Shows [groupedInput] := by
  have loaded : build [groupedInput] =
      .ok (Loading.loadAll [groupedInput]).workspace :=
    build_eq_ok_iff.mpr ⟨by decide +kernel, rfl⟩
  have ordered : ∀ blueprint ∈ [groupedInput], blueprint.Ordered := by
    rw [List.forall_mem_singleton]
    refine .intro (by decide) (by decide) ?_
    simp only [groupedInput, List.forall_mem_cons, List.not_mem_nil,
      false_implies, implies_true, and_true]
    refine ⟨.of_slots_eq_nil (by decide) rfl,
      .intro (by decide) (by decide) ?_⟩
    simp only [List.forall_mem_cons, List.not_mem_nil, false_implies,
      implies_true, and_true]
    exact ⟨.of_slots_eq_nil .nil rfl, .of_slots_eq_nil .nil rfl⟩
  exact ⟨_, loaded, by decide +kernel, build_shows ordered loaded⟩

end BlockFile

end BlockForge
