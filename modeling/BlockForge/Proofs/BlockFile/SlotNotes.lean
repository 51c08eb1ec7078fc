import BlockForge.Proofs.BlockFile.Depiction
import BlockForge.Proofs.BlockFile.Steps

/-!
# Remarks about unknown slots

An error about an unknown slot lists the slots of the node.  The list is made
from what the file gives, not from the node: it has the slots of the kind and
the members of a type group up to the number that the file gives.  The node also
has the member slots that the file only uses, so the list is the beginning of
the slots of the node, and it can end too early.

`build_notes_slots` looks at the node at the moment of the error and says when
the list is complete; `build_notes_no_slots` is a file for which it is empty
although the node has a slot.
-/

namespace BlockForge

theorem Kind.slotsWith_prefix (kind : Kind) {fewer more : Nat}
    (less : fewer ≤ more) : kind.slotsWith fewer <+: kind.slotsWith more := by
  rcases Nat.exists_eq_add_of_le less with ⟨others, rfl⟩
  rw [slotsWith, slotsWith, List.range_add, List.map_append,
    ← List.append_assoc]
  exact List.prefix_append ..

theorem Kind.slotsWith_inj (kind : Kind) {first second : Nat} :
    kind.slotsWith first = kind.slotsWith second ↔ first = second := by
  refine ⟨fun same => ?_, fun same => by rw [same]⟩
  simpa [slotsWith] using congrArg List.length same

namespace Blueprint

/-- The number of members that a file gives covers the member slots that it
uses. -/
def CountsMembers (blueprint : Blueprint) : Prop :=
  blueprint.kind = .typeGroup → ∀ slot ∈ blueprint.slots, ∀ index,
    slotIndex? slot.1 = some index → index < blueprint.typeCount.getD 0

theorem max?_getD_le_iff {numbers : List Nat} {bound : Nat} :
    numbers.max?.getD 0 ≤ bound ↔ ∀ number ∈ numbers, number ≤ bound := by
  cases most : numbers.max? with
  | none =>
      rw [List.max?_eq_none_iff] at most
      simp [most]
  | some greatest => exact List.max?_le_iff most

theorem groupSize_eq_iff (blueprint : Blueprint) :
    blueprint.typeCount.getD 0 = blueprint.groupSize ↔
      ∀ slot ∈ blueprint.slots, ∀ index,
        slotIndex? slot.1 = some index →
          index < blueprint.typeCount.getD 0 := by
  rw [groupSize, eq_comm, max_eq_left_iff, max?_getD_le_iff]
  constructor
  · intro most slot member index found
    exact most (index + 1)
      (List.mem_map_of_mem (List.mem_filterMap.mpr ⟨slot, member, found⟩))
  · intro covers number member
    rcases List.mem_map.mp member with ⟨index, isIndex, rfl⟩
    rcases List.mem_filterMap.mp isIndex with ⟨slot, inSlots, found⟩
    exact covers slot inSlots index found

theorem listedSlots_eq (blueprint : Blueprint) :
    blueprint.listedSlots = blueprint.kind.slotsWith
      (if blueprint.kind = .typeGroup then blueprint.typeCount.getD 0
      else 0) := by
  unfold listedSlots Kind.slotsWith
  split_ifs <;> rfl

/-- The list of slots in a remark is the beginning of the slots of the node. -/
theorem listedSlots_prefix (blueprint : Blueprint) :
    blueprint.listedSlots <+: blueprint.slotNames := by
  rw [listedSlots_eq, slotNames]
  apply Kind.slotsWith_prefix
  split_ifs
  · exact Nat.le_max_left ..
  · exact le_rfl

/-- The list is complete if the file gives a number of members that covers those
that it uses. -/
theorem listedSlots_eq_iff (blueprint : Blueprint) :
    blueprint.listedSlots = blueprint.slotNames ↔
      blueprint.CountsMembers := by
  rw [listedSlots_eq, slotNames, Kind.slotsWith_inj, CountsMembers]
  split_ifs with group
  · simp only [group, true_implies]
    exact blueprint.groupSize_eq_iff
  · simp [group]

/-- A remark about an unknown slot of a node, compared with the slots that the
node has. -/
structure NotesSlots (owner : Blueprint) (notes names : List String) :
    Prop where
  notes_eq : notes =
    [if owner.listedSlots = [] then owner.kind.tag ++ " nodes have no slots"
    else owner.kind.tag ++ " nodes have: "
      ++ ", ".intercalate owner.listedSlots]
  listed_prefix : owner.listedSlots <+: names
  listed_eq_iff : owner.listedSlots = names ↔ owner.CountsMembers

theorem notesSlots (owner : Blueprint) (slot : String) :
    owner.NotesSlots
      (LoadProblem.unknownSlot slot owner.kind owner.listedSlots).notes
      owner.slotNames where
  notes_eq := by
    cases owner.listedSlots <;> rfl
  listed_prefix := owner.listedSlots_prefix
  listed_eq_iff := owner.listedSlots_eq_iff

/-- Only a slot that is missing makes a problem of this kind. -/
theorem attachProblem_eq_unknownSlot {owner : Blueprint} {name slot : String}
    {reason : EditError} {kind : Kind} {listed : List String}
    (unknown : owner.attachProblem name reason =
      .unknownSlot slot kind listed) :
    (∃ node kind slot, reason = .unknownSlot node kind slot) ∧
      slot = name ∧ kind = owner.kind ∧ listed = owner.listedSlots := by
  cases reason with
  | unknownSlot node kind slot =>
      cases unknown
      exact ⟨⟨node, kind, slot, rfl⟩, rfl, rfl, rfl⟩
  | unknownNode | alreadyAttached | cycle | misplaced | slotFull => cases unknown

/-- Strays are no unknown slots. -/
theorem ne_unknownSlot_of_mem_strays {blueprint : Blueprint}
    {problem : LoadProblem} (member : problem ∈ blueprint.strays)
    (slot : String) (kind : Kind) (listed : List String) :
    problem ≠ .unknownSlot slot kind listed := by
  rintro rfl
  unfold strays at member
  split_ifs at member <;> simp at member

end Blueprint

/-- An attachment that finds no slot of a name looks at a node without it. -/
theorem Workspace.notMem_of_attach {workspace : Workspace} {id child : NodeId}
    {name : String} {label : Label} (labelled : workspace.label? id = some label)
    {node : NodeId} {kind : Kind} {slot : String}
    (fails : workspace.attach id name child =
      .error (.unknownSlot node kind slot)) : name ∉ label.slotNames := by
  rcases exists_node_of_label? labelled with ⟨owner, found, rfl⟩
  rw [← Node.slot?_eq_none_iff, Option.eq_none_iff_forall_ne_some]
  intro present located
  cases foundChild : workspace.node? child with
  | none =>
      simp only [attach, found, located, foundChild] at fails
      cases fails
  | some childNode =>
      rw [attach_of_found found located foundChild] at fails
      cases misfit : workspace.misfit? name (workspace.chainFrom child) with
      | some pair =>
          rw [misfit] at fails
          split_ifs at fails <;> cases fails
      | none =>
          rw [misfit] at fails
          split_ifs at fails <;> cases fails

namespace Loading

/-- The errors that a step notes. -/
def noted (loading : Loading) : LoadStep → List LoadError
  | .add blueprint =>
    blueprint.strays.map fun problem => ⟨problem, blueprint.kindSpan⟩
  | .attach owner id slot child childId =>
    match loading.workspace.perform (.attach id slot childId) with
    | .ok _ => []
    | .error reason => [⟨owner.attachProblem slot reason, child.kindSpan⟩]

theorem errors_step (loading : Loading) (taken : LoadStep) :
    (loading.step taken).errors = loading.errors ++ loading.noted taken := by
  cases taken with
  | add blueprint => rw [step, addNode_eq, noted]
  | attach owner id slot child childId =>
      rw [step, perform, noted]
      cases loading.workspace.perform (.attach id slot childId) with
      | ok edited => exact (List.append_nil _).symm
      | error reason => rfl

/-- Every error is noted by a step, after the errors before it. -/
theorem exists_step_of_errors {steps : List LoadStep} {loading : Loading}
    (clean : loading.errors = []) {error : LoadError} {earlier : List LoadError} :
    ∀ {later}, (steps.foldl step loading).errors = earlier ++ error :: later →
      ∃ before taken after front rest,
        steps = before ++ taken :: after ∧
          (before.foldl step loading).errors ++ front = earlier ∧
          (before.foldl step loading).noted taken = front ++ error :: rest := by
  induction steps using List.reverseRecOn with
  | nil =>
      intro later split
      rw [List.foldl_nil, clean] at split
      simp at split
  | append_singleton steps taken steps_ih =>
      intro later split
      rw [List.foldl_append, List.foldl_cons, List.foldl_nil,
        errors_step, List.append_eq_append_iff] at split
      rcases split with ⟨front, equal, noted⟩ | ⟨rest, earlierErrors, equal⟩
      · exact ⟨steps, taken, [], front, later, rfl, equal.symm, noted⟩
      · cases rest with
        | nil =>
            rw [List.append_nil] at earlierErrors
            exact ⟨steps, taken, [], [], later, rfl,
              (List.append_nil _).trans earlierErrors, equal.symm⟩
        | cons first rest =>
            cases (List.cons.inj equal).1
            rcases steps_ih earlierErrors with
              ⟨before, other, after, front, others, rfl, known, noted⟩
            exact ⟨before, other, after ++ [taken], front, others, by simp,
              known, noted⟩

/-- An unknown slot is noted when a child is attached, and it is missing then. -/
theorem exists_attach_of_noted {loading : Loading} {taken : LoadStep}
    (finds : loading.FindsOwner taken) {error : LoadError}
    {front rest : List LoadError}
    (notes : loading.noted taken = front ++ error :: rest) {slot : String}
    {kind : Kind} {listed : List String}
    (unknown : error.problem = .unknownSlot slot kind listed) :
    ∃ owner id child childId,
      taken = .attach owner id slot child childId ∧ front = [] ∧
        error = ⟨.unknownSlot slot owner.kind owner.listedSlots,
          child.kindSpan⟩ ∧
        loading.workspace.label? id = some owner.label ∧
        slot ∉ owner.slotNames := by
  cases taken with
  | add blueprint =>
      have member : error ∈ loading.noted (.add blueprint) := by
        rw [notes]
        simp
      rcases List.mem_map.mp member with ⟨problem, isStray, rfl⟩
      exact absurd unknown
        (Blueprint.ne_unknownSlot_of_mem_strays isStray slot kind listed)
  | attach owner id name child childId =>
      rw [noted] at notes
      cases performed : loading.workspace.perform (.attach id name childId) with
      | ok edited =>
          rw [performed] at notes
          simp at notes
      | error reason =>
          rw [performed, List.singleton_eq_append_iff] at notes
          rcases notes with ⟨rfl, same⟩ | ⟨_, impossible⟩
          · cases (List.cons.inj same).1
            rcases Blueprint.attachProblem_eq_unknownSlot unknown with
              ⟨⟨node, kind, slot, rfl⟩, rfl, _, _⟩
            exact ⟨owner, id, child, childId, rfl, rfl, rfl, finds,
              Workspace.notMem_of_attach finds performed⟩
          · cases impossible

theorem Labelled.findsOwner {loading : Loading} {before after : List LoadStep}
    {taken : LoadStep}
    (labelled : loading.Labelled (before ++ taken :: after)) :
    (before.foldl step loading).FindsOwner taken :=
  (labelled_append.mp labelled).2.1

end Loading

namespace BlockFile

open Loading (start step loadAll)

/-- An error about an unknown slot comes from a step that attaches a child, when
the errors before it were known.  At this moment the node has no such slot, and
the remark lists the first of the slots that it has: all of them exactly if the
number of members that the file gives covers those that it uses. -/
theorem build_notes_slots {blueprints : List Blueprint}
    {earlier later : List LoadError} {error : LoadError}
    (fails : build blueprints = .error (earlier ++ error :: later))
    {slot : String} {kind : Kind} {listed : List String}
    (unknown : error.problem = .unknownSlot slot kind listed) :
    ∃ before owner id child childId after,
      let steps := before ++ .attach owner id slot child childId :: after
      let moment := before.foldl step start
      steps = Blueprint.fileSteps 0 blueprints ∧
        steps.foldl step start = loadAll blueprints ∧
        moment.errors = earlier ∧
        error.span = child.kindSpan ∧
        moment.workspace.tree.kind id = some kind ∧
        slot ∉ moment.workspace.tree.slotNames id ∧
        owner.NotesSlots error.problem.notes
          (moment.workspace.tree.slotNames id) := by
  have runs := Loading.runs_foldl_load blueprints start
  have errors_eq : ((Blueprint.fileSteps 0 blueprints).foldl step start).errors =
      earlier ++ error :: later := by
    rw [Loading.foldl_fileSteps]
    exact (build_eq_error_iff.mp fails).2
  rcases Loading.exists_step_of_errors rfl errors_eq with
    ⟨before, taken, after, front, rest, split, known, noted⟩
  have labelled : start.Labelled (Blueprint.fileSteps 0 blueprints) :=
    runs.labelled
  rw [split] at labelled
  rcases Loading.exists_attach_of_noted labelled.findsOwner noted unknown with
    ⟨owner, id, child, childId, rfl, rfl, rfl, found, missing⟩
  rcases Workspace.tree_eq_of_label? found with ⟨ofKind, _, _, slotNames⟩
  cases unknown
  refine ⟨before, owner, id, child, childId, after, split.symm, ?_, ?_, rfl,
    ofKind, ?_, ?_⟩
  · rw [← split, Loading.foldl_fileSteps]
  · exact (List.append_nil _).symm.trans known
  · rw [slotNames]
    exact missing
  · rw [slotNames]
    exact owner.notesSlots slot

/-- A constraint in a slot of a group. -/
def grouped (span : Span) : Blueprint :=
  ⟨.typeNumber, span, FieldTable.empty, [], none, none⟩

/-- A type group with a member and with a child in a slot that no group has. -/
def strayGroup (typeCount : Option Nat) : Blueprint where
  kind := .typeGroup
  kindSpan := ⟨17, 29⟩
  fields := FieldTable.empty
  slots := [("FOO", [grouped ⟨58, 71⟩]), ("TYPE0", [grouped ⟨102, 115⟩])]
  options := none
  typeCount := typeCount

/-- With a number of members that covers the slot in use, the list is
complete. -/
theorem build_notes_slots_counted :
    build [strayGroup (some 1)] =
        .error [⟨.unknownSlot "FOO" .typeGroup ["TYPE0"], ⟨58, 71⟩⟩] ∧
      ∃ before owner id child childId after,
        let moment := before.foldl step start
        before ++ .attach owner id "FOO" child childId :: after =
            Blueprint.fileSteps 0 [strayGroup (some 1)] ∧
          "FOO" ∉ moment.workspace.tree.slotNames id ∧
          owner.NotesSlots ["type_group nodes have: TYPE0"]
            (moment.workspace.tree.slotNames id) := by
  have fails : build [strayGroup (some 1)] =
      .error ([] ++ ⟨.unknownSlot "FOO" .typeGroup ["TYPE0"], ⟨58, 71⟩⟩ :: []) :=
    build_eq_error_iff.mpr ⟨by simp, by decide +kernel⟩
  rcases build_notes_slots fails rfl with
    ⟨before, owner, id, child, childId, after, steps, _, _, _, _, missing,
      notes⟩
  exact ⟨fails, before, owner, id, child, childId, after, steps, missing, notes⟩

/-- Without a number the remark says that there are no slots, although the node
has the slot in use. -/
theorem build_notes_no_slots :
    build [strayGroup none] =
        .error [⟨.unknownSlot "FOO" .typeGroup [], ⟨58, 71⟩⟩] ∧
      (LoadProblem.unknownSlot "FOO" .typeGroup []).notes =
        ["type_group nodes have no slots"] ∧
      ∃ before after,
        before ++ .attach (strayGroup none) 0 "FOO" (grouped ⟨58, 71⟩) 1 ::
            after = Blueprint.fileSteps 0 [strayGroup none] ∧
          (before.foldl step start).workspace.tree.slotNames 0 = ["TYPE0"] :=
  ⟨build_eq_error_iff.mpr ⟨by simp, by decide +kernel⟩, by decide +kernel,
    [.add (strayGroup none), .add (grouped ⟨58, 71⟩)], _, rfl,
    by decide +kernel⟩

end BlockFile

end BlockForge
