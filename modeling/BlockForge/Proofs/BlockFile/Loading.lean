import BlockForge.Proofs.BlockFile.NewNode

/-!
# Loading reports what is wrong with a file

Loading goes through a file in depth: a node is added, then what hangs in its
slots is loaded and attached child by child.  Every part of it makes the
workspace grow by what it loads; `Blueprint.Loads` states this for a node, and
the induction on the file puts the parts together.

The main theorem is `build_reports`.  The errors of a file are the violations
that can be read off it, each one once and in order, although loading goes on
after an error with the rejected node left out.
-/

namespace BlockForge

namespace Blueprint

open Loading

/-- Wherever a node is loaded, the workspace grows by it. -/
def Loads (blueprint : Blueprint) : Prop :=
  ∀ {before : Loading} {chains : NodeId → String → List NodeId},
    before.workspace.Stacked chains →
      ∃ grown,
        before.Grows chains (fun _ _ => False) blueprint.nodes
            blueprint.violations [before.workspace.size]
            (before.load blueprint) grown ∧
          (before.load blueprint).workspace.label? before.workspace.size =
            some blueprint.label

/-- The nodes of a slot are loaded and attached one after the other.  Those that
are accepted come to the end of the chain. -/
theorem exists_grows_loadChain {owner : Blueprint} {id : Nat}
    {chain : List Blueprint} (loads : ∀ child ∈ chain, child.Loads)
    (name : String) :
    ∀ {before : Loading} {chains : NodeId → String → List NodeId},
      before.workspace.Stacked chains →
        before.workspace.label? id = some owner.label →
          ∃ grown added,
            before.Grows chains (fun other slot => other = id ∧ slot = name)
                (chainNodes chain)
                (owner.chainViolations name (decide (chains id name ≠ []))
                  chain)
                [] (loadChain owner id name before chain) grown ∧
              grown id name = chains id name ++ added ∧
              (owner.chainViolations name (decide (chains id name ≠ []))
                  chain = [] →
                List.Forall₂
                  (StandsAt before.workspace.size (chainNodes chain))
                  added chain) := by
  induction chain with
  | nil =>
      intro before chains stacked _
      refine ⟨chains, [], ?_, by simp, fun _ => .nil⟩
      simpa [chainNodes, chainViolations, loadChain] using Grows.refl stacked
  | cons child rest rest_ih =>
      intro before chains stacked ownerLabel
      rw [List.forall_mem_cons] at loads
      have old := Workspace.lt_size_of_label? ownerLabel
      rcases loads.1 stacked with ⟨loaded, grows, childLabel⟩
      rcases grows.attach stacked ownerLabel childLabel name rfl with
        ⟨attached, attaches, accepted⟩
      rcases rest_ih loads.2 attaches.stacked
        ((attaches.label_eq old).trans ownerLabel) with
        ⟨grown, added, more, chain_eq, placed⟩
      rw [chainNodes, chainViolations, loadChain]
      generalize judged : owner.childFault? name (decide (chains id name ≠ []))
        child = fault at *
      have taken : decide (attached id name ≠ []) =
          (decide (chains id name ≠ []) || fault.isNone) := by
        rw [accepted]
        cases fault <;> simp
      rw [taken] at more placed
      refine
        ⟨grown, (if fault = none then [before.workspace.size] else []) ++ added,
          attaches.trans more ?_, ?_, ?_⟩
      · rintro other slot ⟨rfl, _⟩
        exact old
      · rw [chain_eq, accepted, List.append_assoc]
      · intro clean
        simp only [List.append_eq_nil_iff] at clean
        have sound : fault = none := by
          cases fault with
          | none => rfl
          | some fault => exact absurd clean.1.2 (by simp)
        rw [if_pos sound]
        refine .cons ?_ ((placed clean.2).imp fun _ _ stands => ?_)
        · rw [child.nodes_eq]
          exact StandsAt.head
        · rw [attaches.size_eq] at stands
          exact stands.right

/-- The slots of a node are loaded one after the other, each of them once. -/
theorem exists_grows_loadSlots {owner : Blueprint} {id : Nat}
    {slots : List (String × List Blueprint)}
    (distinct : (slots.map Prod.fst).Nodup)
    (loads : ∀ slot ∈ slots, ∀ child ∈ slot.2, child.Loads) :
    ∀ {before : Loading} {chains : NodeId → String → List NodeId},
      before.workspace.Stacked chains →
        before.workspace.label? id = some owner.label →
          (∀ slot ∈ slots, chains id slot.1 = []) →
            ∃ grown, ∃ added : String → List NodeId,
              before.Grows chains (fun other _ => other = id) (slotNodes slots)
                  (owner.slotViolations slots) []
                  (loadSlots owner id before slots) grown ∧
                (∀ name, grown id name = chains id name ++ added name) ∧
                (owner.slotViolations slots = [] → ∀ name,
                  List.Forall₂
                    (StandsAt before.workspace.size (slotNodes slots))
                    (added name) ((slots.lookup name).getD [])) := by
  induction slots with
  | nil =>
      intro before chains stacked _ _
      refine ⟨chains, fun _ => [], ?_, by simp, fun _ _ => .nil⟩
      simpa [slotNodes, slotViolations, loadSlots] using Grows.refl stacked
  | cons slot rest rest_ih =>
      rcases slot with ⟨slot, chain⟩
      intro before chains stacked ownerLabel empty
      rw [List.map_cons, List.nodup_cons] at distinct
      rw [List.forall_mem_cons] at loads empty
      dsimp only at distinct loads empty
      have old := Workspace.lt_size_of_label? ownerLabel
      rcases exists_grows_loadChain loads.1 slot stacked ownerLabel
        with ⟨first, hung, grows, hung_eq, placed⟩
      have others : ∀ {name}, name ≠ slot → first id name = chains id name :=
        fun differs => grows.kept old fun here => differs here.2
      have emptyRest : ∀ slot ∈ rest, first id slot.1 = [] := by
        intro other member
        have differs : other.1 ≠ slot := fun same =>
          distinct.1 (List.mem_map.mpr ⟨other, member, same⟩)
        rw [others differs, empty.2 other member]
      rcases rest_ih distinct.2 loads.2 grows.stacked
        ((grows.label_eq old).trans ownerLabel) emptyRest with
        ⟨grown, added, more, added_eq, spread⟩
      simp only [empty.1, ne_eq, not_true_eq_false, decide_false] at grows placed
      rw [slotNodes, slotViolations, loadSlots]
      refine
        ⟨grown, fun name => (if name = slot then hung else []) ++ added name,
          (grows.weaken fun _ _ => And.left).trans more ?_, ?_, ?_⟩
      · rintro other name rfl
        exact old
      · intro name
        rw [added_eq]
        dsimp only
        by_cases same : name = slot
        · rw [if_pos same, same, hung_eq, List.append_assoc]
        · rw [if_neg same, others same, List.nil_append]
      · intro clean name
        rw [List.append_eq_nil_iff] at clean
        have later := spread clean.2 name
        rw [grows.size_eq] at later
        dsimp only
        -- The name of the first slot does not come up again in the rest.
        by_cases same : name = slot
        · rw [same, lookup_eq_none_of_notMem distinct.1] at later
          rw [if_pos same, same, List.forall₂_nil_right_iff.mp later,
            List.append_nil, List.lookup_cons_self]
          exact (placed clean.1).imp fun _ _ => StandsAt.left
        · have unlike : (name == slot) = false := beq_false_of_ne same
          rw [if_neg same, List.nil_append, List.lookup_cons, unlike]
          exact later.imp fun _ _ => StandsAt.right

theorem load_eq (loading : Loading) (blueprint : Blueprint) :
    loading.load blueprint =
      loadSlots blueprint loading.workspace.size (loading.addNode blueprint)
        blueprint.slots := by
  cases blueprint
  rw [load]

/-- By induction on the file, every node is loaded. -/
theorem Ordered.loads {blueprint : Blueprint} (ordered : blueprint.Ordered) :
    blueprint.Loads := by
  induction ordered with
  | @intro blueprint fields slots below below_ih =>
      intro before chains stacked
      rcases exists_grows_loadSlots (nodup_of_ascending slots) below_ih
        (addNode_stacked stacked blueprint)
        (by rw [label?_addNode, if_pos rfl])
        (fun slot _ => stacked.chain_eq_nil le_rfl slot.1) with
        ⟨grown, added, grows, added_eq, placed⟩
      rw [load_eq, violations_eq]
      refine ⟨grown, grows.enclose stacked ?_, ?_⟩
      · intro clean name
        have hung := placed clean name
        rw [size_addNode] at hung
        rw [added_eq, stacked.chain_eq_nil le_rfl, List.nil_append]
        exact hung
      · rw [grows.label_eq (by simp), label?_addNode, if_pos rfl]

/-- The nodes that hang nowhere are loaded one after the other. -/
theorem exists_grows_loadAll {blueprints : List Blueprint}
    (ordered : ∀ blueprint ∈ blueprints, blueprint.Ordered) :
    ∀ {before : Loading} {chains : NodeId → String → List NodeId},
      before.workspace.Stacked chains →
        ∃ grown roots,
          before.Grows chains (fun _ _ => False) (chainNodes blueprints)
              (fileViolations blueprints) roots (blueprints.foldl load before)
              grown ∧
            roots.Pairwise (· < ·) ∧
            List.Forall₂
              (StandsAt before.workspace.size (chainNodes blueprints)) roots
              blueprints := by
  induction blueprints with
  | nil =>
      intro before chains stacked
      exact ⟨chains, [], Grows.refl stacked, .nil, .nil⟩
  | cons blueprint rest rest_ih =>
      intro before chains stacked
      rw [List.forall_mem_cons] at ordered
      rcases ordered.1.loads stacked with ⟨loaded, grows, _⟩
      rcases rest_ih ordered.2 grows.stacked with
        ⟨grown, roots, more, ascending, placed⟩
      rw [chainNodes, fileViolations, List.flatMap_cons, List.foldl_cons]
      have sizes := grows.size_eq
      refine ⟨grown, before.workspace.size :: roots, grows.trans more ?_,
        List.pairwise_cons.mpr ⟨?_, ascending⟩, .cons ?_ ?_⟩
      · exact fun none => none.elim
      · intro id member
        have later := (more.loose id member).1
        rw [sizes, blueprint.nodes_eq, List.length_cons] at later
        exact Nat.lt_of_lt_of_le
          (Nat.lt_add_of_pos_right (Nat.succ_pos _)) later
      · rw [blueprint.nodes_eq]
        exact StandsAt.head
      · rw [sizes] at placed
        exact placed.imp fun _ _ stands => stands.right

end Blueprint

namespace BlockFile

open Blueprint

/-- The workspace of a file grows out of nothing. -/
theorem exists_grows {blueprints : List Blueprint}
    (ordered : ∀ blueprint ∈ blueprints, blueprint.Ordered) :
    ∃ grown roots,
      Loading.start.Grows (fun _ _ => []) (fun _ _ => False)
          (chainNodes blueprints) (fileViolations blueprints) roots
          (Loading.loadAll blueprints) grown ∧
        roots.Pairwise (· < ·) ∧
        List.Forall₂ (StandsAt 0 (chainNodes blueprints)) roots blueprints :=
  exists_grows_loadAll ordered (Workspace.Arranged.empty fun id => id)

theorem map_violation?_errors {blueprints : List Blueprint}
    (ordered : ∀ blueprint ∈ blueprints, blueprint.Ordered) :
    (Loading.loadAll blueprints).errors.map LoadError.violation? =
      (fileViolations blueprints).map some := by
  rcases exists_grows ordered with ⟨grown, roots, grows, _⟩
  rcases grows.errors_eq with ⟨found, errors_eq, reported⟩
  rw [errors_eq]
  exact reported

theorem build_eq_ok_iff {blueprints : List Blueprint} {workspace : Workspace} :
    build blueprints = .ok workspace ↔
      (Loading.loadAll blueprints).errors = [] ∧
        (Loading.loadAll blueprints).workspace = workspace := by
  rw [build, Loading.result]
  cases (Loading.loadAll blueprints).errors <;> simp

theorem build_eq_error_iff {blueprints : List Blueprint}
    {errors : List LoadError} :
    build blueprints = .error errors ↔
      errors ≠ [] ∧ (Loading.loadAll blueprints).errors = errors := by
  rw [build, Loading.result]
  cases (Loading.loadAll blueprints).errors with
  | nil => simp [eq_comm]
  | cons error errors =>
      simp only [List.isEmpty_cons, Bool.false_eq_true, if_false,
        Except.error.injEq]
      exact ⟨fun equal => ⟨equal ▸ List.cons_ne_nil _ _, equal⟩, And.right⟩

/-- A failed edit is a fault only if a node is misplaced. -/
theorem exists_misplaced_of_fault? {reason : EditError} {fault : Fault}
    (isFault : (LoadProblem.edit reason).fault? = some fault) :
    ∃ child kind slot, reason = .misplaced child kind slot := by
  cases reason with
  | misplaced child kind slot => exact ⟨child, kind, slot, rfl⟩
  | unknownNode | unknownSlot | alreadyAttached | cycle | slotFull =>
      cases isFault

/-- Loading fails if something is wrong with a node of the file, and then the
errors are the violations of the file in order.  None of them is about a node
that is attached already, about a cycle or about an unknown node. -/
theorem build_reports {blueprints : List Blueprint}
    (ordered : ∀ blueprint ∈ blueprints, blueprint.Ordered) :
    ((∃ errors, build blueprints = .error errors) ↔
        fileViolations blueprints ≠ []) ∧
      ∀ {errors}, build blueprints = .error errors →
        errors.map LoadError.violation? =
            (fileViolations blueprints).map some ∧
          ∀ error ∈ errors, ∀ reason, error.problem = .edit reason →
            ∃ child kind slot, reason = .misplaced child kind slot := by
  have reported := map_violation?_errors ordered
  constructor
  · have silent : (Loading.loadAll blueprints).errors = [] ↔
        fileViolations blueprints = [] := by
      rw [← List.map_eq_nil_iff, reported, List.map_eq_nil_iff]
    rw [Ne, ← silent]
    simp [build_eq_error_iff]
  · intro errors fails
    rcases build_eq_error_iff.mp fails with ⟨_, rfl⟩
    refine ⟨reported, ?_⟩
    intro error member reason about
    have told : error.violation? ∈ (fileViolations blueprints).map some := by
      rw [← reported]
      exact List.mem_map_of_mem member
    rcases List.mem_map.mp told with ⟨violation, _, told_eq⟩
    rcases Option.map_eq_some_iff.mp told_eq.symm with ⟨fault, isFault, _⟩
    rw [about] at isFault
    exact exists_misplaced_of_fault? isFault

/-- An input with a stray setting and with two constraints in a slot for one. -/
def crowdedInput : Blueprint where
  kind := .inputValue
  kindSpan := ⟨0, 1⟩
  fields := FieldTable.empty
  slots :=
    [("TYPE",
      [⟨.typeNumber, ⟨2, 3⟩, FieldTable.empty, [], none, none⟩,
        ⟨.typeString, ⟨4, 5⟩, FieldTable.empty, [], none, none⟩])]
  options := none
  typeCount := some 2

theorem build_reports_crowded :
    ∃ errors, build [crowdedInput] = .error errors ∧
      errors.map LoadError.violation? =
        [some ⟨.strayTypeCount .inputValue, ⟨0, 1⟩⟩,
          some ⟨.slotFull "TYPE" .inputValue, ⟨4, 5⟩⟩] := by
  have ordered : ∀ blueprint ∈ [crowdedInput], blueprint.Ordered := by
    rw [List.forall_mem_singleton]
    refine .intro .nil (List.pairwise_singleton _ _) ?_
    simp only [crowdedInput, List.forall_mem_cons, List.not_mem_nil,
      false_implies, implies_true, and_true]
    exact ⟨.of_slots_eq_nil .nil rfl, .of_slots_eq_nil .nil rfl⟩
  have violations : fileViolations [crowdedInput] =
      [⟨.strayTypeCount .inputValue, ⟨0, 1⟩⟩,
        ⟨.slotFull "TYPE" .inputValue, ⟨4, 5⟩⟩] := by
    decide +kernel
  have reports := build_reports ordered
  rcases reports.1.mpr (by rw [violations]; simp) with ⟨errors, fails⟩
  refine ⟨errors, fails, (reports.2 fails).1.trans ?_⟩
  rw [violations]
  rfl

end BlockFile

end BlockForge
