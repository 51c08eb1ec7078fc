import BlockForge.Proofs.Generation.Artifact
import BlockForge.Proofs.Generation.Mending

/-!
# The warnings about a block

Whatever edits build a workspace, the warnings about its first block creator are
known: one if there are several block creators, one for each fault, and one if
the block has nothing to show.

The faults of a block can be overwritten by further edits, which change the
workspace in nothing else (`Arranged.mends_mending`); the definition stays the
same then.  `run_warnings_exact` puts both together.
-/

namespace BlockForge

namespace Workspace

/-! ## Overwriting faults -/

open Definition (FieldFault faults Mends)

/-- Edits that overwrite faults with what new nodes hold in their places. -/
def overwriting (tree : BlockTree) (faults : List FieldFault) : List Edit :=
  faults.map fun fault => .setField fault.node fault.key (fault.standard tree)

/-- Edits that overwrite the faults of a block. -/
def mending (workspace : Workspace) (root : NodeId) : List Edit :=
  overwriting workspace.tree (faults workspace.tree root)

theorem bare_overwriting (tree : BlockTree) (faults : List FieldFault) :
    ∀ workspace : Workspace,
      (workspace.afterAll (overwriting tree faults)).bare = workspace.bare := by
  unfold overwriting afterAll
  induction faults with
  | nil => exact fun _ => rfl
  | cons fault faults faults_ih =>
      intro workspace
      rw [List.map_cons, List.foldl_cons, faults_ih, bare_setField]

/-- Each place holds its new value afterwards, and no other place is touched. -/
theorem field_overwriting (tree : BlockTree) {faults : List FieldFault} :
    ∀ {workspace : Workspace}, (∀ fault ∈ faults, fault.node < workspace.size) →
      (faults.map FieldFault.place).Nodup →
        (∀ fault ∈ faults,
          (workspace.afterAll (overwriting tree faults)).tree.field fault.node
            fault.key = some (fault.standard tree)) ∧
        ∀ {node key}, (node, key) ∉ faults.map FieldFault.place →
          (workspace.afterAll (overwriting tree faults)).tree.field node key =
            workspace.tree.field node key := by
  unfold overwriting afterAll
  induction faults with
  | nil =>
      intro workspace _ _
      exact ⟨fun _ member => (nomatch member), fun _ => rfl⟩
  | cons fault faults faults_ih =>
      intro workspace inside distinct
      rw [List.forall_mem_cons] at inside
      rw [List.map_cons, List.nodup_cons] at distinct
      have size_eq : (workspace.after (.setField fault.node fault.key
          (fault.standard tree))).size = workspace.size :=
        size_eq_of_bare_eq (workspace.bare_setField _ _ _)
      rcases faults_ih (size_eq ▸ inside.2) distinct.2 with ⟨overwritten, kept⟩
      rw [List.map_cons, List.foldl_cons]
      constructor
      · intro other member
        rcases List.mem_cons.mp member with rfl | later
        · rw [kept distinct.1, field_setField inside.1, if_pos rfl]
        · exact overwritten other later
      · intro node key untouched
        rw [List.map_cons, List.mem_cons, not_or] at untouched
        rw [kept untouched.2, field_setField inside.1]
        exact if_neg untouched.1

section

variable {workspace : Workspace} {root : NodeId} {order : NodeId → Nat}
  (arranged : workspace.Arranged workspace.tree.chain order)

include arranged

/-- The arguments of a block are different nodes: the parent of a field is its
item, and the parent of an item is the block. -/
theorem Arranged.nodup_argumentNodes :
    (workspace.tree.argumentNodes root).Nodup := by
  have items := List.nodup_cons.mp (arranged.nodup root Slot.inputs)
  have item_or_parent : ∀ {item id}, id ∈ workspace.tree.argumentsOf item →
      id = item ∨ workspace.parent? id = some item := by
    intro item id member
    rcases List.mem_append.mp member with isField | own
    · exact .inr (arranged.parent?_eq isField)
    · split_ifs at own
      · cases own
      · exact .inl (List.mem_singleton.mp own)
  have not_parent : ∀ {item other},
      item ∈ workspace.tree.items root → other ∈ workspace.tree.items root →
        workspace.parent? item ≠ some other := by
    intro item other inItems otherInItems parent
    rw [arranged.parent?_eq inItems, Option.some_inj] at parent
    exact items.1 (parent ▸ otherInItems)
  rw [BlockTree.argumentNodes, List.nodup_flatMap]
  constructor
  · intro item _
    have fields := List.nodup_cons.mp (arranged.nodup item Slot.fields)
    rw [BlockTree.argumentsOf]
    split_ifs
    · rw [List.append_nil]
      exact fields.2
    · refine List.nodup_append.mpr ⟨fields.2, List.nodup_singleton item, ?_⟩
      intro id isField other own
      rw [List.mem_singleton.mp own]
      exact ne_of_mem_of_not_mem isField fields.1
  · apply items.2.imp_of_mem
    intro first second inFirst inSecond differs id ofFirst ofSecond
    rcases item_or_parent ofFirst with rfl | parent <;>
      rcases item_or_parent ofSecond with rfl | otherParent
    · exact differs rfl
    · exact not_parent inFirst inSecond otherParent
    · exact not_parent inSecond inFirst parent
    · exact differs (Option.some_inj.mp (parent.symm.trans otherParent))

/-- The edits overwrite the faults of a block and change nothing else. -/
theorem Arranged.mends_mending :
    Mends workspace.tree root
      (workspace.afterAll (workspace.mending root)).tree.field := by
  have inside : ∀ fault ∈ faults workspace.tree root,
      fault.node < workspace.size := by
    intro fault member
    rcases Definition.exists_kind_of_mem_readings
      (Definition.mem_faults.mp member).2.1 with ⟨kind, ofKind, _⟩
    exact lt_size_of_kind? ofKind
  rcases field_overwriting workspace.tree inside
    (Definition.nodup_place_faults arranged.nodup_argumentNodes) with
    ⟨overwritten, kept⟩
  exact ⟨overwritten, kept⟩

end

/-! ## Exact warnings -/

/-- What is warned about if there are several block creators. -/
def severalRoots (workspace : Workspace) (root : NodeId) : List Warning :=
  if 1 < workspace.creatorCount then
    [⟨.multipleRoots workspace.creatorCount, root⟩]
  else []

/-- What is warned about if a document has no placeholder. -/
def nothingShown (document : Json.Value) (root : NodeId) : List Warning :=
  if document.member? "message0" = none then [⟨.noLiveFields, root⟩] else []

/-- The warnings about the block that is generated from a workspace. -/
structure ExactWarnings (workspace : Workspace) (root : NodeId)
    (generated : Generated) : Prop where
  /-- They tell that there are several block creators, then name the faults of
  the block, then tell that it has nothing to show. -/
  warnings_eq : ∃ document,
    Json.read? generated.artifact.definition.document = some document ∧
      generated.warnings = workspace.severalRoots root ++
        ((faults workspace.tree root).map FieldFault.warning ++
          nothingShown document root)
  /-- Apart from the first, they come up with the definition. -/
  ofDefinition : ∃ warnings,
    Definition.generate? workspace.tree root =
        some (generated.artifact.definition, warnings) ∧
      generated.warnings = workspace.severalRoots root ++ warnings
  /-- None comes up with the glue code. -/
  glueSilent : Glue.withWarnings? workspace.tree root =
    some (generated.artifact.glue, [])
  distinct : (generated.warnings.map Warning.problem).Nodup
  noMissingSlot : ∀ warning ∈ generated.warnings, ∀ node slot,
    warning.problem ≠ .missingRequiredSlot node slot
  /-- The definition is the one that is generated where the faults are
  overwritten; then there are none. -/
  mended : ∃ other : Generated,
    (workspace.afterAll (workspace.mending root)).tree.generate? =
        some (.ok other) ∧
      other.artifact.definition = generated.artifact.definition ∧
        faults (workspace.afterAll (workspace.mending root)).tree root = []

section

variable {workspace : Workspace} {root : NodeId} {order : NodeId → Nat}

theorem nothingShown_documentValue (tree : BlockTree) (root : NodeId) :
    nothingShown (Definition.documentValue tree root) root =
      if tree.argumentNodes root = [] then [⟨.noLiveFields, root⟩] else [] := by
  rw [nothingShown, (Definition.member?_documentValue tree root).1,
    Definition.argumentValues]
  by_cases none : tree.argumentNodes root = [] <;> simp [none]

/-- What is generated for the first block creator, and the warnings about it. -/
theorem Arranged.exists_generated
    (arranged : workspace.Arranged workspace.tree.chain order)
    (bounded : ∀ id, order id ≤ workspace.size)
    (creator : workspace.kind? root = some .blockCreator)
    (first : ∀ id < root, workspace.kind? id ≠ some .blockCreator) :
    ∃ generated : Generated, workspace.tree.generate? = some (.ok generated) ∧
      Definition.generate? workspace.tree root =
          some (generated.artifact.definition,
            Definition.documentReports workspace.tree root) ∧
        Glue.generate? workspace.tree root = some generated.artifact.glue ∧
        Json.read? generated.artifact.definition.document =
            some (Definition.documentValue workspace.tree root) ∧
          generated.warnings = workspace.severalRoots root ++
            Definition.documentReports workspace.tree root := by
  have coherent := arranged.coherent bounded
  rcases exists_generateAt? coherent creator with ⟨alone, generatesAt, _⟩
  rcases Definition.exists_generated coherent creator with
    ⟨definition, defines, reads⟩
  rw [Definition.foldl_addTo_documentReports arranged.nodup_argumentNodes]
    at defines
  have same := (BlockTree.definition_of_generateAt? generatesAt).symm.trans defines
  rw [Option.some_inj, Prod.mk.injEq] at same
  have glues := BlockTree.glue_of_generateAt? generatesAt
  rcases arranged.exists_roots creator first with ⟨others, _, count⟩
  have several : (alone.among workspace.creatorCount root).warnings =
      workspace.severalRoots root ++ alone.warnings := by
    rw [Generated.among, severalRoots]
    by_cases one : workspace.creatorCount = 1
    · simp [one]
    · have more : 1 < workspace.creatorCount := by omega
      simp [one, more]
  refine ⟨alone.among workspace.creatorCount root,
    arranged.generate?_eq creator first generatesAt, ?_, glues, ?_, ?_⟩
  · rw [defines]
    exact congrArg (fun made => some (made, _)) same.1.symm
  · rw [← reads]
    exact congrArg (fun made : Definition => Json.read? made.document) same.1
  · rw [several, same.2]

/-- Where only the faults of a block are overwritten, its definition is the same
and no fault is left. -/
theorem Arranged.exists_mended {other : Workspace}
    {otherOrder : NodeId → Nat}
    (arranged : other.Arranged other.tree.chain otherOrder)
    (bounded : ∀ id, otherOrder id ≤ other.size)
    (same : other.bare = workspace.bare)
    (mends : Mends workspace.tree root other.tree.field)
    (creator : workspace.kind? root = some .blockCreator)
    (first : ∀ id < root, workspace.kind? id ≠ some .blockCreator)
    {definition : Definition} {warnings : List Warning}
    (defines : Definition.generate? workspace.tree root =
      some (definition, warnings)) :
    ∃ mended : Generated, other.tree.generate? = some (.ok mended) ∧
      mended.artifact.definition = definition ∧ faults other.tree root = [] := by
  have tree_eq := tree_eq_withFields same
  have kind_eq : other.kind? = workspace.kind? := congrArg BlockTree.kind tree_eq
  have otherCreator : other.kind? root = some .blockCreator := by
    rw [kind_eq]
    exact creator
  rcases arranged.exists_generated bounded otherCreator (by rwa [kind_eq]) with
    ⟨mended, generates, otherDefines, _⟩
  have definition_eq := mends.generate?_eq creator
  have faults_eq := mends.faults_eq_nil
  rw [← tree_eq] at definition_eq faults_eq
  rw [otherDefines, defines] at definition_eq
  exact ⟨mended, generates, Option.some_inj.mp definition_eq, faults_eq⟩

end

theorem mem_severalRoots {workspace : Workspace} {root : NodeId}
    {warning : Warning} (member : warning ∈ workspace.severalRoots root) :
    warning = ⟨.multipleRoots workspace.creatorCount, root⟩ := by
  unfold severalRoots at member
  split_ifs at member
  · exact List.mem_singleton.mp member
  · cases member

/-- The warnings about a block are about different problems, and none is about a
missing slot. -/
theorem distinct_warnings {workspace : Workspace} {root : NodeId}
    (distinct : (workspace.tree.argumentNodes root).Nodup)
    {warnings : List Warning} (warnings_eq : warnings =
      workspace.severalRoots root ++
        Definition.documentReports workspace.tree root) :
    (warnings.map Warning.problem).Nodup ∧
      ∀ warning ∈ warnings, ∀ node slot,
        warning.problem ≠ .missingRequiredSlot node slot := by
  subst warnings_eq
  constructor
  · rw [List.map_append, List.nodup_append]
    refine ⟨?_, Definition.nodup_problem_documentReports distinct, ?_⟩
    · rw [severalRoots]
      split_ifs <;> simp
    · intro first ofRoots second ofReports
      rcases List.mem_map.mp ofRoots with ⟨several, inRoots, rfl⟩
      rcases List.mem_map.mp ofReports with ⟨report, inReports, rfl⟩
      rw [mem_severalRoots inRoots]
      rcases Definition.mem_documentReports inReports with
        ⟨fault, _, rfl⟩ | rfl <;>
        exact Problem.noConfusion
  · intro warning member node slot
    rcases List.mem_append.mp member with inRoots | inReports
    · rw [mem_severalRoots inRoots]
      exact Problem.noConfusion
    · rcases Definition.mem_documentReports inReports with
        ⟨fault, _, rfl⟩ | rfl <;>
        exact Problem.noConfusion

/-- Whatever edits build a workspace, the warnings about its first block creator
are exact. -/
theorem run_warnings_exact (edits : List Edit) {root : NodeId}
    (creator : (run edits).kind? root = some .blockCreator)
    (first : ∀ id < root, (run edits).kind? id ≠ some .blockCreator) :
    ∃ generated, (run edits).tree.generate? = some (.ok generated) ∧
      ExactWarnings (run edits) root generated := by
  rcases exists_arranged_run edits with ⟨order, arranged, bounded⟩
  rcases arranged.exists_generated bounded creator first with
    ⟨generated, generates, defines, glues, reads, warnings_eq⟩
  rcases exists_arranged_run (edits ++ (run edits).mending root) with
    ⟨newOrder, newArranged, newBounded⟩
  rw [run_append] at newArranged newBounded
  have mended := newArranged.exists_mended newBounded
    (bare_overwriting _ _ (run edits)) arranged.mends_mending creator first defines
  rcases distinct_warnings arranged.nodup_argumentNodes warnings_eq with
    ⟨distinct, noMissingSlot⟩
  refine ⟨generated, generates,
    { warnings_eq := ⟨_, reads, ?_⟩
      ofDefinition := ⟨_, defines, warnings_eq⟩
      glueSilent := Glue.generate?_eq_some_iff.mp glues
      distinct
      noMissingSlot
      mended }⟩
  rw [warnings_eq, Definition.documentReports_eq, nothingShown_documentValue]

/-- Edits that build two block creators; fields of the first one hold values
without a reading. -/
def faultyEdits : List Edit :=
  sampleEdits ++
    [.addNode .blockCreator, .addNode .numericInput, .addNode .fieldCheckbox,
      .addNode .fieldDropdown, .attach 5 "FIELDS" 8, .attach 5 "FIELDS" 9,
      .attach 5 "FIELDS" 10, .setMutation 10 (.dropdown [.image]),
      .setField 8 "MAX" (.bool true), .setField 8 "VALUE" (.text "ten"),
      .setField 9 "CHECKED" (.text "maybe"), .setField 10 "WIDTH0" (.text "")]

theorem kind?_run_faultyEdits :
    (run faultyEdits).kind? 0 = some .blockCreator := by
  decide +kernel

theorem run_warnings_exact_faulty :
    (run faultyEdits).kind? 0 = some .blockCreator ∧
      (∀ id < 0, (run faultyEdits).kind? id ≠ some .blockCreator) ∧
      (faults (run faultyEdits).tree 0).map FieldFault.place =
        [(8, "VALUE"), (8, "MAX"), (9, "CHECKED"), (10, "WIDTH0")] ∧
      ∃ generated, (run faultyEdits).tree.generate? = some (.ok generated) ∧
        ExactWarnings (run faultyEdits) 0 generated := by
  have first : ∀ id < 0, (run faultyEdits).kind? id ≠ some .blockCreator :=
    fun _ before => absurd before (Nat.not_lt_zero _)
  refine ⟨kind?_run_faultyEdits, first, by decide +kernel, ?_⟩
  exact run_warnings_exact faultyEdits kind?_run_faultyEdits first

end Workspace

end BlockForge
