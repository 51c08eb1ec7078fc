import BlockForge.Proofs.BlockFile.Growth

/-!
# Loading a node

Before anything is loaded into its slots, a node of a file is added, it gets its
fields and its mutation, and what is wrong with its settings is reported.
`Loading.addNode_eq` says all of this in one step.

By `Grows.enclose`, a workspace that grows by what hangs in the slots of a new
node grows by the node with everything that hangs in it.
-/

namespace BlockForge

namespace Blueprint

/-- A new node gets its fields and its mutation. -/
def furnish (blueprint : Blueprint) (node : Node) : Node :=
  let filled :=
    { node with fields := node.fields.insertAll blueprint.fields.entries }
  match blueprint.mutation? with
  | some mutation => filled.setMutation mutation
  | none => filled

theorem keeps_furnish (blueprint : Blueprint) (node : Node) :
    node.Keeps (blueprint.furnish node) := by
  unfold furnish
  cases blueprint.mutation? with
  | none => exact node.keeps_fields _
  | some mutation =>
      exact (node.keeps_fields _).trans (Node.keeps_setMutation _ mutation)

theorem mutation?_of_ne {blueprint : Blueprint}
    (other : blueprint.kind ≠ .typeGroup) (count : Nat) :
    blueprint.mutation? ≠ some (.typeGroup count) := by
  unfold mutation?
  split
  · simp
  · contradiction
  · simp

/-- A furnished node is what the file says. -/
theorem label_furnish (blueprint : Blueprint) (id : NodeId) :
    (blueprint.furnish (Node.ofKind id blueprint.kind)).label =
      blueprint.label := by
  have start : (Node.ofKind id blueprint.kind).slots.map Slot.name =
      blueprint.kind.slotsWith 0 := by
    simp [Node.ofKind, Kind.slotsWith, Function.comp_def]
  unfold Node.label label furnish slotNames
  by_cases group : blueprint.kind = .typeGroup
  · have mutation : blueprint.mutation? =
        some (.typeGroup blueprint.groupSize) := by
      rw [mutation?, group, memberCount_eq]
    have names := Node.map_name_growSlots start blueprint.groupSize
    rw [Nat.zero_max] at names
    rw [mutation, if_pos group, ← names]
    rfl
  · rw [if_neg group, ← start]
    cases mutation : blueprint.mutation? with
    | none => rfl
    | some setting =>
        cases setting with
        | dropdown _ => rfl
        | typeGroup count => exact absurd mutation (mutation?_of_ne group count)

end Blueprint

namespace Loading

open Blueprint (StandsAt)

variable {before : Loading} {chains : NodeId → String → List NodeId}

/-! ## Adding a node -/

/-- Setting fields one after the other furnishes the node with all of them. -/
theorem foldl_setField {id : NodeId} (span : Span)
    (fields : List (String × FieldValue)) :
    ∀ loading : Loading, id < loading.workspace.size →
      fields.foldl (fun loading field =>
          loading.perform span .edit (.setField id field.1 field.2)) loading =
        { loading with
          workspace := loading.workspace.modify id fun node =>
            { node with fields := node.fields.insertAll fields } } := by
  induction fields with
  | nil =>
      intro loading _
      simp [FieldTable.insertAll]
  | cons field fields fields_ih =>
      intro loading inside
      have succeeds :
          loading.workspace.perform (.setField id field.1 field.2) = _ :=
        if_pos inside
      rw [List.foldl_cons, perform_ok succeeds, fields_ih _ (by simpa),
        Workspace.modify_modify]
      rfl

theorem foldl_report (span : Span) (problems : List LoadProblem) :
    ∀ loading : Loading,
      problems.foldl (fun loading problem => loading.report span problem)
          loading =
        { loading with
          errors := loading.errors ++ problems.map (⟨·, span⟩) } := by
  induction problems with
  | nil => simp
  | cons problem problems problems_ih =>
      intro loading
      rw [List.foldl_cons, problems_ih]
      simp [Loading.report]

/-- A node is added and furnished, and its strays are reported. -/
theorem addNode_eq (loading : Loading) (blueprint : Blueprint) :
    loading.addNode blueprint =
      { workspace :=
          (loading.workspace.addNode blueprint.kind).modify
            loading.workspace.size blueprint.furnish
        errors :=
          loading.errors ++ blueprint.strays.map (⟨·, blueprint.kindSpan⟩) } := by
  have added : loading.workspace.perform (.addNode blueprint.kind) = _ := rfl
  have inside : loading.workspace.size <
      (loading.workspace.addNode blueprint.kind).size := by simp
  unfold addNode Blueprint.furnish
  dsimp only
  rw [perform_ok added, foldl_setField _ _ _ inside, foldl_report]
  cases blueprint.mutation? with
  | none => rfl
  | some mutation =>
      have succeeds : ∀ workspace : Workspace,
          loading.workspace.size < workspace.size →
            workspace.perform
              (.setMutation loading.workspace.size mutation) = _ :=
        fun _ bound => if_pos bound
      dsimp only
      rw [perform_ok (succeeds _ (by simp)),
        Workspace.modify_modify]

@[simp]
theorem size_addNode (loading : Loading) (blueprint : Blueprint) :
    (loading.addNode blueprint).workspace.size = loading.workspace.size + 1 := by
  simp [addNode_eq]

theorem label?_addNode (loading : Loading) (blueprint : Blueprint)
    (id : NodeId) :
    (loading.addNode blueprint).workspace.label? id =
      if id = loading.workspace.size then some blueprint.label
      else loading.workspace.label? id := by
  rw [addNode_eq, Workspace.label?, Workspace.node?_modify,
    Workspace.node?_addNode]
  split_ifs with new
  · rw [← blueprint.label_furnish id]
    rfl
  · simp [Workspace.label?]

theorem addNode_stacked (stacked : before.workspace.Stacked chains)
    (blueprint : Blueprint) :
    (before.addNode blueprint).workspace.Stacked chains := by
  rw [addNode_eq]
  exact (stacked.addNode blueprint.kind).modify _ blueprint.keeps_furnish

theorem violation?_strays (blueprint : Blueprint) :
    (blueprint.strays.map fun problem =>
        (⟨problem, blueprint.kindSpan⟩ : LoadError)).map
          LoadError.violation? =
      (blueprint.settingFaults.map fun fault =>
        (⟨fault, blueprint.kindSpan⟩ : Violation)).map some := by
  have faults := congrArg (List.map (Option.map fun fault =>
    (⟨fault, blueprint.kindSpan⟩ : Violation))) blueprint.map_fault?_strays
  simpa [Function.comp_def, LoadError.violation?] using faults

/-- A node and what its slots are loaded with make one part of the file. -/
theorem Grows.enclose {blueprint : Blueprint} {violations : List Violation}
    {after : Loading} {grown : NodeId → String → List NodeId}
    (stacked : before.workspace.Stacked chains)
    (grows : (before.addNode blueprint).Grows chains
      (fun owner _ => owner = before.workspace.size)
      (Blueprint.slotNodes blueprint.slots) violations [] after grown)
    (slots : violations = [] → ∀ name,
      List.Forall₂
        (StandsAt (before.workspace.size + 1)
          (Blueprint.slotNodes blueprint.slots))
        (grown before.workspace.size name) (blueprint.chain name)) :
    before.Grows chains (fun _ _ => False) blueprint.nodes
      (blueprint.settingFaults.map (fun fault => ⟨fault, blueprint.kindSpan⟩)
        ++ violations)
      [before.workspace.size] after grown := by
  have sizes := grows.size_eq
  rw [size_addNode] at sizes
  have labels : ∀ {id : Nat}, id ≤ before.workspace.size →
      after.workspace.label? id =
        (before.addNode blueprint).workspace.label? id := by
    intro id least
    apply grows.label_eq
    rw [size_addNode]
    omega
  have nowhere : ∀ owner name, before.workspace.size ∉ grown owner name := by
    apply grows.notMem_grown (by simp)
    intro owner name member
    exact absurd (stacked.lt_size_of_mem member) (lt_irrefl _)
  rw [blueprint.nodes_eq]
  refine
    { stacked := grows.stacked, size_eq := ?_, label_eq := ?_, added := ?_,
      kept := ?_, errors_eq := ?_, loose := ?_, holds := ?_, hangs := ?_ }
  · rw [sizes, List.length_cons]
    omega
  · intro id old
    rw [labels old.le, label?_addNode, if_neg old.ne]
  · intro owner name
    rcases grows.added owner name with ⟨added, equal, later⟩
    refine ⟨added, equal, fun id member => ?_⟩
    have bound := later id member
    rw [size_addNode] at bound
    omega
  · intro owner name old _
    exact grows.kept (by rw [size_addNode]; omega) old.ne
  · rcases grows.errors_eq with ⟨found, errors, reported⟩
    refine
      ⟨blueprint.strays.map (⟨·, blueprint.kindSpan⟩) ++ found, ?_, ?_⟩
    · rw [errors, addNode_eq, List.append_assoc]
    · rw [List.map_append, violation?_strays, reported, List.map_append]
  · intro id member
    rw [List.mem_singleton.mp member]
    exact ⟨le_rfl, by omega, nowhere⟩
  · intro clean id part stands
    rw [List.append_eq_nil_iff] at clean
    rcases stands.of_cons with ⟨rfl, rfl⟩ | later
    · refine ⟨?_, fun name => (slots clean.2 name).imp fun _ _ => StandsAt.tail⟩
      rw [labels le_rfl, label?_addNode, if_pos rfl]
    · have held := grows.holds clean.2 (by rwa [size_addNode])
      rw [size_addNode] at held
      exact held.tail
  · intro clean id least inside
    rw [List.append_eq_nil_iff] at clean
    by_cases same : id = before.workspace.size
    · exact .inl (List.mem_singleton.mpr same)
    · right
      have later : (before.addNode blueprint).workspace.size ≤ id := by
        rw [size_addNode]
        omega
      rcases grows.hangs clean.2 later inside with none | hanging
      · cases none
      · exact hanging

end Loading

end BlockForge
