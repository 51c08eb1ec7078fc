import BlockForge.Proofs.Generation.Isolation

/-!
# Artifacts of trees

An artifact holds what the two generators give for one block, the first root of
its tree.  `exists_root_of_generate?` takes an artifact apart, whatever the links
of the tree are; a workspace that edits build has an artifact if it has a block
creator (`Reachable.exists_generate?`).
-/

namespace BlockForge

namespace BlockTree

variable {tree : BlockTree}

/-! ## The parts of an artifact -/

/-- An artifact holds the definition of its block, and all warnings come up with
it. -/
theorem definition_of_generateAt? {root : NodeId} {generated : Generated}
    (generates : tree.generateAt? root = some generated) :
    Definition.generate? tree root =
      some (generated.artifact.definition, generated.warnings) := by
  rcases Option.bind_eq_some_iff.mp generates with
    ⟨⟨definition, warnings⟩, defines, rest⟩
  rcases Option.bind_eq_some_iff.mp rest with ⟨⟨glue, others⟩, glues, made⟩
  have silent : others = [] := (Glue.withWarnings?_clean glues).2
  subst silent
  cases made
  exact defines

/-- An artifact holds the glue code of its block. -/
theorem glue_of_generateAt? {root : NodeId} {generated : Generated}
    (generates : tree.generateAt? root = some generated) :
    Glue.generate? tree root = some generated.artifact.glue := by
  rcases Option.bind_eq_some_iff.mp generates with ⟨_, _, rest⟩
  rcases Option.bind_eq_some_iff.mp rest with ⟨⟨glue, others⟩, glues, made⟩
  cases made
  rw [Glue.generate?, glues]
  rfl

theorem bundle_of_generateAt? {root : NodeId} {generated : Generated}
    (generates : tree.generateAt? root = some generated) :
    generated.artifact.bundle =
      tree.exportBlock root generated.artifact.definition
        generated.artifact.glue := by
  rcases Option.bind_eq_some_iff.mp generates with ⟨_, _, rest⟩
  rcases Option.bind_eq_some_iff.mp rest with ⟨glue, _, made⟩
  cases made
  rfl

/-- What is generated from a tree is the artifact of its first root. -/
theorem exists_root_of_generate? {generated : Generated}
    (generates : tree.generate? = some (.ok generated)) :
    ∃ root others own, tree.roots = root :: others ∧
      tree.generateAt? root = some own ∧
        own.artifact = generated.artifact := by
  unfold generate? at generates
  split at generates
  · cases generates
  · rename_i root others listed
    rcases Option.bind_eq_some_iff.mp generates with ⟨own, generatesOwn, made⟩
    cases made
    exact ⟨root, others, own, listed, generatesOwn, rfl⟩

theorem kind_of_mem_roots {root : NodeId} (member : root ∈ tree.roots) :
    tree.kind root = some .blockCreator :=
  of_decide_eq_true (List.mem_filter.mp member).2

/-! ## Trees with an artifact -/

/-- A tree with a root has an artifact. -/
theorem exists_generate? {rank : NodeId → Nat} (coherent : tree.Coherent rank)
    (rooted : tree.roots ≠ []) :
    ∃ generated, tree.generate? = some (.ok generated) := by
  cases listed : tree.roots with
  | nil => exact absurd listed rooted
  | cons root others =>
      have creator : tree.kind root = some .blockCreator :=
        kind_of_mem_roots (by simp [listed])
      rcases Workspace.exists_generateAt? coherent creator with
        ⟨generated, generates, _⟩
      simp [generate?, listed, generates]

end BlockTree

namespace Workspace

/-- From every workspace that edits build an artifact is generated, if there is
a block creator. -/
theorem Reachable.exists_generate? {workspace : Workspace}
    (reachable : workspace.Reachable) {root : NodeId}
    (creator : workspace.kind? root = some .blockCreator) :
    ∃ generated, workspace.tree.generate? = some (.ok generated) := by
  rcases reachable with ⟨edits, rfl⟩
  rcases exists_arranged_run edits with ⟨order, arranged, bounded⟩
  apply BlockTree.exists_generate? (arranged.coherent bounded)
  exact List.ne_nil_of_mem (arranged.mem_roots.mpr creator)

/-- Something is generated from every workspace that edits build, an artifact or
an error. -/
theorem Reachable.exists_outcome {workspace : Workspace}
    (reachable : workspace.Reachable) :
    ∃ outcome, workspace.tree.generate? = some outcome := by
  rcases reachable with ⟨edits, rfl⟩
  rcases exists_coherent_run edits with ⟨rank, coherent⟩
  by_cases rooted : (run edits).tree.roots = []
  · exact ⟨.error .noRoot, by simp [BlockTree.generate?, rooted]⟩
  · rcases BlockTree.exists_generate? coherent rooted with
      ⟨generated, generates⟩
    exact ⟨.ok generated, generates⟩

/-- The document in an artifact of a workspace that edits build lays out the
value of its block. -/
theorem Reachable.exists_lays {workspace : Workspace}
    (reachable : workspace.Reachable) {generated : Generated}
    (generates : workspace.tree.generate? = some (.ok generated)) :
    ∃ root others, workspace.tree.roots = root :: others ∧
      Json.Lays Json.NumberLiteral.isPlain generated.artifact.definition.document
        (Definition.documentValue workspace.tree root) := by
  rcases reachable with ⟨edits, rfl⟩
  rcases exists_coherent_run edits with ⟨rank, coherent⟩
  rcases BlockTree.exists_root_of_generate? generates with
    ⟨root, others, own, listed, generatesOwn, same⟩
  have creator : (run edits).tree.kind root = some .blockCreator :=
    BlockTree.kind_of_mem_roots (by simp [listed])
  rcases Definition.exists_laid coherent creator with
    ⟨definition, defines, lays⟩
  rw [BlockTree.definition_of_generateAt? generatesOwn] at defines
  rw [← (Prod.mk.inj (Option.some.inj defines)).1, same] at lays
  exact ⟨root, others, listed, lays⟩

end Workspace

end BlockForge
