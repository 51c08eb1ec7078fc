import BlockForge.Proofs.Generation.Isolation
import Mathlib.Data.List.Sort

/-!
# The block that is generated

Of the block creators that edits add, the first one is generated.  A block
creator fits no slot, so it hangs nowhere and is a root, whatever attachments are
tried; an edit adds at most one root, behind those that are there.

`Arranged.roots_after` is the step, `Arranged.exists_roots_afterAll` the run, and
`run_selects_root` lists what this means for what is generated.
-/

namespace BlockForge

theorem Edit.newKind?_eq_some {edit : Edit} {kind : Kind} :
    edit.newKind? = some kind ↔ edit = .addNode kind := by
  cases edit <;> simp [newKind?]

namespace Workspace

section

variable {workspace : Workspace} {chains : NodeId → String → List NodeId}
  {order : NodeId → Nat}

/-- An edit leaves the roots as they are; a new block creator becomes the last
of them. -/
theorem Arranged.roots_after (arranged : workspace.Arranged chains order)
    (edit : Edit) :
    (workspace.after edit).tree.roots =
      workspace.tree.roots ++
        if edit = .addNode .blockCreator then [workspace.size] else [] := by
  rcases exists_arranged_after arranged edit with ⟨_, _, next⟩
  apply next.roots_ascending.eq_of_mem_iff
  · rw [List.pairwise_append]
    refine ⟨arranged.roots_ascending, by split_ifs <;> simp, ?_⟩
    intro root isRoot new isNew
    have inside := lt_size_of_kind? (arranged.mem_roots.mp isRoot)
    split_ifs at isNew
    · rwa [List.mem_singleton.mp isNew]
    · cases isNew
  · intro id
    rw [next.mem_roots, arranged.kind?_after_eq, List.mem_append,
      arranged.mem_roots]
    by_cases last : id = workspace.size
    · have absent : workspace.kind? id = none := by
        rw [kind?, last, node?_eq_none le_rfl, Option.map_none]
      rw [if_pos last, Edit.newKind?_eq_some, absent, last]
      split_ifs with adds <;> simp [adds]
    · rw [if_neg last]
      split_ifs <;> simp [last]

/-- Edits leave the roots as they are, and the block creators that they add come
behind them. -/
theorem Arranged.exists_roots_afterAll (edits : List Edit) :
    ∀ {workspace : Workspace} {chains order},
      workspace.Arranged chains order →
        ∃ added, (workspace.afterAll edits).tree.roots =
            workspace.tree.roots ++ added ∧
          added.length = edits.count (.addNode .blockCreator) := by
  unfold afterAll
  induction edits with
  | nil =>
      intro workspace _ _ _
      exact ⟨[], (List.append_nil _).symm, rfl⟩
  | cons edit edits edits_ih =>
      intro workspace chains order arranged
      rcases exists_arranged_after arranged edit with ⟨_, _, next⟩
      rcases edits_ih next with ⟨added, roots, count⟩
      rw [List.foldl_cons, roots, arranged.roots_after, List.append_assoc]
      refine ⟨_, rfl, ?_⟩
      rw [List.length_append, count, List.count_cons, Nat.add_comm]
      by_cases adds : edit = .addNode .blockCreator <;> simp [adds]

end

/-- What is generated from the workspace that edits build is the block of the
first block creator that they add. -/
structure SelectsRoot (edits : List Edit) : Prop where
  /-- The roots are all block creators, in the order of the workspace. -/
  roots_eq : (run edits).tree.roots =
    (List.range (run edits).size).filter fun id =>
      (run edits).kind? id = some .blockCreator
  count_eq : (run edits).creatorCount = edits.count (.addNode .blockCreator)
  fails_iff : (∃ problem, (run edits).tree.generate? = some (.error problem)) ↔
    .addNode .blockCreator ∉ edits
  noRoot : ∀ {problem}, (run edits).tree.generate? = some (.error problem) →
    problem = .noRoot
  /-- The only warning about several block creators tells how many there are. -/
  generates : .addNode .blockCreator ∈ edits → ∃ root generated,
    (run edits).kind? root = some .blockCreator ∧
      (∀ id < root, (run edits).kind? id ≠ some .blockCreator) ∧
      (run edits).tree.generateAt? root = some generated ∧
      (∀ warning ∈ generated.warnings, ∀ count,
        warning.problem ≠ .multipleRoots count) ∧
      (run edits).tree.generate? =
        some (.ok (generated.among (run edits).creatorCount root))
  /-- Later edits take no root away and put none before another, and only a new
  block creator adds one. -/
  kept : ∀ later, ∃ added,
    (run (edits ++ later)).tree.roots = (run edits).tree.roots ++ added ∧
      added.length = later.count (.addNode .blockCreator)

/-- Whatever edits build a workspace, generation fails only if they add no block
creator; otherwise the first one is generated.  No attachment hides a block
creator or changes which one is the first. -/
theorem run_selects_root (edits : List Edit) : SelectsRoot edits := by
  rcases exists_arranged_run edits with ⟨order, arranged, bounded⟩
  have count_eq : (run edits).creatorCount =
      edits.count (.addNode .blockCreator) := by
    rcases Arranged.exists_roots_afterAll edits
      (Arranged.empty fun _ => 0) with ⟨added, roots, count⟩
    rw [← arranged.length_roots, ← count, run, roots]
    rfl
  have generates : .addNode .blockCreator ∈ edits → ∃ root generated,
      (run edits).kind? root = some .blockCreator ∧
        (∀ id < root, (run edits).kind? id ≠ some .blockCreator) ∧
        (run edits).tree.generateAt? root = some generated ∧
        (∀ warning ∈ generated.warnings, ∀ count,
          warning.problem ≠ .multipleRoots count) ∧
        (run edits).tree.generate? =
          some (.ok (generated.among (run edits).creatorCount root)) := by
    intro adds
    have nonempty : (run edits).tree.roots ≠ [] := by
      rw [← List.length_pos_iff, arranged.length_roots, count_eq]
      exact List.count_pos_iff.mpr adds
    rcases List.exists_cons_of_ne_nil nonempty with ⟨root, others, roots⟩
    have ascending := arranged.roots_ascending
    rw [roots] at ascending
    have creator : (run edits).kind? root = some .blockCreator := by
      rw [← arranged.mem_roots, roots]
      exact List.mem_cons_self
    have first : ∀ id < root, (run edits).kind? id ≠ some .blockCreator := by
      intro id before other
      rw [← arranged.mem_roots, roots, List.mem_cons] at other
      rcases other with same | later
      · exact before.ne same
      · exact before.asymm (List.rel_of_pairwise_cons ascending later)
    rcases exists_generateAt? (arranged.coherent bounded) creator with
      ⟨generated, generatesAt, alone⟩
    exact ⟨root, generated, creator, first, generatesAt, alone,
      arranged.generate?_eq creator first generatesAt⟩
  have fails : .addNode .blockCreator ∉ edits →
      (run edits).tree.generate? = some (.error .noRoot) := by
    intro none
    have empty : (run edits).tree.roots = [] := by
      rw [← List.length_eq_zero_iff, arranged.length_roots, count_eq]
      exact List.count_eq_zero.mpr none
    rw [BlockTree.generate?, empty]
  refine
    { roots_eq := arranged.roots_eq_filter
      count_eq
      fails_iff := ⟨?_, fun none => ⟨_, fails none⟩⟩
      noRoot := ?_
      generates
      kept := ?_ }
  · rintro ⟨problem, failed⟩ adds
    rcases generates adds with ⟨_, _, _, _, _, _, succeeds⟩
    cases failed.symm.trans succeeds
  · intro problem failed
    by_cases adds : .addNode .blockCreator ∈ edits
    · rcases generates adds with ⟨_, _, _, _, _, _, succeeds⟩
      cases failed.symm.trans succeeds
    · cases failed.symm.trans (fails adds)
      rfl
  · intro later
    rw [run_append]
    exact Arranged.exists_roots_afterAll later arranged

end Workspace

end BlockForge
