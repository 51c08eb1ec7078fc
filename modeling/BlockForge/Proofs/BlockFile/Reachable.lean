import BlockForge.Proofs.BlockFile.NewNode

/-!
# Loaded workspaces are reachable

Loading a file edits a workspace and does nothing else to it, so what is known
of all workspaces that edits build is known of the workspace of every file.
`Loading.reachable_perform` is the step, and `BlockFile.reachable_load` follows
from it by induction on the blueprints of a file.
-/

namespace BlockForge

/-- An edit of a reachable workspace gives a reachable workspace. -/
theorem Workspace.Reachable.perform {workspace edited : Workspace}
    (reachable : workspace.Reachable) {edit : Edit}
    (succeeds : workspace.perform edit = .ok edited) : edited.Reachable := by
  rcases reachable with ⟨edits, rfl⟩
  refine ⟨edits ++ [edit], ?_⟩
  rw [run_append]
  change edited = (run edits).after edit
  rw [after, succeeds]

namespace Loading

theorem reachable_perform {loading : Loading}
    (reachable : loading.workspace.Reachable) (span : Span)
    (problem : EditError → LoadProblem) (edit : Edit) :
    (loading.perform span problem edit).workspace.Reachable := by
  cases performed : loading.workspace.perform edit with
  | ok edited =>
      rw [perform_ok performed]
      exact reachable.perform performed
  | error reason =>
      rw [perform_error performed]
      exact reachable

theorem reachable_foldl_perform {α : Type} (span : Span)
    (problem : EditError → LoadProblem) (edit : α → Edit) (entries : List α) :
    ∀ {loading : Loading}, loading.workspace.Reachable →
      (entries.foldl (fun loading entry =>
        loading.perform span problem (edit entry)) loading).workspace.Reachable := by
  induction entries with
  | nil => exact fun reachable => reachable
  | cons entry entries entries_ih =>
      exact fun reachable =>
        entries_ih (reachable_perform reachable span problem (edit entry))

theorem reachable_addNode {loading : Loading}
    (reachable : loading.workspace.Reachable) (blueprint : Blueprint) :
    (loading.addNode blueprint).workspace.Reachable := by
  have filled := reachable_foldl_perform blueprint.kindSpan .edit
    (fun field : String × FieldValue =>
      .setField loading.workspace.size field.1 field.2)
    blueprint.fields.entries
    (reachable_perform reachable blueprint.kindSpan .edit
      (.addNode blueprint.kind))
  unfold addNode
  dsimp only
  rw [foldl_report]
  split
  · apply reachable_perform
    exact filled
  · exact filled

mutual

theorem reachable_load {loading : Loading}
    (reachable : loading.workspace.Reachable) :
    ∀ blueprint, (loading.load blueprint).workspace.Reachable
  | ⟨_, _, _, slots, _, _⟩ => by
      rw [load]
      exact reachable_loadSlots (reachable_addNode reachable _) _ _ slots

theorem reachable_loadSlots {loading : Loading}
    (reachable : loading.workspace.Reachable) (owner : Blueprint) (id : NodeId) :
    ∀ slots, (loadSlots owner id loading slots).workspace.Reachable
  | [] => by
      rw [loadSlots]
      exact reachable
  | (name, chain) :: rest => by
      rw [loadSlots]
      exact reachable_loadSlots
        (reachable_loadChain reachable owner id name chain) owner id rest

theorem reachable_loadChain {loading : Loading}
    (reachable : loading.workspace.Reachable) (owner : Blueprint) (id : NodeId)
    (name : String) :
    ∀ chain, (loadChain owner id name loading chain).workspace.Reachable
  | [] => by
      rw [loadChain]
      exact reachable
  | blueprint :: rest => by
      rw [loadChain]
      exact reachable_loadChain
        (reachable_perform (reachable_load reachable blueprint) _ _ _)
        owner id name rest

end

end Loading

namespace BlockFile

theorem reachable_build {blueprints : List Blueprint} {workspace : Workspace}
    (builds : build blueprints = .ok workspace) : workspace.Reachable := by
  have loaded : ∀ {loading : Loading}, loading.workspace.Reachable →
      (blueprints.foldl Loading.load loading).workspace.Reachable := by
    clear builds
    induction blueprints with
    | nil => exact fun reachable => reachable
    | cons blueprint rest rest_ih =>
        exact fun reachable =>
          rest_ih (Loading.reachable_load reachable blueprint)
  rw [build, Loading.result] at builds
  split at builds
  · cases builds
    exact loaded ⟨[], rfl⟩
  · cases builds

/-- The workspace of every file that loads is one that edits can build. -/
theorem reachable_load {source : String} {workspace : Workspace}
    (loads : load source = .ok workspace) : workspace.Reachable := by
  unfold load at loads
  split at loads
  · cases loads
  · split at loads
    · cases loads
    · exact reachable_build loads

end BlockFile

end BlockForge
