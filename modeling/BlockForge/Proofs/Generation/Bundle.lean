import BlockForge.Proofs.Generation.Artifact
import BlockForge.Proofs.Json.Layout

/-!
# Exports read back

An export is a document that holds other documents as texts: the definition of a
block, which is JSON itself, and its glue code.  Nothing of them is lost.
`bundle_reads_back` gives the value of the export of every artifact, and for a
workspace that edits build the value of the definition inside it.
-/

namespace BlockForge

open Json (Value)

/-- An export is read as the object of its entries, in their order. -/
theorem BlockExport.read?_toJson (bundle : BlockExport) :
    Json.read? bundle.toJson =
      some (.object (bundle.entries.map fun entry =>
        (entry.1, .string entry.2))) := by
  apply Json.read?_of_lays (Json.lays_object _)
  · exact fun _ => true
  · rw [List.forall₂_map_left_iff, List.forall₂_map_right_iff, List.forall₂_same]
    exact fun entry _ => ⟨rfl, Json.lays_quote entry.2⟩

/-- What an export calls the category of an option: its label, or the option
itself if no category is known by it. -/
def Category.exportedName (option : String) : String :=
  match ofOption? option with
  | some category => category.label
  | none => option

namespace BlockTree

/-- An export says what an artifact holds and what the tree says of its root. -/
structure Exports (tree : BlockTree) (root : NodeId) (artifact : Artifact)
    (exported : Value) : Prop where
  definition : ∃ warnings,
    Definition.generate? tree root = some (artifact.definition, warnings)
  glue : Glue.generate? tree root = some artifact.glue
  entries : exported = .object
    [("fileName", .string (artifact.glue.name ++ ".js")),
      ("category", .string
        (Category.exportedName (tree.text root FieldKey.blockCategory))),
      ("description", .string (tree.text root FieldKey.description)),
      ("jsonCode", .string artifact.definition.document),
      ("interpreterDeclaration", .string artifact.glue.declaration),
      ("jsCode", .string artifact.glue.body),
      ("customName", .string artifact.glue.name)]

theorem exports_of_generateAt? {tree : BlockTree} {root : NodeId}
    {generated : Generated}
    (generates : tree.generateAt? root = some generated) :
    ∃ exported, Json.read? generated.artifact.bundle.toJson = some exported ∧
      tree.Exports root generated.artifact exported := by
  refine ⟨_, BlockExport.read?_toJson _,
    { definition := ⟨_, definition_of_generateAt? generates⟩
      glue := glue_of_generateAt? generates
      entries := ?_ }⟩
  have category : ∀ option,
      ((Category.ofOption? option).map Category.label).getD option =
        Category.exportedName option := by
    intro option
    unfold Category.exportedName
    cases Category.ofOption? option <;> rfl
  rw [bundle_of_generateAt? generates]
  simp [exportBlock, BlockExport.entries, category]

/-- The definition in an export is found under its key. -/
theorem Exports.jsonCode {tree : BlockTree} {root : NodeId}
    {artifact : Artifact} {exported : Value}
    (exports : tree.Exports root artifact exported) :
    (exported.member? "jsonCode").bind Value.text? =
      some artifact.definition.document := by
  rw [exports.entries]
  rfl

/-- The export of every artifact is read as the object of its parts, and for a
tree that edits build, the definition inside is read as the value of its block. -/
theorem bundle_reads_back {tree : BlockTree} {generated : Generated}
    (generates : tree.generate? = some (.ok generated)) :
    ∃ root others exported, tree.roots = root :: others ∧
      Json.read? generated.artifact.bundle.toJson = some exported ∧
        tree.Exports root generated.artifact exported ∧
          ∀ {workspace : Workspace}, workspace.Reachable →
            workspace.tree = tree →
              ((exported.member? "jsonCode").bind Value.text?).bind
                  Json.read? =
                some (Definition.documentValue tree root) := by
  rcases exists_root_of_generate? generates with
    ⟨root, others, own, listed, generatesOwn, same⟩
  rcases exports_of_generateAt? generatesOwn with ⟨exported, reads, exports⟩
  rw [same] at reads exports
  refine ⟨root, others, exported, listed, reads, exports, ?_⟩
  rintro workspace reachable rfl
  rcases reachable.exists_lays generates with ⟨first, _, listedFirst, lays⟩
  rw [listed] at listedFirst
  cases listedFirst
  rw [exports.jsonCode, Option.bind_some, Json.read?_of_lays lays]

theorem bundle_reads_back_sample :
    ∃ generated, (Workspace.run Workspace.sampleEdits).tree.generate? =
        some (.ok generated) ∧
      ∃ root others exported,
        (Workspace.run Workspace.sampleEdits).tree.roots = root :: others ∧
          Json.read? generated.artifact.bundle.toJson = some exported ∧
            (Workspace.run Workspace.sampleEdits).tree.Exports root
                generated.artifact exported ∧
              ((exported.member? "jsonCode").bind Value.text?).bind
                  Json.read? =
                some (Definition.documentValue
                  (Workspace.run Workspace.sampleEdits).tree root) := by
  have reachable : (Workspace.run Workspace.sampleEdits).Reachable :=
    ⟨Workspace.sampleEdits, rfl⟩
  rcases reachable.exists_generate? Workspace.kind?_run_sampleEdits with
    ⟨generated, generates⟩
  rcases bundle_reads_back generates with
    ⟨root, others, exported, listed, reads, exports, definition⟩
  exact ⟨generated, generates, root, others, exported, listed, reads, exports,
    definition reachable rfl⟩

end BlockTree

end BlockForge
