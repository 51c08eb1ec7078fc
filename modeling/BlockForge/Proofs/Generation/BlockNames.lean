import BlockForge.Proofs.Generation.Artifact
import BlockForge.Proofs.Text.Lowering

/-!
# The two names of a block

The document and the glue code each clean the name that a user gave to a block.
The glue code cleans the name as it is; the document lowers it first and cleans
what comes out.  `generated_names_agree_iff` says for which names the type in the
document is the lower-case form of the name under which the glue code registers
the block.
-/

namespace BlockForge

/-! ## The names of an artifact -/

section

variable {tree : BlockTree} {root : NodeId}

theorem Definition.blockType_of_generate?
    (creator : tree.kind root = some .blockCreator) {definition : Definition}
    {warnings : List Warning}
    (generates : Definition.generate? tree root = some (definition, warnings)) :
    definition.blockType =
      Text.lowerName (tree.text root FieldKey.blockName) := by
  rcases Option.map_eq_some_iff.mp generates with ⟨_, _, made⟩
  cases made
  exact if_pos creator

theorem Glue.name_of_generate? (creator : tree.kind root = some .blockCreator)
    {glue : Glue} (generates : Glue.generate? tree root = some glue) :
    glue.name = Text.cleanName (tree.text root FieldKey.blockName) := by
  have withWarnings := Glue.generate?_eq_some_iff.mp generates
  rcases Option.map_eq_some_iff.mp withWarnings with ⟨⟨_, _, _⟩, _, made⟩
  cases made
  exact if_pos creator

/-- An artifact is named after the text that a user gave to its block. -/
structure Artifact.NamedAfter (artifact : Artifact) (name : String) :
    Prop where
  blockType_eq : artifact.definition.blockType = Text.lowerName name
  glueName_eq : artifact.glue.name = Text.cleanName name
  customName_eq : artifact.bundle.customName = artifact.glue.name
  /-- The names differ in the case of letters only, unless the text holds one of
  two characters. -/
  agree_iff :
    artifact.definition.blockType =
        Text.lowerVisible artifact.bundle.customName ↔
      ∀ char ∈ name.toList, char ≠ '\u212a' ∧ char ≠ '\u0130'

theorem BlockTree.namedAfter_of_generateAt?
    (creator : tree.kind root = some .blockCreator) {generated : Generated}
    (generates : tree.generateAt? root = some generated) :
    generated.artifact.NamedAfter (tree.text root FieldKey.blockName) := by
  have blockType := Definition.blockType_of_generate? creator
    (definition_of_generateAt? generates)
  have glueName := Glue.name_of_generate? creator (glue_of_generateAt? generates)
  have customName : generated.artifact.bundle.customName =
      generated.artifact.glue.name := by
    rw [bundle_of_generateAt? generates]
    rfl
  refine ⟨blockType, glueName, customName, ?_⟩
  rw [blockType, customName, glueName, Text.lowerName_eq_iff]
  simp [Text.hiddenLetters]

/-- Whatever the links of a tree are, its artifact is named after the text in
its first root. -/
theorem BlockTree.exists_namedAfter {generated : Generated}
    (generates : tree.generate? = some (.ok generated)) :
    ∃ first, tree.roots.head? = some first ∧
      generated.artifact.NamedAfter (tree.text first FieldKey.blockName) := by
  rcases exists_root_of_generate? generates with
    ⟨first, others, own, listed, generatesOwn, artifact_eq⟩
  have isRoot : first ∈ tree.roots := by simp [listed]
  rw [← artifact_eq, listed]
  exact ⟨first, rfl,
    namedAfter_of_generateAt? (kind_of_mem_roots isRoot) generatesOwn⟩

/-! ## The type in the document -/

/-- The type of a block is the member of its key: no other member has it. -/
theorem Definition.member?_type_documentValue (tree : BlockTree)
    (root : NodeId) :
    (documentValue tree root).member? "type" =
      some (.string (typeName tree root)) := by
  unfold documentValue
  dsimp only
  split_ifs
  all_goals
    cases InputLayout.ofOption (tree.text root FieldKey.inputLayout) <;>
      cases Connections.ofOption (tree.text root FieldKey.connections) <;>
        simp [Json.Value.member?, InputLayout.inputsInline?, Connections.keys,
          List.lookup_cons]

/-- The document of a coherent tree says its type. -/
theorem BlockTree.Coherent.type_of_generateAt? {rank : NodeId → Nat}
    (coherent : tree.Coherent rank)
    (creator : tree.kind root = some .blockCreator) {generated : Generated}
    (generates : tree.generateAt? root = some generated) :
    (Json.read? generated.artifact.definition.document).bind
        (Json.Value.member? "type") =
      some (.string generated.artifact.definition.blockType) := by
  rcases Definition.exists_generated coherent creator with
    ⟨definition, defines, reads⟩
  have blockType := Definition.blockType_of_generate? creator defines
  have same := defines.symm.trans (definition_of_generateAt? generates)
  rw [← (Prod.mk.inj (Option.some.inj same)).1, reads, Option.bind_some,
    Definition.member?_type_documentValue, blockType]
  rfl

end

namespace Workspace

/-- From every tree, the two names of a block agree but for the case of letters
exactly if the text that a user gave to it holds neither a Kelvin sign nor a
dotted capital I.  The tree of a workspace that edits build has an artifact if it
has a block creator, and the document says the type. -/
theorem generated_names_agree_iff (tree : BlockTree) :
    (∀ {generated : Generated}, tree.generate? = some (.ok generated) →
      ∃ first, tree.roots.head? = some first ∧
        generated.artifact.NamedAfter (tree.text first FieldKey.blockName)) ∧
    ∀ {workspace : Workspace} {root : NodeId},
      workspace.Reachable → workspace.tree = tree →
        workspace.kind? root = some .blockCreator →
          ∃ generated, tree.generate? = some (.ok generated) ∧
            (Json.read? generated.artifact.definition.document).bind
                (Json.Value.member? "type") =
              some (.string generated.artifact.definition.blockType) := by
  refine ⟨BlockTree.exists_namedAfter, ?_⟩
  rintro _ root ⟨edits, rfl⟩ rfl creator
  rcases Reachable.exists_generate? ⟨edits, rfl⟩ creator with
    ⟨generated, generates⟩
  rcases exists_coherent_run edits with ⟨rank, coherent⟩
  rcases BlockTree.exists_root_of_generate? generates with
    ⟨first, others, own, listed, generatesOwn, artifact_eq⟩
  have isRoot : first ∈ (run edits).tree.roots := by simp [listed]
  refine ⟨generated, generates, ?_⟩
  rw [← artifact_eq]
  exact coherent.type_of_generateAt? (BlockTree.kind_of_mem_roots isRoot)
    generatesOwn

/-- Edits that build a block with a name of its own. -/
def namedEdits (name : String) : List Edit :=
  [.addNode .blockCreator, .setField 0 FieldKey.blockName (.text name)]

theorem kind?_run_namedEdits (name : String) :
    (run (namedEdits name)).kind? 0 = some .blockCreator := by
  rfl

theorem generated_names_agree_iff_named :
    (run (namedEdits "Turn Left!")).kind? 0 = some .blockCreator ∧
      ∃ generated,
        (run (namedEdits "Turn Left!")).tree.generate? =
            some (.ok generated) ∧
          (∃ first,
            (run (namedEdits "Turn Left!")).tree.roots.head? = some first ∧
              generated.artifact.NamedAfter
                ((run (namedEdits "Turn Left!")).tree.text first
                  FieldKey.blockName)) ∧
          (Json.read? generated.artifact.definition.document).bind
              (Json.Value.member? "type") =
            some (.string generated.artifact.definition.blockType) := by
  have creator := kind?_run_namedEdits "Turn Left!"
  have agree := generated_names_agree_iff (run (namedEdits "Turn Left!")).tree
  rcases agree.2 ⟨_, rfl⟩ rfl creator with ⟨generated, generates, type⟩
  exact ⟨creator, generated, generates, agree.1 generates, type⟩

/-- The type of a block that is called like the Kelvin sign is a letter; the
glue code registers an underscore. -/
theorem generated_names_differ :
    ∃ generated,
      (run (namedEdits "\u212a")).tree.generate? = some (.ok generated) ∧
        generated.artifact.definition.blockType = "k" ∧
        generated.artifact.bundle.customName = "_" ∧
        generated.artifact.definition.blockType ≠
          Text.lowerVisible generated.artifact.bundle.customName := by
  rcases Reachable.exists_generate? ⟨namedEdits "\u212a", rfl⟩
    (kind?_run_namedEdits _) with ⟨generated, generates⟩
  rcases BlockTree.exists_namedAfter generates with ⟨first, isFirst, named⟩
  have only : (run (namedEdits "\u212a")).tree.roots.head? = some 0 := by
    decide +kernel
  cases isFirst.symm.trans only
  have called :
      (run (namedEdits "\u212a")).tree.text 0 FieldKey.blockName = "\u212a" := by
    decide +kernel
  rw [called] at named
  have blockType : generated.artifact.definition.blockType = "k" :=
    named.blockType_eq.trans (by decide +kernel)
  have customName : generated.artifact.bundle.customName = "_" :=
    (named.customName_eq.trans named.glueName_eq).trans (by decide +kernel)
  refine ⟨generated, generates, blockType, customName, ?_⟩
  rw [blockType, customName]
  decide +kernel

end Workspace

end BlockForge
