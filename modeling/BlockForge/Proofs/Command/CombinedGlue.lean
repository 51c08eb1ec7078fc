import BlockForge.Command.Run
import BlockForge.Proofs.BlockFile.Reachable
import BlockForge.Proofs.Generation.Artifact
import BlockForge.Proofs.Generation.GlueText

/-!
# Combined glue code

Combined glue code is split at the first delimiter.  That this is the delimiter
that was put in follows from the mark that the delimiter starts with: a
declaration does not hold it, as names do not.  The body may hold anything.

`splitGlue_combinedGlue` states this for every tree from which something is
generated, and `combinedGlue_splits_back` draws the conclusion for what the
program prints of a block file.  It prints nothing of a file without block
creator.
-/

namespace BlockForge

namespace Glue

theorem mark_notMem_parameterText {arguments : List Variable}
    (named : AllNamed arguments) : '!' ∉ (parameterText arguments).toList := by
  have names : '!' ∉
      (",".intercalate (arguments.map Variable.parameter)).toList := by
    apply notMem_intercalate (by decide)
    intro piece member
    rcases List.mem_map.mp member with ⟨declared, inArguments, rfl⟩
    exact (named declared inArguments).notMem '!' (by decide)
  unfold parameterText
  dsimp only
  split_ifs
  · exact List.not_mem_nil
  · simp only [String.toList_append, List.mem_append, names, false_or]
    decide

/-- The delimiter starts with a mark that no declaration holds. -/
theorem mark_notMem_declarationText {arguments : List Variable}
    (named : AllNamed arguments) {name : String} (isName : Text.IsName name) :
    '!' ∉ (declarationText name arguments).toList := by
  have inName := isName.notMem '!' (by decide)
  have parameters := mark_notMem_parameterText named
  unfold declarationText
  simp only [String.toList_append, List.mem_append, inName, parameters, or_false]
  decide +kernel

end Glue

/-- A text without the mark of the delimiter is split off as it is. -/
theorem splitGlue_append {before : String} (absent : '!' ∉ before.toList)
    (after : String) :
    splitGlue (before ++ glueDelimiter ++ after) = (before, after) := by
  have delimiter : glueDelimiter.toList = '!' :: "DELIMITER!".toList := by
    decide +kernel
  have found := splitOnce_append absent "DELIMITER!".toList after.toList
  rw [splitGlue, String.toList_append, String.toList_append, List.append_assoc,
    delimiter, List.cons_append, found]
  simp only [String.ofList_toList]

namespace BlockTree

/-- Whatever the links and the texts of a tree are, its combined glue code
splits into its declaration and its body. -/
theorem splitGlue_combinedGlue {tree : BlockTree} {generated : Generated}
    (generates : tree.generate? = some (.ok generated)) :
    splitGlue generated.artifact.combinedGlue =
      (generated.artifact.glue.declaration, generated.artifact.glue.body) := by
  rcases exists_root_of_generate? generates with
    ⟨root, _, own, _, generatesOwn, artifact_eq⟩
  have named := Glue.generate?_named (glue_of_generateAt? generatesOwn)
  rw [artifact_eq] at named
  rw [Artifact.combinedGlue, named.declaration_eq]
  exact splitGlue_append
    (Glue.mark_notMem_declarationText named.arguments named.name) _

end BlockTree

/-! ## What the program prints -/

/-- Arguments that ask for a part of the artifact of a file. -/
def Invocation.AsksFor (arguments : List String) (file : String) (part : Part) :
    Prop :=
  ∃ colour, ofArguments arguments = .ok ⟨.generate file part, colour⟩

/-- The part of an artifact that is asked for is what is printed. -/
theorem stdout_runProgram {find : String → Invocation.Found} {file : String}
    {source : String} (reads : (find file).bind FileTree.read = .ok source)
    {workspace : Workspace} (loads : BlockFile.load source = .ok workspace)
    {generated : Generated}
    (generates : workspace.tree.generate? = some (.ok generated))
    {arguments : List String} {part : Part}
    (asks : Invocation.AsksFor arguments file part) :
    (runProgram find arguments).stdout = part.text generated.artifact := by
  rcases asks with ⟨colour, asks⟩
  simp only [runProgram, asks, Invocation.run, Action.path,
    Invocation.withWorkspace, reads, loads, Invocation.withArtifact, generates,
    Output.success]

/-- From every tree, whatever its links and texts are, combined glue code splits
into the declaration and the body.  A workspace that edits build has an artifact
if it has a block creator; so of a block file with a block creator, the combined
glue code is printed as the declaration, then the delimiter, then the body. -/
theorem combinedGlue_splits_back :
    (∀ {tree : BlockTree} {generated : Generated},
      tree.generate? = some (.ok generated) →
        splitGlue generated.artifact.combinedGlue =
          (generated.artifact.glue.declaration,
            generated.artifact.glue.body)) ∧
    (∀ {workspace : Workspace}, workspace.Reachable →
      (∃ root, workspace.kind? root = some .blockCreator) →
        ∃ generated, workspace.tree.generate? = some (.ok generated)) ∧
    ∀ {find : String → Invocation.Found} {file source : String}
      {workspace : Workspace},
      (find file).bind FileTree.read = .ok source →
      BlockFile.load source = .ok workspace →
      (∃ root, workspace.kind? root = some .blockCreator) →
      ∀ {forGlue forDeclaration forBody : List String},
        Invocation.AsksFor forGlue file .glue →
        Invocation.AsksFor forDeclaration file .declaration →
        Invocation.AsksFor forBody file .body →
          (runProgram find forGlue).stdout =
            (runProgram find forDeclaration).stdout ++ glueDelimiter ++
              (runProgram find forBody).stdout := by
  refine ⟨BlockTree.splitGlue_combinedGlue, ?_, ?_⟩
  · rintro workspace reachable ⟨root, creator⟩
    exact reachable.exists_generate? creator
  · rintro find file source workspace reads loads ⟨root, creator⟩
    intro forGlue forDeclaration forBody asksGlue asksDeclaration asksBody
    rcases (BlockFile.reachable_load loads).exists_generate? creator with
      ⟨generated, generates⟩
    rw [stdout_runProgram reads loads generates asksGlue,
      stdout_runProgram reads loads generates asksDeclaration,
      stdout_runProgram reads loads generates asksBody]
    exact String.append_assoc ..

/-- A block that is called like the delimiter. -/
def delimiterSource : String :=
  "[[block]]\ntype = \"block_creator\"\n" ++
    "fields = \x7bBLOCK_NAME = \"!DELIMITER!\"\x7d\n"

/-- A field that hangs in no block. -/
def looseSource : String := "[[block]]\ntype = \"text_input\"\n"

/-- Arguments that ask for a part of `block.toml`. -/
def partArguments (part : String) : List String :=
  ["generate", "--part", part, "block.toml"]

/-- Every path leads to the same text. -/
def foundEverywhere (source : String) : String → Invocation.Found :=
  fun _ => .ok (.file source)

theorem BlockFile.exists_load {source : String}
    (succeeds : (load source).isOk = true) :
    ∃ workspace, load source = .ok workspace := by
  cases loaded : load source with
  | ok workspace => exact ⟨workspace, rfl⟩
  | error errors =>
      rw [loaded] at succeeds
      cases succeeds

theorem combinedGlue_splits_back_delimiter :
    (∃ generated, (Workspace.run Workspace.sampleEdits).tree.generate? =
        some (.ok generated) ∧
      splitGlue generated.artifact.combinedGlue =
        (generated.artifact.glue.declaration, generated.artifact.glue.body)) ∧
    (∃ workspace, BlockFile.load delimiterSource = .ok workspace ∧
      workspace.kind? 0 = some .blockCreator) ∧
    Invocation.AsksFor (partArguments "glue") "block.toml" .glue ∧
    Invocation.AsksFor (partArguments "declaration") "block.toml"
      .declaration ∧
    Invocation.AsksFor (partArguments "body") "block.toml" .body ∧
    (runProgram (foundEverywhere delimiterSource)
        (partArguments "glue")).stdout =
      (runProgram (foundEverywhere delimiterSource)
          (partArguments "declaration")).stdout ++ glueDelimiter ++
        (runProgram (foundEverywhere delimiterSource)
          (partArguments "body")).stdout := by
  rcases combinedGlue_splits_back.2.1 ⟨Workspace.sampleEdits, rfl⟩
    ⟨0, Workspace.kind?_run_sampleEdits⟩ with ⟨generated, generates⟩
  have succeeds : (BlockFile.load delimiterSource).isOk = true := by
    decide +kernel
  rcases BlockFile.exists_load succeeds with ⟨workspace, loads⟩
  have creator : workspace.kind? 0 = some .blockCreator := by
    have found : (BlockFile.load delimiterSource).toOption.bind
        (fun workspace => workspace.kind? 0) = some .blockCreator := by
      decide +kernel
    rw [loads] at found
    exact found
  have asksGlue : Invocation.AsksFor (partArguments "glue") "block.toml"
      .glue := ⟨true, by decide +kernel⟩
  have asksDeclaration : Invocation.AsksFor (partArguments "declaration")
      "block.toml" .declaration := ⟨true, by decide +kernel⟩
  have asksBody : Invocation.AsksFor (partArguments "body") "block.toml"
      .body := ⟨true, by decide +kernel⟩
  have reads : (foundEverywhere delimiterSource "block.toml").bind
      FileTree.read = .ok delimiterSource := rfl
  exact ⟨⟨generated, generates, combinedGlue_splits_back.1 generates⟩,
    ⟨workspace, loads, creator⟩, asksGlue, asksDeclaration, asksBody,
    combinedGlue_splits_back.2.2 reads loads ⟨0, creator⟩ asksGlue
      asksDeclaration asksBody⟩

/-- A file without block creator loads, but nothing is printed of it. -/
theorem combinedGlue_of_loose_unprinted :
    (∃ workspace, BlockFile.load looseSource = .ok workspace) ∧
    Invocation.AsksFor (partArguments "glue") "block.toml" .glue ∧
    Invocation.AsksFor (partArguments "declaration") "block.toml"
      .declaration ∧
    Invocation.AsksFor (partArguments "body") "block.toml" .body ∧
    (runProgram (foundEverywhere looseSource) (partArguments "glue")).stdout =
      "" ∧
    (runProgram (foundEverywhere looseSource) (partArguments "glue")).stdout ≠
      (runProgram (foundEverywhere looseSource)
          (partArguments "declaration")).stdout ++ glueDelimiter ++
        (runProgram (foundEverywhere looseSource)
          (partArguments "body")).stdout := by
  have succeeds : (BlockFile.load looseSource).isOk = true := by
    decide +kernel
  refine ⟨BlockFile.exists_load succeeds, ⟨true, ?_⟩, ⟨true, ?_⟩, ⟨true, ?_⟩,
    ?_, ?_⟩ <;> decide +kernel

end BlockForge
