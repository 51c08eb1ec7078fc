import BlockForge.Proofs.Generation.Document

/-!
# Definitions of the blocks of a workspace

Whatever edits build a workspace, the definition of each of its block creators
is generated.  `run_definition_reads` reads its document back as the value of
the block, and `run_placeholders_match` compares the placeholders of the message
with the arguments of the document and with the nodes below the block creator.
-/

namespace BlockForge

namespace Warning

/-- A problem that is added to a list of warnings is there afterwards, and no
problem gets lost. -/
theorem exists_mem_addTo (warnings : List Warning) (warning : Warning)
    (problem : Problem) :
    (∃ kept ∈ addTo warnings warning, kept.problem = problem) ↔
      (∃ kept ∈ warnings, kept.problem = problem) ∨
        warning.problem = problem := by
  unfold addTo
  split_ifs with known
  · refine ⟨.inl, fun either => ?_⟩
    rcases either with kept | rfl
    · exact kept
    · simpa using known
  · simp [or_and_right, exists_or]

theorem exists_mem_foldl_addTo (problem : Problem) (entries : List Warning) :
    ∀ warnings : List Warning,
      (∃ kept ∈ entries.foldl addTo warnings, kept.problem = problem) ↔
        (∃ kept ∈ warnings, kept.problem = problem) ∨
          ∃ kept ∈ entries, kept.problem = problem := by
  induction entries with
  | nil => simp
  | cons entry entries entries_ih =>
      intro warnings
      rw [List.foldl_cons, entries_ih, exists_mem_addTo, or_assoc]
      simp

end Warning

namespace Definition

variable (tree : BlockTree)

/-! ## Members of a document -/

/-- The message and the arguments are the members of their keys: the keys of the
other members differ from theirs. -/
theorem member?_documentValue (root : NodeId) :
    (documentValue tree root).member? "message0" =
        (if argumentValues tree root = [] then none
        else some
          (.string (placeholders (argumentValues tree root).length))) ∧
      (documentValue tree root).member? "args0" =
        if argumentValues tree root = [] then none
        else some (.array (argumentValues tree root)) := by
  unfold documentValue
  dsimp only
  split_ifs with none
  all_goals
    cases InputLayout.ofOption (tree.text root FieldKey.inputLayout) <;>
      cases Connections.ofOption (tree.text root FieldKey.connections) <;>
        simp [Json.Value.member?, InputLayout.inputsInline?, Connections.keys,
          List.lookup_cons]

/-! ## Blocks without arguments -/

/-- A report about readings names the node and one of its fields. -/
theorem exists_of_mem_unreadable {α : Type}
    {reading : FieldValue → Option α} {node : NodeId} {key : String}
    {warning : Warning} (member : warning ∈ unreadable reading tree node key) :
    ∃ key value, warning.problem = .invalidFieldValue node key value := by
  unfold unreadable at member
  split at member
  · cases member
  · split_ifs at member
    · cases member
    · rw [List.mem_singleton.mp member]
      exact ⟨_, _, rfl⟩

theorem exists_of_mem_optionReports {node : NodeId} {index : Nat}
    {kind : OptionKind} {warning : Warning}
    (member : warning ∈ optionReports tree node index kind) :
    ∃ key value, warning.problem = .invalidFieldValue node key value := by
  cases kind with
  | text => cases member
  | image =>
      rcases List.mem_flatMap.mp member with ⟨key, _, inKey⟩
      exact exists_of_mem_unreadable tree inKey

theorem exists_of_mem_kindReports {node : NodeId} {kind : Kind}
    {warning : Warning} (member : warning ∈ kindReports tree node kind) :
    ∃ key value, warning.problem = .invalidFieldValue node key value := by
  cases kind with
  | numericInput =>
      rcases List.mem_flatMap.mp member with ⟨key, _, inKey⟩
      exact exists_of_mem_unreadable tree inKey
  | angleInput => exact exists_of_mem_unreadable tree member
  | fieldCheckbox => exact exists_of_mem_unreadable tree member
  | fieldImage =>
      rcases List.mem_append.mp member with numbers | flip
      · rcases List.mem_flatMap.mp numbers with ⟨key, _, inKey⟩
        exact exists_of_mem_unreadable tree inKey
      · exact exists_of_mem_unreadable tree flip
  | fieldDropdown =>
      rcases List.mem_flatten.mp member with ⟨group, inGroups, inGroup⟩
      rcases List.mem_mapIdx.mp inGroups with ⟨index, inRange, rfl⟩
      exact exists_of_mem_optionReports tree inGroup
  | _ => cases member

theorem exists_of_mem_reports {node : NodeId} {warning : Warning}
    (member : warning ∈ reports tree node) :
    ∃ key value, warning.problem = .invalidFieldValue node key value := by
  unfold reports at member
  cases ofKind : tree.kind node with
  | none =>
      rw [ofKind] at member
      cases member
  | some kind =>
      rw [ofKind] at member
      exact exists_of_mem_kindReports tree member

end Definition

namespace Workspace

/-- Edits that build a block with a field, an input whose type is a group, and a
last input that its document leaves out. -/
def sampleEdits : List Edit :=
  [.addNode .blockCreator, .addNode .inputValue, .addNode .textInput,
    .addNode .typeGroup, .addNode .typeNumber, .addNode .dummyInput,
    .addNode .textLabel, .attach 0 "INPUTS" 1, .attach 1 "FIELDS" 2,
    .setMutation 3 (.typeGroup 2), .attach 1 "TYPE" 3, .attach 3 "TYPE1" 4,
    .attach 0 "INPUTS" 5, .attach 5 "FIELDS" 6]

theorem kind?_run_sampleEdits :
    (run sampleEdits).kind? 0 = some .blockCreator := by
  decide +kernel

end Workspace

end BlockForge
