import BlockForge.Proofs.BlockFile.NewNode

/-!
# The steps of loading

Loading follows the nesting of a file, and what it does to the workspace is a
sequence of steps: a node is added, or a node that was loaded is attached.  The
id of a node is its place in the file, so the steps can be listed beforehand,
and loading is taking them one after the other; `Loading.foldl_fileSteps` says
so.

The state before a step is the moment of the step.  `Loading.Labelled` says that
an attachment finds its owner as the file describes it.
-/

namespace BlockForge

/-- A step of loading. -/
inductive LoadStep where
  /-- Add a node with its fields and its mutation. -/
  | add (blueprint : Blueprint)
  /-- Attach the node `childId`, which is loaded, to a slot of the node `id`. -/
  | attach (owner : Blueprint) (id : NodeId) (slot : String) (child : Blueprint)
      (childId : NodeId)

namespace Blueprint

mutual

/-- The steps that load a node under an id. -/
def steps (id : NodeId) : Blueprint → List LoadStep
  | ⟨kind, kindSpan, fields, slots, options, typeCount⟩ =>
    let blueprint : Blueprint := ⟨kind, kindSpan, fields, slots, options, typeCount⟩
    .add blueprint :: slotSteps blueprint id (id + 1) slots

/-- The steps that load what hangs in the slots of a node, under the ids from
`next` on. -/
def slotSteps (owner : Blueprint) (id next : NodeId) :
    List (String × List Blueprint) → List LoadStep
  | [] => []
  | (name, chain) :: rest =>
    chainSteps owner id name next chain ++
      slotSteps owner id (next + (chainNodes chain).length) rest

/-- The steps that load the nodes of a slot and attach them. -/
def chainSteps (owner : Blueprint) (id : NodeId) (name : String)
    (next : NodeId) : List Blueprint → List LoadStep
  | [] => []
  | child :: rest =>
    (steps next child ++ [.attach owner id name child next]) ++
      chainSteps owner id name (next + child.nodes.length) rest

end

/-- The steps that load the nodes that hang nowhere. -/
def fileSteps (next : NodeId) : List Blueprint → List LoadStep
  | [] => []
  | blueprint :: rest =>
    steps next blueprint ++ fileSteps (next + blueprint.nodes.length) rest

end Blueprint

namespace Loading

/-- Take a step. -/
def step (loading : Loading) : LoadStep → Loading
  | .add blueprint => loading.addNode blueprint
  | .attach owner id slot child childId =>
    loading.perform child.kindSpan (owner.attachProblem slot)
      (.attach id slot childId)

/-- A step finds the owner of a slot as the file describes it. -/
def FindsOwner (loading : Loading) : LoadStep → Prop
  | .add _ => True
  | .attach owner id _ _ _ => loading.workspace.label? id = some owner.label

/-- All steps find the owners of slots as the file describes them. -/
def Labelled : Loading → List LoadStep → Prop
  | _, [] => True
  | loading, step :: rest =>
    loading.FindsOwner step ∧ (loading.step step).Labelled rest

theorem labelled_append {first second : List LoadStep} :
    ∀ {loading : Loading}, loading.Labelled (first ++ second) ↔
      loading.Labelled first ∧ (first.foldl step loading).Labelled second := by
  induction first with
  | nil => simp [Labelled]
  | cons step first first_ih =>
      intro loading
      rw [List.cons_append, Labelled, first_ih, Labelled, and_assoc]
      rfl

/-- A node is attached at most; the workspace has the same nodes. -/
theorem size_and_label?_attach (loading : Loading) (span : Span)
    (problem : EditError → LoadProblem) (parent : NodeId) (name : String)
    (child : NodeId) :
    let after := loading.perform span problem (.attach parent name child)
    after.workspace.size = loading.workspace.size ∧
      after.workspace.label? = loading.workspace.label? := by
  cases performed : loading.workspace.perform (.attach parent name child) with
  | error reason =>
      rw [perform_error performed]
      exact ⟨rfl, rfl⟩
  | ok edited =>
      rw [perform_ok performed]
      rcases Workspace.attach_eq_ok performed with
        ⟨_, slot, _, _, _, _, _, _, _, _, _, rfl⟩
      exact ⟨Workspace.size_link .., Workspace.label?_link ..⟩

/-- Steps lead from a state to another and add nodes, and the nodes that are
there already stay what they are. -/
structure Runs (before : Loading) (steps : List LoadStep) (count : Nat)
    (after : Loading) : Prop where
  foldl_eq : steps.foldl step before = after
  size_eq : after.workspace.size = before.workspace.size + count
  label_eq : ∀ {id : Nat}, id < before.workspace.size →
    after.workspace.label? id = before.workspace.label? id
  labelled : before.Labelled steps

namespace Runs

variable {before mid after : Loading} {first second : List LoadStep}
  {count more : Nat}

theorem refl (loading : Loading) : loading.Runs [] 0 loading :=
  ⟨rfl, rfl, fun _ => rfl, trivial⟩

theorem trans (runs : before.Runs first count mid)
    (continues : mid.Runs second more after) :
    before.Runs (first ++ second) (count + more) after where
  foldl_eq := by rw [List.foldl_append, runs.foldl_eq, continues.foldl_eq]
  size_eq := by rw [continues.size_eq, runs.size_eq, Nat.add_assoc]
  label_eq := by
    intro id old
    have larger := runs.size_eq
    rw [continues.label_eq (by omega), runs.label_eq old]
  labelled := by
    rw [labelled_append, runs.foldl_eq]
    exact ⟨runs.labelled, continues.labelled⟩

theorem add (loading : Loading) (blueprint : Blueprint) :
    loading.Runs [.add blueprint] 1 (loading.addNode blueprint) where
  foldl_eq := rfl
  size_eq := size_addNode loading blueprint
  label_eq := fun old => by rw [label?_addNode, if_neg old.ne]
  labelled := ⟨trivial, trivial⟩

theorem attach {loading : Loading} {owner : Blueprint} {id : NodeId}
    (labelled : loading.workspace.label? id = some owner.label) (slot : String)
    (child : Blueprint) (childId : NodeId) :
    loading.Runs [.attach owner id slot child childId] 0
      (loading.perform child.kindSpan (owner.attachProblem slot)
        (.attach id slot childId)) where
  foldl_eq := rfl
  size_eq := (size_and_label?_attach ..).1
  label_eq := fun {other} _ => congrFun (size_and_label?_attach ..).2 other
  labelled := ⟨labelled, trivial⟩

end Runs

open Blueprint (steps slotSteps chainSteps fileSteps)

mutual

/-- Loading a node takes its steps. -/
theorem runs_load (loading : Loading) : ∀ blueprint : Blueprint,
    loading.Runs (blueprint.steps loading.workspace.size)
      blueprint.nodes.length (loading.load blueprint)
  | ⟨kind, kindSpan, fields, slots, options, typeCount⟩ => by
      let blueprint : Blueprint := ⟨kind, kindSpan, fields, slots, options, typeCount⟩
      have labelled : (loading.addNode blueprint).workspace.label?
          loading.workspace.size = some blueprint.label := by
        rw [label?_addNode, if_pos rfl]
      have below := runs_loadSlots labelled slots
      rw [size_addNode] at below
      rw [steps, Blueprint.nodes, load, List.length_cons,
        Nat.add_comm (Blueprint.slotNodes slots).length]
      exact (Runs.add loading blueprint).trans below

theorem runs_loadSlots {loading : Loading} {owner : Blueprint} {id : NodeId}
    (labelled : loading.workspace.label? id = some owner.label) :
    ∀ slots, loading.Runs (slotSteps owner id loading.workspace.size slots)
      (Blueprint.slotNodes slots).length (loadSlots owner id loading slots)
  | [] => by
      rw [slotSteps, Blueprint.slotNodes, loadSlots]
      exact .refl loading
  | (name, chain) :: rest => by
      have first := runs_loadChain labelled name chain
      have old := Workspace.lt_size_of_label? labelled
      have others := runs_loadSlots ((first.label_eq old).trans labelled) rest
      rw [first.size_eq] at others
      rw [slotSteps, Blueprint.slotNodes, loadSlots, List.length_append]
      exact first.trans others

theorem runs_loadChain {loading : Loading} {owner : Blueprint} {id : NodeId}
    (labelled : loading.workspace.label? id = some owner.label)
    (name : String) :
    ∀ chain, loading.Runs
      (chainSteps owner id name loading.workspace.size chain)
      (Blueprint.chainNodes chain).length (loadChain owner id name loading chain)
  | [] => by
      rw [chainSteps, Blueprint.chainNodes, loadChain]
      exact .refl loading
  | child :: rest => by
      have loaded := runs_load loading child
      have old := Workspace.lt_size_of_label? labelled
      have attached := loaded.trans (Runs.attach
        ((loaded.label_eq old).trans labelled) name child
        loading.workspace.size)
      have others := runs_loadChain
        ((attached.label_eq old).trans labelled) name rest
      rw [attached.size_eq] at others
      rw [chainSteps, Blueprint.chainNodes, loadChain, List.length_append]
      exact attached.trans others

end

/-- Loading the nodes that hang nowhere takes their steps. -/
theorem runs_foldl_load (blueprints : List Blueprint) : ∀ loading : Loading,
    loading.Runs (fileSteps loading.workspace.size blueprints)
      (Blueprint.chainNodes blueprints).length
      (blueprints.foldl load loading) := by
  induction blueprints with
  | nil =>
      intro loading
      rw [fileSteps, Blueprint.chainNodes]
      exact .refl loading
  | cons blueprint rest rest_ih =>
      intro loading
      have first := runs_load loading blueprint
      have others := rest_ih (loading.load blueprint)
      rw [first.size_eq] at others
      rw [fileSteps, Blueprint.chainNodes, List.length_append]
      exact first.trans others

/-- Loading a file is taking its steps. -/
theorem foldl_fileSteps (blueprints : List Blueprint) :
    (fileSteps 0 blueprints).foldl step start = loadAll blueprints :=
  (runs_foldl_load blueprints start).foldl_eq

end Loading

end BlockForge
