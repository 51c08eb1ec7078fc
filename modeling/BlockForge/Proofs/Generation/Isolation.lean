import BlockForge.Proofs.Generation.Definition
import BlockForge.Proofs.Generation.Glue
import BlockForge.Proofs.Generation.Naming
import BlockForge.Proofs.Generation.Sharing
import BlockForge.Proofs.Workspace.Forest

/-!
# Edits outside of a block

What is generated from a workspace depends only on the first block creator and
on what hangs in it.  An edit whose subject is outside of this subtree can
change no node of it: nothing hangs in a node unless the node is the parent of
an attachment, a node that hangs somewhere cannot be attached again, and a block
creator fits no slot.

`Arranged.node?_after` is the step, `Arranged.node?_afterAll` the run, and
`run_generate_isolated` says what this means for what is generated.
-/

namespace BlockForge

/-- The node that an edit changes or hangs something in; a new node is none. -/
def Edit.subject? : Edit → Option NodeId
  | .addNode _ => none
  | .setField node _ _ => some node
  | .setMutation node _ => some node
  | .attach parent _ _ => some parent

/-- The kind of the node that an edit adds. -/
def Edit.newKind? : Edit → Option Kind
  | .addNode kind => some kind
  | _ => none

theorem Node.relink_of_ne (node : Node) {parent child id : NodeId}
    (name : String) {last : Option NodeId} (notParent : id ≠ parent)
    (notChild : id ≠ child) (notLast : last ≠ some id) :
    node.relink parent name last child id = node := by
  simp [relink, notParent, notChild, notLast]

namespace Workspace

/-- The number of block creators. -/
def creatorCount (workspace : Workspace) : Nat :=
  workspace.nodes.toList.countP fun node => node.kind = .blockCreator

/-! ## Nodes that edits leave alone -/

/-- The nodes of a part are block creators or hang in the part. -/
def Rooted (workspace : Workspace) (inside : NodeId → Prop) : Prop :=
  ∀ {id}, inside id → workspace.kind? id = some .blockCreator ∨
    ∃ owner, inside owner ∧ workspace.parent? id = some owner

theorem Rooted.lt_size {workspace : Workspace} {inside : NodeId → Prop}
    (rooted : workspace.Rooted inside) {id : NodeId} (here : inside id) :
    id < workspace.size := by
  rcases rooted here with creator | ⟨owner, _, parent⟩
  · exact lt_size_of_kind? creator
  · exact lt_size_of_parent? parent

theorem rooted_surrounds {workspace : Workspace} {root : NodeId}
    (creator : workspace.kind? root = some .blockCreator) :
    workspace.Rooted (workspace.Surrounds root) := by
  intro id around
  rcases surrounds_iff.mp around with same | ⟨owner, step, above⟩
  · rw [same]
    exact .inl creator
  · exact .inr ⟨owner, above, step⟩

section

variable {workspace : Workspace} {chains : NodeId → String → List NodeId}
  {order : NodeId → Nat}

theorem Rooted.congr {inside : NodeId → Prop}
    (rooted : workspace.Rooted inside) {edited : Workspace}
    (same : ∀ id, inside id → edited.node? id = workspace.node? id) :
    edited.Rooted inside := by
  intro id here
  rcases rooted here with creator | ⟨owner, around, parent⟩
  · rw [kind?, same id here]
    exact .inl creator
  · rw [parent?, same id here]
    exact .inr ⟨owner, around, parent⟩

/-- A node of a part is not the child of an attachment that succeeds. -/
theorem Arranged.ne_child (arranged : workspace.Arranged chains order)
    {inside : NodeId → Prop} (rooted : workspace.Rooted inside)
    {parent child : NodeId} {name : String}
    (attachable : workspace.Attachable parent name child) {id : NodeId}
    (here : inside id) : id ≠ child := by
  rintro rfl
  rcases attachable.free with ⟨node, found, _, fits⟩
  rcases rooted here with creator | ⟨owner, _, hangs⟩
  · have kind_eq : node.kind = .blockCreator := by
      simpa [kind?, found] using creator
    rw [kind_eq, Kind.fits_blockCreator] at fits
    cases fits
  · rcases arranged.exists_mem_of_parent? hangs with ⟨slot, member⟩
    exact arranged.notMem_child attachable owner slot member

/-- A node of a part does not hang in a node outside of it. -/
theorem Arranged.notMem_of_outside (arranged : workspace.Arranged chains order)
    {inside : NodeId → Prop} (rooted : workspace.Rooted inside)
    {parent id : NodeId} (outside : ¬ inside parent) (here : inside id)
    (name : String) : id ∉ chains parent name := by
  intro member
  have hangs := arranged.parent?_eq member
  rcases rooted here with creator | ⟨owner, around, other⟩
  · cases hangs.symm.trans (arranged.parent?_of_creator creator)
  · cases hangs.symm.trans other
    exact outside around

/-- An edit whose subject is outside of a part changes no node of the part. -/
theorem Arranged.node?_after (arranged : workspace.Arranged chains order)
    {inside : NodeId → Prop} (rooted : workspace.Rooted inside) {edit : Edit}
    (apart : ∀ id, edit.subject? = some id → ¬ inside id) {id : NodeId}
    (here : inside id) :
    (workspace.after edit).node? id = workspace.node? id := by
  have differs : ∀ {subject}, edit.subject? = some subject → id ≠ subject := by
    rintro subject isSubject rfl
    exact apart id isSubject here
  unfold after
  cases performed : workspace.perform edit with
  | error _ => rfl
  | ok edited =>
      dsimp only
      cases edit with
      | addNode kind =>
          cases performed
          rw [node?_addNode, if_neg (rooted.lt_size here).ne]
      | setField subject key value =>
          rw [update_eq_ok performed, node?_modify]
          simp [differs rfl]
      | setMutation subject mutation =>
          rw [update_eq_ok performed, node?_modify]
          simp [differs rfl]
      | attach parent name child =>
          rcases attachable_of_attach arranged performed with
            ⟨attachable, equal⟩
          rcases attachable.free with ⟨childNode, foundChild, free, _⟩
          have notLast : (chains parent name).getLast? ≠ some id := by
            intro last
            exact arranged.notMem_of_outside rooted (apart parent rfl) here name
              (List.mem_of_getLast? last)
          rw [equal, arranged.target_eq, arranged.node?_link foundChild free]
          cases workspace.node? id with
          | none => rfl
          | some node =>
              rw [Option.map_some, node.relink_of_ne name (differs rfl)
                (arranged.ne_child rooted attachable here) notLast]

/-- Edits whose subjects are outside of a part change no node of the part. -/
theorem Arranged.node?_afterAll {edits : List Edit} :
    ∀ {workspace : Workspace} {chains order},
      workspace.Arranged chains order →
        ∀ {inside : NodeId → Prop}, workspace.Rooted inside →
          (∀ edit ∈ edits, ∀ id, edit.subject? = some id → ¬ inside id) →
            ∀ id, inside id →
              (workspace.afterAll edits).node? id = workspace.node? id := by
  unfold afterAll
  induction edits with
  | nil => exact fun _ _ _ _ _ _ => rfl
  | cons edit edits edits_ih =>
      intro workspace chains order arranged inside rooted apart id here
      rw [List.forall_mem_cons] at apart
      have step : ∀ id, inside id →
          (workspace.after edit).node? id = workspace.node? id :=
        fun id here => arranged.node?_after rooted apart.1 here
      rcases exists_arranged_after arranged edit with ⟨_, _, next⟩
      rw [List.foldl_cons, edits_ih next (rooted.congr step) apart.2 id here]
      exact step id here

/-! ## Block creators -/

theorem kind?_modify (id : NodeId) {change : Node → Node}
    (keeps : ∀ node, (change node).kind = node.kind) (other : NodeId) :
    (workspace.modify id change).kind? other = workspace.kind? other := by
  rw [kind?, node?_modify, Option.map_map, kind?]
  congr 1
  funext node
  rw [Function.comp_apply]
  split_ifs
  · exact keeps node
  · rfl

/-- An edit gives no node another kind; at most the next id gets one. -/
theorem Arranged.kind?_after_eq (arranged : workspace.Arranged chains order)
    (edit : Edit) (id : NodeId) :
    (workspace.after edit).kind? id =
      if id = workspace.size then edit.newKind? else workspace.kind? id := by
  have kept : edit.newKind? = none →
      (workspace.after edit).kind? id = workspace.kind? id →
        (workspace.after edit).kind? id =
          if id = workspace.size then edit.newKind? else workspace.kind? id := by
    intro nothing same
    rw [same, nothing]
    split_ifs with next
    · rw [kind?, next, node?_eq_none le_rfl, Option.map_none]
    · rfl
  unfold after at kept ⊢
  cases performed : workspace.perform edit with
  | error _ =>
      cases edit with
      | addNode kind => cases performed
      | setField | setMutation | attach => simpa [performed] using kept rfl
  | ok edited =>
      rw [performed] at kept
      cases edit with
      | addNode kind =>
          cases performed
          dsimp only
          rw [kind?, node?_addNode]
          split_ifs <;> rfl
      | setField subject key value =>
          apply kept rfl
          dsimp only
          rw [update_eq_ok performed, kind?_modify]
          exact fun _ => rfl
      | setMutation subject mutation =>
          apply kept rfl
          dsimp only
          rw [update_eq_ok performed, kind?_modify]
          exact fun _ => rfl
      | attach parent name child =>
          rcases attachable_of_attach arranged performed with
            ⟨attachable, equal⟩
          rcases attachable.free with ⟨childNode, foundChild, free, _⟩
          apply kept rfl
          rw [equal, arranged.target_eq, kind?,
            arranged.node?_link foundChild free, Option.map_map]
          rfl

/-- A node keeps its kind. -/
theorem Arranged.kind?_after (arranged : workspace.Arranged chains order)
    {id : NodeId} {kind : Kind} (ofKind : workspace.kind? id = some kind)
    (edit : Edit) : (workspace.after edit).kind? id = some kind := by
  rw [arranged.kind?_after_eq, if_neg (lt_size_of_kind? ofKind).ne, ofKind]

theorem Arranged.kind?_afterAll {edits : List Edit} :
    ∀ {workspace : Workspace} {chains order},
      workspace.Arranged chains order →
        ∀ {id kind}, workspace.kind? id = some kind →
          (workspace.afterAll edits).kind? id = some kind := by
  unfold afterAll
  induction edits with
  | nil => exact fun _ _ _ ofKind => ofKind
  | cons edit edits edits_ih =>
      intro workspace chains order arranged id kind ofKind
      rcases exists_arranged_after arranged edit with ⟨_, _, next⟩
      exact edits_ih next (arranged.kind?_after ofKind edit)

/-- The first block creator stays the first one: no node gets another kind. -/
theorem Arranged.first_afterAll (arranged : workspace.Arranged chains order)
    {root : NodeId} (creator : workspace.kind? root = some .blockCreator)
    (first : ∀ id < root, workspace.kind? id ≠ some .blockCreator)
    (edits : List Edit) :
    ∀ id < root,
      (workspace.afterAll edits).kind? id ≠ some .blockCreator := by
  intro id before
  rcases exists_kind? (before.trans (lt_size_of_kind? creator)) with
    ⟨kind, ofKind⟩
  rw [arranged.kind?_afterAll ofKind, ← ofKind]
  exact first id before

/-- Every block creator is a root, in the order of the workspace. -/
theorem Arranged.roots_eq (arranged : workspace.Arranged chains order) :
    workspace.tree.roots =
      (workspace.nodes.toList.filter fun node =>
        node.kind = .blockCreator).map Node.id := by
  have roots : ∀ node ∈ workspace.nodes.toList,
      (decide (workspace.kind? node.id = some .blockCreator) && node.isFree) =
        decide (node.kind = .blockCreator) := by
    intro node member
    have found := arranged.node?_id_of_mem member
    have kind_eq : workspace.kind? node.id = some node.kind := by
      rw [kind?, found, Option.map_some]
    by_cases creator : node.kind = .blockCreator
    · have free : node.isFree = true := by
        rw [arranged.isFree_iff found]
        exact arranged.parent?_of_creator (kind_eq.trans (congrArg some creator))
      simp [kind_eq, creator, free]
    · simp [kind_eq, creator]
  rw [BlockTree.roots]
  change (workspace.topBlocks.filter fun id =>
    workspace.kind? id = some .blockCreator) = _
  rw [topBlocks, List.filter_map, List.filter_filter]
  congr 1
  exact List.filter_congr roots

/-- The roots are the block creators, in the order of the workspace. -/
theorem Arranged.roots_eq_filter (arranged : workspace.Arranged chains order) :
    workspace.tree.roots =
      (List.range workspace.size).filter fun id =>
        workspace.kind? id = some .blockCreator := by
  have creators : ∀ node ∈ workspace.nodes.toList,
      decide (node.kind = .blockCreator) =
        decide (workspace.kind? node.id = some .blockCreator) := by
    intro node member
    simp [kind?, arranged.node?_id_of_mem member]
  rw [arranged.roots_eq, List.filter_congr creators, ← arranged.map_id_nodes,
    List.filter_map]
  rfl

theorem Arranged.mem_roots (arranged : workspace.Arranged chains order)
    {id : NodeId} :
    id ∈ workspace.tree.roots ↔ workspace.kind? id = some .blockCreator := by
  rw [arranged.roots_eq_filter, List.mem_filter, List.mem_range,
    decide_eq_true_eq, and_iff_right_of_imp lt_size_of_kind?]

theorem Arranged.roots_ascending (arranged : workspace.Arranged chains order) :
    workspace.tree.roots.Pairwise (· < ·) := by
  rw [arranged.roots_eq_filter]
  exact List.pairwise_lt_range.filter _

theorem Arranged.length_roots (arranged : workspace.Arranged chains order) :
    workspace.tree.roots.length = workspace.creatorCount := by
  rw [arranged.roots_eq, List.length_map, creatorCount,
    List.countP_eq_length_filter]

/-- The first block creator is the first root. -/
theorem Arranged.exists_roots (arranged : workspace.Arranged chains order)
    {root : NodeId} (creator : workspace.kind? root = some .blockCreator)
    (first : ∀ id < root, workspace.kind? id ≠ some .blockCreator) :
    ∃ others, workspace.tree.roots = root :: others ∧
      others.length + 1 = workspace.creatorCount := by
  have count := arranged.length_roots
  have ascending := arranged.roots_ascending
  have member : root ∈ workspace.tree.roots := arranged.mem_roots.mpr creator
  cases listed : workspace.tree.roots with
  | nil =>
      rw [listed] at member
      cases member
  | cons head others =>
      rw [listed] at member ascending count
      have headCreator : workspace.kind? head = some .blockCreator :=
        arranged.mem_roots.mp (by rw [listed]; exact List.mem_cons_self)
      refine ⟨others, ?_, count⟩
      rcases List.mem_cons.mp member with same | later
      · rw [same]
      · exact absurd headCreator
          (first head (List.rel_of_pairwise_cons ascending later))

end

/-! ## What is generated -/

section

variable {workspace edited : Workspace} {order newOrder : NodeId → Nat}

theorem surrounds_congr {root : NodeId}
    (same : ∀ id, workspace.Surrounds root id →
      edited.node? id = workspace.node? id) :
    ∀ id, workspace.Surrounds root id → edited.Surrounds root id := by
  intro id around
  induction around using Relation.ReflTransGen.head_induction_on with
  | refl => exact .refl
  | head step above above_ih =>
      refine Relation.ReflTransGen.head ?_ above_ih
      rw [parent?, same _ (Relation.ReflTransGen.head step above)]
      exact step

/-- Workspaces with the same nodes below a block creator share its tree. -/
theorem Arranged.shares
    (arranged : workspace.Arranged workspace.tree.chain order)
    (bounded : ∀ id, order id ≤ workspace.size)
    (newArranged : edited.Arranged edited.tree.chain newOrder)
    (newBounded : ∀ id, newOrder id ≤ edited.size) {root : NodeId}
    (creator : workspace.kind? root = some .blockCreator)
    (same : ∀ id, workspace.Surrounds root id →
      edited.node? id = workspace.node? id) :
    workspace.tree.Shares edited.tree (workspace.Surrounds root) where
  same := by
    intro id around
    have node_eq := same id around
    constructor <;>
      simp only [tree, kind?, next?, node_eq]
  closed := by
    intro id child around member
    rw [arranged.tree_children_eq, List.mem_append, List.mem_filterMap,
      Option.mem_toList] at member
    rcases member with ⟨name, _, hangs⟩ | next
    · have inChain : child ∈ workspace.tree.chain id name :=
        arranged.mem_of_target? hangs
      exact around.trans (surrounds_of_parent? (arranged.parent?_eq inChain))
    · rcases arranged.exists_mem_of_next? next with
        ⟨owner, name, inChain, childInChain⟩
      rcases surrounds_iff.mp around with root_eq | ⟨other, step, above⟩
      · rw [root_eq] at inChain
        cases (arranged.parent?_of_creator creator).symm.trans
          (arranged.parent?_eq inChain)
      · cases step.symm.trans (arranged.parent?_eq inChain)
        exact above.trans
          (surrounds_of_parent? (arranged.parent?_eq childInChain))
  reached := by
    intro id around
    rcases exists_kind? (lt_size_of_surrounds (lt_size_of_kind? creator)
      around) with ⟨kind, ofKind⟩
    refine ⟨kind, ofKind, ?_⟩
    by_cases isRoot : id = root
    · rw [isRoot, creator] at ofKind
      exact .inl (Option.some.inj ofKind).symm
    · have newCreator : edited.kind? root = some .blockCreator := by
        rw [kind?, same root .refl]
        exact creator
      exact .inr
        ⟨(arranged.isLive_iff_surrounds bounded).mpr
            ⟨root, creator, isRoot, around⟩,
          (newArranged.isLive_iff_surrounds newBounded).mpr
            ⟨root, newCreator, isRoot, surrounds_congr same id around⟩⟩

end

end Workspace

/-- What is generated for the first of several block creators: a warning tells
that there are several. -/
def Generated.among (generated : Generated) (count : Nat) (root : NodeId) :
    Generated where
  artifact := generated.artifact
  warnings :=
    (if count = 1 then [] else [⟨.multipleRoots count, root⟩])
      ++ generated.warnings

namespace Workspace

variable {workspace : Workspace} {order : NodeId → Nat}

/-- What the walks over a block report says nothing about other blocks. -/
theorem problem_ne_multipleRoots {tree : BlockTree} {root : NodeId}
    {warning : Warning}
    (member : warning ∈
      (Definition.documentReports tree root).foldl Warning.addTo [])
    (count : Nat) : warning.problem ≠ .multipleRoots count := by
  intro several
  rcases (Warning.exists_mem_foldl_addTo (.multipleRoots count) _ []).mp
    ⟨warning, member, several⟩ with ⟨_, impossible, _⟩ | ⟨kept, inReports, same⟩
  · cases impossible
  · rcases List.mem_append.mp inReports with inArguments | last
    · rcases List.mem_flatMap.mp inArguments with ⟨node, _, ofNode⟩
      rcases Definition.exists_of_mem_reports tree ofNode with
        ⟨key, value, invalid⟩
      cases invalid.symm.trans same
    · split_ifs at last
      · rw [List.mem_singleton.mp last] at same
        cases same
      · cases last

/-- A block creator of an arranged workspace has an artifact. -/
theorem exists_generateAt? {tree : BlockTree} (coherent : tree.Coherent order)
    {root : NodeId} (creator : tree.kind root = some .blockCreator) :
    ∃ generated, tree.generateAt? root = some generated ∧
      ∀ warning ∈ generated.warnings, ∀ count,
        warning.problem ≠ .multipleRoots count := by
  rcases Definition.exists_generated coherent creator with
    ⟨definition, generates, _⟩
  have glued : ∃ glue, Glue.withWarnings? tree root = some (glue, []) :=
    ⟨_, Glue.generate?_eq_some_iff.mp (Glue.generate?_eq coherent creator)⟩
  rcases glued with ⟨glue, glues⟩
  have generatesAt : tree.generateAt? root =
      some ⟨⟨definition, glue, tree.exportBlock root definition glue⟩,
        (Definition.documentReports tree root).foldl Warning.addTo []⟩ := by
    rw [BlockTree.generateAt?, generates, glues]
    rfl
  exact ⟨_, generatesAt, fun warning member => problem_ne_multipleRoots member⟩

/-- The first block creator is the one that is generated. -/
theorem Arranged.generate?_eq
    (arranged : workspace.Arranged workspace.tree.chain order) {root : NodeId}
    (creator : workspace.kind? root = some .blockCreator)
    (first : ∀ id < root, workspace.kind? id ≠ some .blockCreator)
    {generated : Generated}
    (generates : workspace.tree.generateAt? root = some generated) :
    workspace.tree.generate? =
      some (.ok (generated.among workspace.creatorCount root)) := by
  rcases arranged.exists_roots creator first with ⟨others, roots, count⟩
  rw [BlockTree.generate?, roots, ← count]
  simp only [generates, Generated.among]
  cases others <;> rfl

/-- Further edits whose subjects are neither the first block creator nor below
it, whether they succeed or fail, leave what is generated as it is.  Only the
warning about several block creators can change, with their number. -/
theorem run_generate_isolated (edits later : List Edit) {root : NodeId}
    (creator : (run edits).kind? root = some .blockCreator)
    (first : ∀ id < root, (run edits).kind? id ≠ some .blockCreator)
    (apart : ∀ edit ∈ later, ∀ id ∈ edit.subject?,
      id ∉ (run edits).tree.descendants root) :
    ∃ generated : Generated,
      (∀ warning ∈ generated.warnings, ∀ count,
        warning.problem ≠ .multipleRoots count) ∧
      (run edits).tree.generate? =
        some (.ok (generated.among (run edits).creatorCount root)) ∧
      (run (edits ++ later)).tree.generate? =
        some (.ok (generated.among (run (edits ++ later)).creatorCount root)) := by
  have split : run (edits ++ later) = (run edits).afterAll later :=
    List.foldl_append
  rcases exists_arranged_run edits with ⟨order, arranged, bounded⟩
  rcases exists_arranged_run (edits ++ later) with
    ⟨newOrder, newArranged, newBounded⟩
  have loose := arranged.parent?_of_creator creator
  have same : ∀ id, (run edits).Surrounds root id →
      (run (edits ++ later)).node? id = (run edits).node? id := by
    rw [split]
    apply arranged.node?_afterAll (rooted_surrounds creator)
    intro edit member id isSubject around
    exact apart edit member id isSubject
      ((arranged.mem_descendants_iff bounded loose).mpr around)
  have newCreator : (run (edits ++ later)).kind? root = some .blockCreator := by
    rw [kind?, same root .refl]
    exact creator
  have newFirst : ∀ id < root,
      (run (edits ++ later)).kind? id ≠ some .blockCreator := by
    rw [split]
    exact arranged.first_afterAll creator first later
  have shares := arranged.shares bounded newArranged newBounded creator same
  have coherent := arranged.coherent bounded
  rcases exists_generateAt? coherent creator with
    ⟨generated, generates, alone⟩
  have newGenerates :
      (run (edits ++ later)).tree.generateAt? root = some generated := by
    rw [shares.generateAt?_congr coherent (newArranged.coherent newBounded)
      .refl, generates]
  exact ⟨generated, alone, arranged.generate?_eq creator first generates,
    newArranged.generate?_eq newCreator newFirst newGenerates⟩

/-- Edits around a block: some build a second block, some are refused. -/
def scratchEdits : List Edit :=
  [.addNode .blockCreator, .addNode .inputValue,
    .setField 7 FieldKey.blockName (.text "scratch"), .attach 7 "INPUTS" 8,
    .attach 7 "INPUTS" 0, .attach 8 "TYPE" 3, .setMutation 99 (.typeGroup 4)]

theorem run_generate_isolated_sample :
    (run sampleEdits).kind? 0 = some .blockCreator ∧
      (∀ id < 0, (run sampleEdits).kind? id ≠ some .blockCreator) ∧
      (∀ edit ∈ scratchEdits, ∀ id ∈ edit.subject?,
        id ∉ (run sampleEdits).tree.descendants 0) ∧
      ∃ generated : Generated,
        (∀ warning ∈ generated.warnings, ∀ count,
          warning.problem ≠ .multipleRoots count) ∧
        (run sampleEdits).tree.generate? =
          some (.ok (generated.among (run sampleEdits).creatorCount 0)) ∧
        (run (sampleEdits ++ scratchEdits)).tree.generate? =
          some (.ok (generated.among
            (run (sampleEdits ++ scratchEdits)).creatorCount 0)) := by
  have first : ∀ id < 0, (run sampleEdits).kind? id ≠ some .blockCreator :=
    fun _ before => absurd before (Nat.not_lt_zero _)
  have apart : ∀ edit ∈ scratchEdits, ∀ id ∈ edit.subject?,
      id ∉ (run sampleEdits).tree.descendants 0 := by
    decide +kernel
  exact ⟨kind?_run_sampleEdits, first, apart,
    run_generate_isolated sampleEdits scratchEdits kind?_run_sampleEdits first
      apart⟩

end Workspace

end BlockForge
