import BlockForge.Proofs.Generation.Fields
import BlockForge.Proofs.Generation.Isolation
import BlockForge.Proofs.Generation.Naming

/-!
# What glue code depends on

Of all that a user sets in a block, its glue code shows the cleaned names of the
block and of its arguments, and how the block is connected.  Two workspaces with
the same kinds and links have the same glue code if they agree in this much,
however their other fields and their mutations differ.

`generate?_eq_of_sameNames` compares two workspaces.  `sameLinks_afterAll` says
which edits keep the links, and `text_settings` what a block shows whose names
are replaced by the cleaned ones; `run_glue_depends_on_names` puts this together.
-/

namespace BlockForge

/-- Whether an edit only sets something for a node. -/
def Edit.sets : Edit → Bool
  | .setField .. | .setMutation .. => true
  | .addNode _ | .attach .. => false

namespace BlockTree

/-- Where the names of a block and of the nodes in it are kept. -/
def namePlaces (tree : BlockTree) (root : NodeId) : List (NodeId × String) :=
  (root, FieldKey.blockName) :: (tree.descendants root).flatMap fun node =>
    [(node, FieldKey.fieldName), (node, FieldKey.inputName)]

/-- The cleaned text of a field. -/
def cleanText (tree : BlockTree) (place : NodeId × String) : String :=
  Text.cleanName (tree.text place.1 place.2)

/-- Two trees have the same cleaned names in a block. -/
def SameNames (tree other : BlockTree) (root : NodeId) : Prop :=
  ∀ place ∈ tree.namePlaces root, other.cleanText place = tree.cleanText place

instance (tree other : BlockTree) (root : NodeId) :
    Decidable (tree.SameNames other root) :=
  List.decidableBAll
    (fun place => other.cleanText place = tree.cleanText place)
    (tree.namePlaces root)

@[simp]
theorem cleanText_mk (tree : BlockTree) (node : NodeId) (key : String) :
    tree.cleanText (node, key) = Text.cleanName (tree.text node key) :=
  rfl

theorem blockName_mem_namePlaces (tree : BlockTree) (root : NodeId) :
    (root, FieldKey.blockName) ∈ tree.namePlaces root :=
  List.mem_cons_self

theorem nameKey_mem_namePlaces {tree : BlockTree} {root node : NodeId}
    (member : node ∈ tree.descendants root) (role : Role) :
    (node, role.nameKey) ∈ tree.namePlaces root := by
  refine List.mem_cons_of_mem _ (List.mem_flatMap.mpr ⟨node, member, ?_⟩)
  cases role <;> simp [Role.nameKey]

/-- Names are not kept with the connections. -/
theorem connections_notMem_namePlaces (tree : BlockTree) (root node : NodeId) :
    (node, FieldKey.connections) ∉ tree.namePlaces root := by
  have different : FieldKey.connections ≠ FieldKey.blockName ∧
      FieldKey.connections ≠ FieldKey.fieldName ∧
        FieldKey.connections ≠ FieldKey.inputName := by
    decide
  simp [namePlaces, different]

end BlockTree

namespace Workspace

/-- Two workspaces have the same kinds of nodes and the same links between them;
the links upwards follow from those downwards.  Nothing is said about what is set
for the nodes. -/
structure SameLinks (workspace other : Workspace) : Prop where
  kind_eq : ∀ id, other.kind? id = workspace.kind? id
  next_eq : ∀ id, other.next? id = workspace.next? id
  target_eq : ∀ id name, other.target? id name = workspace.target? id name

namespace SameLinks

variable {workspace other : Workspace}

theorem refl (workspace : Workspace) : workspace.SameLinks workspace where
  kind_eq := fun _ => rfl
  next_eq := fun _ => rfl
  target_eq := fun _ _ => rfl

theorem trans {third : Workspace} (first : workspace.SameLinks other)
    (second : other.SameLinks third) : workspace.SameLinks third where
  kind_eq := fun id => (second.kind_eq id).trans (first.kind_eq id)
  next_eq := fun id => (second.next_eq id).trans (first.next_eq id)
  target_eq := fun id name =>
    (second.target_eq id name).trans (first.target_eq id name)

theorem size_le (same : workspace.SameLinks other) :
    workspace.size ≤ other.size := by
  by_contra less
  rcases exists_kind? (not_le.mp less) with ⟨kind, ofKind⟩
  have none : other.kind? other.size = none := by
    rw [kind?, node?_eq_none le_rfl, Option.map_none]
  cases none.symm.trans ((same.kind_eq other.size).trans ofKind)

theorem symm (same : workspace.SameLinks other) : other.SameLinks workspace where
  kind_eq := fun id => (same.kind_eq id).symm
  next_eq := fun id => (same.next_eq id).symm
  target_eq := fun id name => (same.target_eq id name).symm

theorem chain_eq (same : workspace.SameLinks other) (id : NodeId)
    (name : String) : other.tree.chain id name = workspace.tree.chain id name := by
  have follows : ∀ fuel met head,
      other.tree.chainFrom fuel met head =
        workspace.tree.chainFrom fuel met head := by
    intro fuel
    induction fuel with
    | zero => exact fun _ _ => rfl
    | succ fuel fuel_ih =>
        intro met head
        cases head with
        | none => rfl
        | some node =>
            rw [BlockTree.chainFrom, BlockTree.chainFrom, fuel_ih,
              tree_nextSibling, tree_nextSibling, same.next_eq]
  have size_eq : other.tree.size = workspace.tree.size :=
    le_antisymm same.symm.size_le same.size_le
  rw [BlockTree.chain, BlockTree.chain, follows, size_eq, tree_slotTarget,
    tree_slotTarget, same.target_eq]

theorem visitedNodes_eq (same : workspace.SameLinks other) (root : NodeId) :
    Glue.visitedNodes other.tree root = Glue.visitedNodes workspace.tree root := by
  simp only [Glue.visitedNodes, BlockTree.items, BlockTree.fieldsOf,
    same.chain_eq]

end SameLinks

section

variable {workspace other : Workspace} {root : NodeId}
  {order otherOrder : NodeId → Nat}

/-- The body of a block visits nodes that hang in it. -/
theorem Arranged.mem_descendants_of_visited
    (arranged : workspace.Arranged workspace.tree.chain order)
    (bounded : ∀ id, order id ≤ workspace.size)
    (creator : workspace.kind? root = some .blockCreator) {node : NodeId}
    (visited : node ∈ Glue.visitedNodes workspace.tree root) :
    node ∈ workspace.tree.descendants root := by
  rw [arranged.mem_descendants_iff bounded (arranged.parent?_of_creator creator)]
  rcases List.mem_flatMap.mp visited with ⟨item, inItems, inItem⟩
  have around := surrounds_of_parent? (arranged.parent?_eq inItems)
  rcases List.mem_cons.mp inItem with rfl | inFields
  · exact around
  · exact around.trans (surrounds_of_parent? (arranged.parent?_eq inFields))

/-- The variable of a node depends on its kind and on its cleaned name. -/
theorem variableOf?_eq (same : workspace.SameLinks other)
    (names : workspace.tree.SameNames other.tree root) {node : NodeId}
    (member : node ∈ workspace.tree.descendants root) :
    Glue.variableOf? other.tree node = Glue.variableOf? workspace.tree node := by
  have name_eq : ∀ role : Role,
      Text.cleanName (other.tree.text node role.nameKey) =
        Text.cleanName (workspace.tree.text node role.nameKey) := by
    intro role
    have clean := names _ (BlockTree.nameKey_mem_namePlaces member role)
    simpa only [BlockTree.cleanText_mk] using clean
  simp only [Glue.variableOf?, tree_kind, same.kind_eq, name_eq]

/-- Workspaces with the same kinds and links give a block the same glue code if
its cleaned names and its connections are the same. -/
theorem generate?_eq_of_sameNames
    (arranged : workspace.Arranged workspace.tree.chain order)
    (bounded : ∀ id, order id ≤ workspace.size)
    (otherArranged : other.Arranged other.tree.chain otherOrder)
    (otherBounded : ∀ id, otherOrder id ≤ other.size)
    (creator : workspace.kind? root = some .blockCreator)
    (same : workspace.SameLinks other)
    (names : workspace.tree.SameNames other.tree root)
    (connections :
      Connections.ofOption (other.tree.text root FieldKey.connections) =
        Connections.ofOption (workspace.tree.text root FieldKey.connections)) :
    Glue.generate? other.tree root = Glue.generate? workspace.tree root := by
  have otherCreator : other.kind? root = some .blockCreator :=
    (same.kind_eq root).trans creator
  have name_eq : Glue.blockName other.tree root =
      Glue.blockName workspace.tree root := by
    have clean := names _ (BlockTree.blockName_mem_namePlaces _ root)
    simpa only [BlockTree.cleanText_mk, Glue.blockName] using clean
  have variables_eq : Glue.variablesOf other.tree root =
      Glue.variablesOf workspace.tree root := by
    rw [Glue.variablesOf, Glue.variablesOf, same.visitedNodes_eq]
    apply List.filterMap_congr
    intro node visited
    exact variableOf?_eq same names
      (arranged.mem_descendants_of_visited bounded creator visited)
  rw [Glue.generate?_eq (arranged.coherent bounded) creator,
    Glue.generate?_eq (otherArranged.coherent otherBounded) otherCreator,
    name_eq, variables_eq, connections]

end

/-! ## Edits that set something -/

theorem bind_node?_modify (workspace : Workspace) (id : NodeId)
    {change : Node → Node} {α : Type} {read : Node → Option α}
    (keeps : ∀ node, read (change node) = read node) (other : NodeId) :
    ((workspace.modify id change).node? other).bind read =
      (workspace.node? other).bind read := by
  rw [node?_modify, Option.bind_map]
  congr 1
  funext node
  rw [Function.comp_apply]
  split_ifs
  · exact keeps node
  · rfl

/-- A change that keeps the links of a node keeps those of the workspace. -/
theorem sameLinks_modify (workspace : Workspace) (id : NodeId)
    {change : Node → Node} (keeps : ∀ node : Node, node.Keeps (change node)) :
    workspace.SameLinks (workspace.modify id change) where
  kind_eq := kind?_modify id fun node => (keeps node).kind_eq
  next_eq := workspace.bind_node?_modify id fun node => (keeps node).next_eq
  target_eq := fun other name =>
    workspace.bind_node?_modify id (fun node => (keeps node).target_eq name)
      other

theorem sameLinks_after (workspace : Workspace) {edit : Edit}
    (sets : edit.sets = true) : workspace.SameLinks (workspace.after edit) := by
  unfold after
  cases performed : workspace.perform edit with
  | error _ => exact SameLinks.refl workspace
  | ok edited =>
      cases edit with
      | setField id key value =>
          rw [update_eq_ok performed]
          exact workspace.sameLinks_modify id fun node => node.keeps_fields _
      | setMutation id mutation =>
          rw [update_eq_ok performed]
          exact workspace.sameLinks_modify id fun node =>
            node.keeps_setMutation mutation
      | addNode | attach => cases sets

/-- Setting fields and mutations leaves the kinds and the links as they are. -/
theorem sameLinks_afterAll {edits : List Edit}
    (sets : ∀ edit ∈ edits, edit.sets = true) :
    ∀ workspace : Workspace, workspace.SameLinks (workspace.afterAll edits) := by
  unfold afterAll
  induction edits with
  | nil => exact SameLinks.refl
  | cons edit edits edits_ih =>
      rw [List.forall_mem_cons] at sets
      exact fun workspace =>
        (workspace.sameLinks_after sets.1).trans (edits_ih sets.2 _)

/-! ## Replacing names -/

/-- Edits that set the fields of some places to texts. -/
def settings (places : List (NodeId × String))
    (texts : NodeId × String → String) : List Edit :=
  places.map fun place => .setField place.1 place.2 (.text (texts place))

theorem sameLinks_settings (workspace : Workspace)
    (places : List (NodeId × String)) (texts : NodeId × String → String) :
    workspace.SameLinks (workspace.afterAll (settings places texts)) := by
  apply sameLinks_afterAll
  intro edit member
  rcases List.mem_map.mp member with ⟨place, _, rfl⟩
  rfl

/-- Edits that replace the names of a block by the cleaned names. -/
def cleaning (workspace : Workspace) (root : NodeId) : List Edit :=
  settings (workspace.tree.namePlaces root) workspace.tree.cleanText

section

variable (workspace : Workspace)

theorem text_setField {id : NodeId} (inside : id < workspace.size)
    (key text : String) (place : NodeId × String) :
    (workspace.after (.setField id key (.text text))).tree.text
        place.1 place.2 =
      if place = (id, key) then text
      else workspace.tree.text place.1 place.2 := by
  rw [BlockTree.text, field_setField inside]
  split_ifs <;> rfl

/-- Each place has its text afterwards, and no other place is touched. -/
theorem text_settings {places : List (NodeId × String)}
    (inside : ∀ place ∈ places, place.1 < workspace.size)
    (texts : NodeId × String → String) (other : NodeId × String) :
    (workspace.afterAll (settings places texts)).tree.text other.1 other.2 =
      if other ∈ places then texts other
      else workspace.tree.text other.1 other.2 := by
  unfold settings afterAll
  induction places generalizing workspace with
  | nil => simp
  | cons place places places_ih =>
      rw [List.forall_mem_cons] at inside
      have larger : workspace.size ≤ (workspace.after
          (.setField place.1 place.2 (.text (texts place)))).size :=
        (workspace.sameLinks_after rfl).size_le
      rw [List.map_cons, List.foldl_cons,
        places_ih _ fun next member => (inside.2 next member).trans_le larger,
        text_setField _ inside.1]
      by_cases last : other ∈ places
      · simp [last]
      · by_cases here : other = place
        · simp [here]
        · simp [here, last]

end

section

variable {workspace : Workspace} {root : NodeId} {order : NodeId → Nat}
  (arranged : workspace.Arranged workspace.tree.chain order)
  (bounded : ∀ id, order id ≤ workspace.size)
  (creator : workspace.kind? root = some .blockCreator)

include arranged bounded creator

/-- Where the names of a block are kept are nodes of the workspace. -/
theorem Arranged.lt_size_of_namePlaces :
    ∀ place ∈ workspace.tree.namePlaces root, place.1 < workspace.size := by
  have inside := lt_size_of_kind? creator
  intro place member
  rcases List.mem_cons.mp member with rfl | inBlock
  · exact inside
  · rcases List.mem_flatMap.mp inBlock with ⟨node, below, ofNode⟩
    rw [arranged.mem_descendants_iff bounded
      (arranged.parent?_of_creator creator)] at below
    have here := lt_size_of_surrounds inside below
    simp only [List.mem_cons, List.not_mem_nil, or_false] at ofNode
    rcases ofNode with rfl | rfl <;> exact here

theorem Arranged.text_cleaning (place : NodeId × String) :
    (workspace.afterAll (workspace.cleaning root)).tree.text place.1 place.2 =
      if place ∈ workspace.tree.namePlaces root then
        workspace.tree.cleanText place
      else workspace.tree.text place.1 place.2 :=
  text_settings workspace (arranged.lt_size_of_namePlaces bounded creator) _ _

/-- Cleaned names are the same when they are cleaned again. -/
theorem Arranged.sameNames_cleaning :
    workspace.tree.SameNames
      (workspace.afterAll (workspace.cleaning root)).tree root := by
  intro place member
  rw [BlockTree.cleanText, arranged.text_cleaning bounded creator,
    if_pos member]
  exact Text.cleanName_eq_self_iff.mpr (Text.isName_cleanName _)

theorem Arranged.connections_cleaning :
    (workspace.afterAll (workspace.cleaning root)).tree.text root
        FieldKey.connections =
      workspace.tree.text root FieldKey.connections := by
  rw [arranged.text_cleaning bounded creator (root, FieldKey.connections),
    if_neg (BlockTree.connections_notMem_namePlaces _ root root)]

end

/-- The glue code of a block depends on what a user sets only through the
cleaned names of the block and of the nodes in it, and through its connections.
So replacing each of these names by the cleaned name changes nothing.  All names
in the glue code consist of letters, digits and underscores. -/
theorem run_glue_depends_on_names (edits others : List Edit) {root : NodeId}
    (creator : (run edits).kind? root = some .blockCreator)
    (same : (run edits).SameLinks (run others))
    (names : (run edits).tree.SameNames (run others).tree root)
    (connections :
      Connections.ofOption ((run others).tree.text root FieldKey.connections) =
        Connections.ofOption
          ((run edits).tree.text root FieldKey.connections)) :
    ∃ glue, Glue.generate? (run edits).tree root = some glue ∧
      Glue.generate? (run others).tree root = some glue ∧
      (∀ place ∈ (run edits).tree.namePlaces root,
        (run (edits ++ (run edits).cleaning root)).tree.text place.1 place.2 =
          Text.cleanName ((run edits).tree.text place.1 place.2)) ∧
      Glue.generate? (run (edits ++ (run edits).cleaning root)).tree root =
        some glue ∧
      Text.IsName glue.name ∧
      ∀ declared ∈ glue.arguments,
        Text.IsName declared.parameter ∧ Text.IsName declared.localName := by
  rcases exists_arranged_run edits with ⟨order, arranged, bounded⟩
  rcases exists_arranged_run others with
    ⟨otherOrder, otherArranged, otherBounded⟩
  rcases exists_arranged_run (edits ++ (run edits).cleaning root) with
    ⟨cleanOrder, cleanArranged, cleanBounded⟩
  rw [run_append] at cleanArranged cleanBounded ⊢
  have generates := Glue.generate?_eq (arranged.coherent bounded) creator
  have named := Glue.generate?_named generates
  refine ⟨_, generates, ?_, ?_, ?_, named.name, ?_⟩
  · rw [generate?_eq_of_sameNames arranged bounded otherArranged otherBounded
      creator same names connections, generates]
  · intro place member
    rw [arranged.text_cleaning bounded creator, if_pos member,
      BlockTree.cleanText]
  · rw [generate?_eq_of_sameNames arranged bounded cleanArranged cleanBounded
      creator (sameLinks_settings ..)
      (arranged.sameNames_cleaning bounded creator)
      (by rw [arranged.connections_cleaning bounded creator]), generates]
  · intro declared member
    have isName := named.arguments declared member
    exact ⟨isName, Variable.isName_localName isName⟩

/-- A block with names that are not clean. -/
def labelledEdits : List Edit :=
  sampleEdits ++ [.setField 0 FieldKey.blockName (.text "go to"),
    .setField 2 FieldKey.fieldName (.text "x'y")]

/-- The same block with other names and other settings. -/
def relabelledEdits : List Edit :=
  sampleEdits ++ [.setField 0 FieldKey.blockName (.text "go', to"),
    .setField 2 FieldKey.fieldName (.text "x\n\"y"),
    .setField 0 FieldKey.connections (.text "';"),
    .setField 0 FieldKey.tooltip (.bool true), .setMutation 3 (.typeGroup 5)]

theorem run_glue_depends_on_names_relabelled :
    (run labelledEdits).kind? 0 = some .blockCreator ∧
      (run labelledEdits).SameLinks (run relabelledEdits) ∧
      (run labelledEdits).tree.SameNames (run relabelledEdits).tree 0 ∧
      Connections.ofOption
          ((run relabelledEdits).tree.text 0 FieldKey.connections) =
        Connections.ofOption
          ((run labelledEdits).tree.text 0 FieldKey.connections) ∧
      ∃ glue, Glue.generate? (run labelledEdits).tree 0 = some glue ∧
        Glue.generate? (run relabelledEdits).tree 0 = some glue ∧
        (∀ place ∈ (run labelledEdits).tree.namePlaces 0,
          (run (labelledEdits ++ (run labelledEdits).cleaning 0)).tree.text
              place.1 place.2 =
            Text.cleanName
              ((run labelledEdits).tree.text place.1 place.2)) ∧
        Glue.generate?
            (run (labelledEdits ++ (run labelledEdits).cleaning 0)).tree 0 =
          some glue ∧
        Text.IsName glue.name ∧
        ∀ declared ∈ glue.arguments,
          Text.IsName declared.parameter ∧ Text.IsName declared.localName := by
  have creator : (run labelledEdits).kind? 0 = some .blockCreator := by
    decide +kernel
  have same : (run labelledEdits).SameLinks (run relabelledEdits) := by
    have sets : ∀ {later : List Edit}, (∀ edit ∈ later, edit.sets = true) →
        (run sampleEdits).SameLinks (run (sampleEdits ++ later)) := by
      intro later sets
      rw [run_append]
      exact sameLinks_afterAll sets _
    exact (sets (by decide)).symm.trans (sets (by decide))
  have names : (run labelledEdits).tree.SameNames (run relabelledEdits).tree 0 := by
    decide +kernel
  have connections :
      Connections.ofOption
          ((run relabelledEdits).tree.text 0 FieldKey.connections) =
        Connections.ofOption
          ((run labelledEdits).tree.text 0 FieldKey.connections) := by
    decide +kernel
  exact ⟨creator, same, names, connections,
    run_glue_depends_on_names labelledEdits relabelledEdits creator same names
      connections⟩

end Workspace

end BlockForge
