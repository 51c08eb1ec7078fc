import BlockForge.Generation.Glue
import BlockForge.Proofs.Generation.Arguments
import BlockForge.Proofs.Generation.Walk

/-!
# The variables of a block

The glue code declares the items of a block in order, each before its fields.
`exists_declaration_items` follows the walk over them, and `generate?_eq` puts
the whole glue code together: the statements that read the variables, then the
call.
-/

namespace BlockForge.Glue

/-- The variable that a node is read into. -/
def variableOf? (tree : BlockTree) (node : NodeId) : Option Variable :=
  ((tree.kind node).bind Role.ofKind?).map fun role =>
    ⟨role, Text.cleanName (tree.text node role.nameKey)⟩

/-- The nodes that the body of a block visits. -/
def visitedNodes (tree : BlockTree) (root : NodeId) : List NodeId :=
  (tree.items root).flatMap fun item => item :: tree.fieldsOf item

/-- The variables of a block, in the order of their declarations. -/
def variablesOf (tree : BlockTree) (root : NodeId) : List Variable :=
  (visitedNodes tree root).filterMap (variableOf? tree)

/-- The statements that read the variables of nodes. -/
def statementsOf (tree : BlockTree) (nodes : List NodeId) : String :=
  String.join ((nodes.filterMap (variableOf? tree)).map Variable.statement)

/-- Declarations come one after the other. -/
def addVariable (state : State) (declared : Variable) : State :=
  { state with arguments := state.arguments ++ [declared] }

theorem foldl_addVariable (entries : List Variable) (state : State) :
    entries.foldl addVariable state =
      { state with arguments := state.arguments ++ entries } := by
  induction entries generalizing state with
  | nil => rw [List.foldl_nil, List.append_nil]
  | cons entry entries entries_ih =>
      rw [List.foldl_cons, entries_ih, addVariable, List.append_assoc,
        List.singleton_append]

variable (tree : BlockTree)

theorem statementsOf_append (nodes others : List NodeId) :
    statementsOf tree (nodes ++ others) =
      statementsOf tree nodes ++ statementsOf tree others := by
  simp only [statementsOf, List.filterMap_append, List.map_append,
    String.join_append]

theorem statementsOf_cons (node : NodeId) (others : List NodeId) :
    statementsOf tree (node :: others) =
      statementsOf tree [node] ++ statementsOf tree others :=
  statementsOf_append tree [node] others

theorem filterMap_variableOf? (nodes : List NodeId) :
    (nodes.flatMap fun node => (variableOf? tree node).toList) =
      nodes.filterMap (variableOf? tree) := by
  induction nodes with
  | nil => rfl
  | cons node nodes nodes_ih =>
      rw [List.flatMap_cons, nodes_ih]
      cases declared : variableOf? tree node <;> simp [declared]

section

variable {tree} {rank : NodeId → Nat}

/-- The code of a node that is no block creator reads its variable. -/
theorem codes_argument {node : NodeId} {kind : Kind}
    (ofKind : tree.kind node = some kind) (other : kind ≠ .blockCreator)
    (live : tree.isLive node = true) :
    (producer tree).Codes tree rank addVariable node
      (fun code => code = statementsOf tree [node])
      (variableOf? tree node).toList := by
  refine ⟨kind, ofKind, .inr live, fun depth _ => ⟨_, rfl, ?_⟩⟩
  change Gives addVariable
    (produce tree ((producer tree).walkWithin tree depth) node kind) _ _
  rw [produce, if_neg other]
  cases read : Role.ofKind? kind with
  | none =>
      have undeclared : variableOf? tree node = none := by
        simp [variableOf?, ofKind, read]
      simp only [statementsOf, List.filterMap_cons, undeclared]
      exact Gives.done ""
  | some role =>
      let declared : Variable :=
        ⟨role, Text.cleanName (tree.text node role.nameKey)⟩
      have isDeclared : variableOf? tree node = some declared := by
        simp [variableOf?, ofKind, read, declared]
      simp only [statementsOf, List.filterMap_cons, isDeclared, List.filterMap_nil,
        List.map_cons, List.map_nil, String.join_cons, String.join_nil,
        String.append_empty, Option.toList_some]
      have declares : Gives addVariable (declare tree node role)
          declared.statement [declared] :=
        (Gives.one declared).bind_pure fun _ => declared.statement
      exact declares

theorem foldr_join_statements {nodes : List NodeId} {codes : List String}
    (statements : List.Forall₂
      (fun node code => code = statementsOf tree [node]) nodes codes) :
    codes.foldr (producer tree).join "" = statementsOf tree nodes := by
  induction statements with
  | nil => rfl
  | cons first others others_ih =>
      rw [List.foldr_cons, others_ih, first]
      exact (statementsOf_cons ..).symm

theorem gives_itemCode (coherent : tree.Coherent rank) {root item : NodeId}
    (creator : tree.kind root = some .blockCreator)
    (member : item ∈ tree.items root) {depth : Nat}
    (enough : tree.size ≤ depth + rank root) :
    Gives addVariable
      (itemCode ((producer tree).walkWithin tree depth) tree item)
      (statementsOf tree (item :: tree.fieldsOf item))
      ((item :: tree.fieldsOf item).flatMap fun node =>
        (variableOf? tree node).toList) := by
  have live := coherent.isLive_of_mem_items creator member
  have less := coherent.rank_lt_of_mem member
  have deep : tree.size < depth + rank item := by omega
  have joins : ∀ code, (producer tree).join code "" = code :=
    fun _ => String.append_empty
  have own : (producer tree).Codes tree rank addVariable item
      (fun code => code = statementsOf tree [item])
      (variableOf? tree item).toList := by
    rcases coherent.exists_kind_of_mem_items member with
      ⟨kind, ofKind, argument⟩
    refine codes_argument ofKind ?_ live
    rintro rfl
    rcases argument with isInput | isField
    · cases isInput
    · cases isField
  have fields : ∀ field ∈ tree.fieldsOf item,
      (producer tree).Codes tree rank addVariable field
        (fun code => code = statementsOf tree [field])
        (variableOf? tree field).toList := by
    intro field inFields
    rcases coherent.exists_kind_of_mem_fieldsOf inFields with
      ⟨kind, ofKind, isField⟩
    refine codes_argument ofKind ?_
      (coherent.isLive_of_mem_chain live inFields)
    rintro rfl
    cases isField
  rcases own.walkWithin coherent deep with ⟨ownCode, rfl, givesOwn⟩
  rcases Producer.gives_slotCode coherent joins fields deep.le with
    ⟨codes, statements, givesFields⟩
  rw [foldr_join_statements statements] at givesFields
  rw [statementsOf_cons, List.flatMap_cons]
  exact givesOwn.bind (givesFields.bind_pure _)

/-- The items of a block give the statements that read its variables, and they
declare these variables. -/
theorem exists_declaration_items (coherent : tree.Coherent rank) {root : NodeId}
    (creator : tree.kind root = some .blockCreator) {depth : Nat}
    (enough : tree.size ≤ depth + rank root) :
    ∃ codes : List String,
      String.join codes = statementsOf tree (visitedNodes tree root) ∧
        Gives addVariable
          ((tree.items root).mapM
            (itemCode ((producer tree).walkWithin tree depth) tree))
          codes (variablesOf tree root) := by
  have each : ∀ item ∈ tree.items root,
      ∃ code, code = statementsOf tree (item :: tree.fieldsOf item) ∧
        Gives addVariable
          (itemCode ((producer tree).walkWithin tree depth) tree item) code
          ((item :: tree.fieldsOf item).flatMap fun node =>
            (variableOf? tree node).toList) :=
    fun item member => ⟨_, rfl, gives_itemCode coherent creator member enough⟩
  rcases Gives.mapM each with ⟨codes, statements, gives⟩
  refine ⟨codes, ?_, ?_⟩
  · unfold visitedNodes
    clear gives each
    generalize tree.items root = items at statements ⊢
    induction statements with
    | nil => rfl
    | cons first others others_ih =>
        rw [String.join_cons, others_ih, first, List.flatMap_cons,
          statementsOf_append]
  · rw [variablesOf, visitedNodes, ← filterMap_variableOf?, List.flatMap_assoc]
    exact gives

/-- The call of a block has the variables that its items declare. -/
theorem run_blockCreator {steps : Walk State} {root : NodeId}
    {codes : List String} {found : State}
    (items : ((tree.items root).mapM (itemCode steps tree)).run {} =
      some (codes, found)) :
    (blockCreator steps tree root).run {} =
      some (String.join codes ++ callText (blockName tree root) found.arguments
        (Connections.ofOption (tree.text root FieldKey.connections)),
        found) := by
  rw [BlockTree.items] at items
  rw [blockCreator, StateT.run_bind, items]
  rfl

/-- The glue code of a block reads its variables and builds the call. -/
theorem generate?_eq (coherent : tree.Coherent rank) {root : NodeId}
    (creator : tree.kind root = some .blockCreator) :
    generate? tree root = some
      { name := blockName tree root
        declaration :=
          declarationText (blockName tree root) (variablesOf tree root)
        body := String.join ((variablesOf tree root).map Variable.statement) ++
          callText (blockName tree root) (variablesOf tree root)
            (Connections.ofOption (tree.text root FieldKey.connections))
        arguments := variablesOf tree root } := by
  have enough : tree.size ≤ 2 * tree.size + rank root := by omega
  rcases exists_declaration_items coherent creator enough with
    ⟨codes, statements, gives⟩
  have items := gives {}
  rw [foldl_addVariable, List.nil_append] at items
  have walked : (walk tree root true).run {} =
      some (String.join codes ++ callText (blockName tree root)
        (variablesOf tree root)
          (Connections.ofOption (tree.text root FieldKey.connections)),
        { arguments := variablesOf tree root }) := by
    rw [walk, Producer.walk, Producer.walkWithin_succ creator (.inl rfl),
      coherent.creator_loose creator, StateT.run_bind]
    change ((blockCreator _ tree root).run {} >>= _) = _
    rw [run_blockCreator items]
    rfl
  simp only [generate?, withWarnings?, walked, creator, if_true,
    Option.map_some, statements]
  rfl

end

end BlockForge.Glue
