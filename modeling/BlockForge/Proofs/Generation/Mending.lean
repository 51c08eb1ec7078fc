import BlockForge.Proofs.Generation.Fields
import BlockForge.Proofs.Generation.Readings

/-!
# Mended blocks

Where a stored value has no reading, the definition of a block shows a default
instead.  So the document stays the same if the default is stored there.

The warnings that are collected on the way never reach the document:
`SameResult` compares passes without their states, and
`Definition.sameResult_produce` the fragments of one node.  Fields that overwrite
the faults of a block are described by `Mends`; with them the definition stays the
same (`Mends.generate?_eq`) and no fault is left (`Mends.faults_eq_nil`).
-/

namespace BlockForge

/-- Two passes have the same result, whatever their states are. -/
def SameResult {σ α : Type} (first second : Pass σ α) : Prop :=
  ∀ state other,
    (first.run state).map Prod.fst = (second.run other).map Prod.fst

namespace SameResult

variable {σ ε α β : Type}

theorem done (result : α) :
    SameResult (pure result : Pass σ α) (pure result) :=
  fun _ _ => rfl

theorem lift (value : Option α) :
    SameResult (liftM value : Pass σ α) (liftM value) := by
  intro state other
  cases value <;> rfl

theorem of_gives {add : σ → ε → σ} {first second : Pass σ α} {result : α}
    {entries others : List ε} (gives : Gives add first result entries)
    (otherGives : Gives add second result others) :
    SameResult first second := by
  intro state other
  rw [gives, otherGives]
  rfl

theorem bind {first second : Pass σ α} {next following : α → Pass σ β}
    (same : SameResult first second)
    (continues : ∀ result, SameResult (next result) (following result)) :
    SameResult (first >>= next) (second >>= following) := by
  intro state other
  rw [StateT.run_bind, StateT.run_bind]
  have starts := same state other
  cases ends : first.run state with
  | none =>
      rw [ends, Option.map_none, eq_comm, Option.map_eq_none_iff] at starts
      rw [starts]
      rfl
  | some reached =>
      rw [ends, Option.map_some, eq_comm, Option.map_eq_some_iff] at starts
      rcases starts with ⟨⟨_, after⟩, otherEnds, rfl⟩
      rw [otherEnds]
      exact continues reached.1 reached.2 after

theorem mapM {item other : α → Pass σ β} {list : List α}
    (each : ∀ member ∈ list, SameResult (item member) (other member)) :
    SameResult (list.mapM item) (list.mapM other) := by
  induction list with
  | nil => exact done []
  | cons head rest rest_ih =>
      rw [List.forall_mem_cons] at each
      rw [List.mapM_cons, List.mapM_cons]
      exact each.1.bind fun _ => (rest_ih each.2).bind fun _ => done _

end SameResult

namespace Definition

theorem readings_withFields (tree : BlockTree)
    (field : NodeId → String → Option FieldValue) (node : NodeId) :
    readings (tree.withFields field) node = readings tree node := by
  unfold readings
  rw [BlockTree.withFields_kind]
  rfl

/-- A node whose fields are replaced shows the same: the same texts where it is
not read otherwise, and the same numbers and booleans where it is. -/
structure SameShown (tree : BlockTree)
    (field : NodeId → String → Option FieldValue) (node : NodeId) : Prop where
  text_eq : ∀ {key}, key ∉ (readings tree node).map Prod.fst →
    (tree.withFields field).text node key = tree.text node key
  number_eq : ∀ {key}, (key, .number) ∈ readings tree node →
    numberOf (tree.withFields field) node key = numberOf tree node key
  bool_eq : ∀ {key}, (key, .bool) ∈ readings tree node →
    readingOf FieldValue.asBool false (tree.withFields field) node key =
      readingOf FieldValue.asBool false tree node key

section

variable {tree : BlockTree} {field : NodeId → String → Option FieldValue}
  {node : NodeId}

theorem readings_eq {kind : Kind} (ofKind : tree.kind node = some kind) :
    readings tree node = kindReadings tree node kind := by
  rw [readings, ofKind]
  rfl

namespace SameShown

variable (same : SameShown tree field node)

include same

theorem readNumber {key : String} (member : (key, .number) ∈ readings tree node) :
    SameResult (readNumber tree node key)
      (readNumber (tree.withFields field) node key) := by
  have gives := gives_readNumber (tree.withFields field) node key
  rw [same.number_eq member] at gives
  exact .of_gives (gives_readNumber tree node key) gives

theorem numberField {key : String}
    (member : (key, .number) ∈ readings tree node) :
    SameResult (numberField tree node key)
      (numberField (tree.withFields field) node key) :=
  (same.readNumber member).bind fun _ => .done _

theorem boolField {key : String} (member : (key, .bool) ∈ readings tree node) :
    SameResult (boolField tree node key)
      (boolField (tree.withFields field) node key) := by
  have gives := gives_boolField (tree.withFields field) node key
  rw [same.bool_eq member] at gives
  exact .of_gives (gives_boolField tree node key) gives

theorem quotedField {key : String}
    (unread : key ∉ (readings tree node).map Prod.fst) :
    quotedField (tree.withFields field) node key = quotedField tree node key := by
  rw [Definition.quotedField, Definition.quotedField, same.text_eq unread]

theorem nameField {key : String}
    (unread : key ∉ (readings tree node).map Prod.fst) :
    nameField (tree.withFields field) node key = nameField tree node key := by
  rw [Definition.nameField, Definition.nameField, same.text_eq unread]

theorem namedField (jsonType key value : String)
    (unread : FieldKey.fieldName ∉ (readings tree node).map Prod.fst) :
    namedField jsonType key value (tree.withFields field) node =
      namedField jsonType key value tree node := by
  rw [Definition.namedField, Definition.namedField, same.nameField unread]

theorem numericInput (ofKind : tree.kind node = some .numericInput) :
    SameResult (numericInput tree node)
      (numericInput (tree.withFields field) node) := by
  have readings_eq := readings_eq ofKind
  have unread : FieldKey.fieldName ∉ (readings tree node).map Prod.fst := by
    rw [readings_eq]
    exact (by decide : FieldKey.fieldName ∉
      [FieldKey.value, FieldKey.min, FieldKey.max, FieldKey.precision])
  unfold Definition.numericInput
  rw [same.nameField unread]
  refine (same.numberField (by simp [readings_eq, kindReadings])).bind
    fun value => ?_
  refine (same.readNumber (by simp [readings_eq, kindReadings])).bind
    fun min => ?_
  refine (same.readNumber (by simp [readings_eq, kindReadings])).bind
    fun max => ?_
  refine (same.readNumber (by simp [readings_eq, kindReadings])).bind
    fun precision => ?_
  exact .done _

theorem fieldImage (ofKind : tree.kind node = some .fieldImage) :
    SameResult (fieldImage tree node)
      (fieldImage (tree.withFields field) node) := by
  have readings_eq := readings_eq ofKind
  have unread : ∀ key ∈ [FieldKey.source, FieldKey.alternative],
      key ∉ (readings tree node).map Prod.fst := by
    rw [readings_eq]
    exact (by decide : ∀ key ∈ [FieldKey.source, FieldKey.alternative],
      key ∉ [FieldKey.width, FieldKey.height, FieldKey.flipRtl])
  unfold Definition.fieldImage
  rw [same.quotedField (unread FieldKey.source (by simp)),
    same.quotedField (unread FieldKey.alternative (by simp))]
  refine (same.numberField (by simp [readings_eq, kindReadings])).bind
    fun width => ?_
  refine (same.numberField (by simp [readings_eq, kindReadings])).bind
    fun height => ?_
  refine (same.boolField (by simp [readings_eq, kindReadings])).bind
    fun flip => ?_
  exact .done _

omit same in
/-- The texts of a dropdown are kept under other keys than the numbers of its
options. -/
theorem unread_dropdown (ofKind : tree.kind node = some .fieldDropdown)
    {key : String} (start : key.toList.head? ≠ some 'W' ∧
      key.toList.head? ≠ some 'H') :
    key ∉ (readings tree node).map Prod.fst := by
  intro member
  rcases List.mem_map.mp member with ⟨entry, isRead, rfl⟩
  rw [readings_eq ofKind, kindReadings] at isRead
  rcases List.mem_flatMap.mp isRead with ⟨option, _, inOption⟩
  rcases head?_mem_optionReadings inOption with width | height
  · exact start.1 width
  · exact start.2 height

omit same in
theorem unread_indexed (ofKind : tree.kind node = some .fieldDropdown)
    {key : String} (start : key.toList.head? ≠ some 'W' ∧
      key.toList.head? ≠ some 'H') (nonempty : key.toList ≠ []) (index : Nat) :
    FieldKey.indexed key index ∉ (readings tree node).map Prod.fst := by
  apply unread_dropdown ofKind
  rwa [FieldKey.head?_indexed nonempty]

theorem dropdownOption (ofKind : tree.kind node = some .fieldDropdown)
    {index : Nat} {kind : OptionKind}
    (inDropdown : (kind, index) ∈ (dropdownKinds tree node).zipIdx) :
    SameResult (dropdownOption tree node index kind)
      (dropdownOption (tree.withFields field) node index kind) := by
  have isRead : ∀ entry ∈ optionReadings index kind,
      entry ∈ readings tree node := by
    rw [readings_eq ofKind, kindReadings]
    exact fun entry member => List.mem_flatMap.mpr ⟨_, inDropdown, member⟩
  have text_eq : ∀ key ∈ [FieldKey.optionText, FieldKey.source,
      FieldKey.alternative, FieldKey.optionValue],
      Definition.quotedField (tree.withFields field) node
          (FieldKey.indexed key index) =
        Definition.quotedField tree node (FieldKey.indexed key index) := by
    intro key member
    have start : ∀ key ∈ [FieldKey.optionText, FieldKey.source,
        FieldKey.alternative, FieldKey.optionValue],
        (key.toList.head? ≠ some 'W' ∧ key.toList.head? ≠ some 'H') ∧
          key.toList ≠ [] := by
      decide
    rcases start key member with ⟨start, nonempty⟩
    exact same.quotedField (unread_indexed ofKind start nonempty index)
  unfold Definition.dropdownOption
  dsimp only
  rw [text_eq FieldKey.optionText (by simp), text_eq FieldKey.source (by simp),
    text_eq FieldKey.alternative (by simp), text_eq FieldKey.optionValue (by simp)]
  cases kind with
  | text => exact .done _
  | image =>
      refine (same.numberField (isRead _ List.mem_cons_self)).bind fun width => ?_
      refine (same.numberField (isRead _ (by simp [optionReadings]))).bind
        fun height => ?_
      exact .done _

theorem dropdownOptions (ofKind : tree.kind node = some .fieldDropdown)
    (kinds : List OptionKind) :
    ∀ index, (∀ option ∈ kinds.zipIdx index,
        option ∈ (dropdownKinds tree node).zipIdx) →
      SameResult (dropdownOptions tree node index kinds)
        (dropdownOptions (tree.withFields field) node index kinds) := by
  induction kinds with
  | nil => exact fun _ _ => .done []
  | cons kind kinds kinds_ih =>
      intro index inDropdown
      rw [List.zipIdx_cons, List.forall_mem_cons] at inDropdown
      exact (same.dropdownOption ofKind inDropdown.1).bind fun _ =>
        (kinds_ih _ inDropdown.2).bind fun _ => .done _

theorem fieldDropdown (ofKind : tree.kind node = some .fieldDropdown) :
    SameResult (fieldDropdown tree node)
      (fieldDropdown (tree.withFields field) node) := by
  have unread : FieldKey.fieldName ∉ (readings tree node).map Prod.fst :=
    unread_dropdown ofKind (by decide)
  unfold Definition.fieldDropdown
  simp only [same.namedField _ _ _ unread]
  exact (same.dropdownOptions ofKind _ 0 fun _ member => member).bind
    fun _ => .done _

theorem angleInput (ofKind : tree.kind node = some .angleInput)
    (steps otherSteps : Walk (List Warning)) :
    SameResult (produce tree steps node .angleInput)
      (produce (tree.withFields field) otherSteps node .angleInput) := by
  have readings_eq := readings_eq ofKind
  have unread : FieldKey.fieldName ∉ (readings tree node).map Prod.fst := by
    rw [readings_eq]
    exact (by decide : FieldKey.fieldName ∉ [FieldKey.angle])
  simp only [produce, same.namedField _ _ _ unread]
  exact (same.numberField (by simp [readings_eq, kindReadings])).bind
    fun _ => .done _

theorem fieldCheckbox (ofKind : tree.kind node = some .fieldCheckbox)
    (steps otherSteps : Walk (List Warning)) :
    SameResult (produce tree steps node .fieldCheckbox)
      (produce (tree.withFields field) otherSteps node .fieldCheckbox) := by
  have readings_eq := readings_eq ofKind
  have unread : FieldKey.fieldName ∉ (readings tree node).map Prod.fst := by
    rw [readings_eq]
    exact (by decide : FieldKey.fieldName ∉ [FieldKey.checked])
  simp only [produce, same.namedField _ _ _ unread]
  exact (same.boolField (by simp [readings_eq, kindReadings])).bind
    fun _ => .done _

end SameShown

/-! ## Nodes that are walked -/

variable {steps otherSteps : Walk (List Warning)}
  (walks : ∀ node thisOnly,
    SameResult (steps node thisOnly) (otherSteps node thisOnly))

include walks

theorem sameResult_head (node : NodeId) (name : String) :
    SameResult
      (match tree.slotTarget node name with
        | some target => steps target true
        | none => return "" : Reporting String)
      (match (tree.withFields field).slotTarget node name with
        | some target => otherSteps target true
        | none => return "") := by
  rw [BlockTree.withFields_slotTarget]
  cases tree.slotTarget node name with
  | none => exact .done ""
  | some target => exact walks target true

theorem sameResult_typeCheck (node : NodeId) :
    SameResult (typeCheck steps tree node)
      (typeCheck otherSteps (tree.withFields field) node) := by
  unfold typeCheck
  rw [BlockTree.withFields_hasSlot]
  split_ifs
  · exact sameResult_head walks node Slot.type
  · exact fun _ _ => rfl

theorem sameResult_input (same : SameShown tree field node)
    (unread : readings tree node = []) (jsonType : String) :
    SameResult (input jsonType steps tree node)
      (input jsonType otherSteps (tree.withFields field) node) := by
  have text_eq : ∀ key,
      (tree.withFields field).text node key = tree.text node key :=
    fun key => same.text_eq (by simp [unread])
  unfold input
  simp only [nameField, alignEntries, text_eq]
  exact (sameResult_typeCheck walks node).bind fun _ => .done _

theorem sameResult_typeGroup (node : NodeId) :
    SameResult (typeGroup steps tree node)
      (typeGroup otherSteps (tree.withFields field) node) := by
  unfold typeGroup
  refine (SameResult.mapM fun index _ => ?_).bind fun _ => .done _
  exact sameResult_head walks node (Slot.member index)

theorem sameResult_slotCode (node : NodeId) (name : String) :
    SameResult (slotCode steps tree node name)
      (slotCode otherSteps (tree.withFields field) node name) := by
  unfold slotCode
  rw [BlockTree.withFields_slotTarget]
  cases tree.slotTarget node name with
  | none => exact .done ""
  | some head => exact walks head false

theorem sameResult_itemCodes (item : NodeId) :
    SameResult (itemCodes steps tree item)
      (itemCodes otherSteps (tree.withFields field) item) := by
  unfold itemCodes
  refine (sameResult_slotCode walks item Slot.fields).bind fun fields => ?_
  rw [BlockTree.withFields_isElided]
  split_ifs
  · exact .done _
  · exact (walks item true).bind fun _ => .done _

theorem sameResult_blockCreator (same : SameShown tree field node)
    (unread : readings tree node = []) :
    SameResult (blockCreator steps tree node)
      (blockCreator otherSteps (tree.withFields field) node) := by
  have text_eq : ∀ key,
      (tree.withFields field).text node key = tree.text node key :=
    fun key => same.text_eq (by simp [unread])
  have codes : SameResult
      ((tree.chain node Slot.inputs).mapM (itemCodes steps tree))
      ((tree.chain node Slot.inputs).mapM
        (itemCodes otherSteps (tree.withFields field))) :=
    SameResult.mapM fun item _ => sameResult_itemCodes walks item
  unfold blockCreator
  simp only [typeName, quotedField, text_eq, BlockTree.withFields_chain,
    BlockTree.withFields_kind, BlockTree.withFields_isElided,
    BlockTree.withFields_descendants?, BlockTree.withFields_descendantCount?]
  refine codes.bind fun codes => ?_
  refine (SameResult.lift (tree.descendants? node)).bind fun below => ?_
  refine (SameResult.lift (tree.descendantCount? node)).bind fun count => ?_
  generalize count - _ = argCount
  have warned : SameResult (warn .noLiveFields node) (warn .noLiveFields node) :=
    fun _ _ => rfl
  by_cases none : argCount = 0
  · rw [if_pos none, if_pos none]
    exact warned.bind fun _ => .done _
  · rw [if_neg none, if_neg none]
    exact .done _

/-- The fragment of a node stays the same if what it shows and the fragments of
other nodes do. -/
theorem sameResult_produce (same : SameShown tree field node) {kind : Kind}
    (ofKind : tree.kind node = some kind) :
    SameResult (produce tree steps node kind)
      (produce (tree.withFields field) otherSteps node kind) := by
  have none : kindReadings tree node kind = [] → readings tree node = [] :=
    (readings_eq ofKind).trans
  cases kind with
  | blockCreator => exact sameResult_blockCreator walks same (none rfl)
  | inputValue => exact sameResult_input walks same (none rfl) "input_value"
  | inputStatement =>
      exact sameResult_input walks same (none rfl) "input_statement"
  | numericInput => exact same.numericInput ofKind
  | angleInput => exact same.angleInput ofKind steps otherSteps
  | fieldDropdown => exact same.fieldDropdown ofKind
  | fieldCheckbox => exact same.fieldCheckbox ofKind steps otherSteps
  | fieldImage => exact same.fieldImage ofKind
  | typeGroup => exact sameResult_typeGroup walks node
  | _ =>
      have text_eq : ∀ key,
          (tree.withFields field).text node key = tree.text node key :=
        fun key => same.text_eq (by simp [none rfl])
      simp only [produce, dummyInput, namedField, nameField, quotedField,
        alignEntries, typeOther, text_eq]
      exact .done _

end

end Definition

/-- Walks have the same results if the codes of nodes do. -/
theorem Producer.sameResult_walkWithin {σ : Type} {tree : BlockTree}
    {field : NodeId → String → Option FieldValue}
    (producer otherProducer : Producer σ)
    (joins : otherProducer.join = producer.join)
    (produces : ∀ {steps otherSteps : Walk σ},
      (∀ node thisOnly,
        SameResult (steps node thisOnly) (otherSteps node thisOnly)) →
      ∀ {node kind}, tree.kind node = some kind →
        SameResult (producer.produce steps node kind)
          (otherProducer.produce otherSteps node kind))
    (depth : Nat) :
    ∀ node thisOnly,
      SameResult (producer.walkWithin tree depth node thisOnly)
        (otherProducer.walkWithin (tree.withFields field) depth node
          thisOnly) := by
  induction depth with
  | zero => exact fun _ _ _ _ => rfl
  | succ depth depth_ih =>
      intro node thisOnly
      rw [walkWithin, walkWithin, joins, BlockTree.withFields_isLive,
        BlockTree.withFields_kind, BlockTree.withFields_nextSibling]
      cases ofKind : tree.kind node with
      | none => exact .done ""
      | some kind =>
          dsimp only
          by_cases dead : kind ≠ .blockCreator ∧ tree.isLive node = false
          · rw [if_pos dead, if_pos dead]
            exact .done ""
          · rw [if_neg dead, if_neg dead]
            refine (produces depth_ih ofKind).bind fun code => ?_
            cases tree.nextSibling node with
            | none => exact .done code
            | some next =>
                cases thisOnly with
                | true => exact .done code
                | false => exact (depth_ih next false).bind fun _ => .done _

namespace Definition

/-! ## Overwriting faults -/

/-- Fields in which the faults of a block are overwritten by what a new node
holds, and nothing else is changed. -/
structure Mends (tree : BlockTree) (root : NodeId)
    (field : NodeId → String → Option FieldValue) : Prop where
  overwritten : ∀ fault ∈ faults tree root,
    field fault.node fault.key = some (fault.standard tree)
  kept : ∀ {node key}, (node, key) ∉ (faults tree root).map FieldFault.place →
    field node key = tree.field node key

/-- The reading of what is stored instead of a fault is the one that the
generator falls back to. -/
theorem reading_standard {α : Type} {reading : FieldValue → Option α}
    {zero : FieldValue} {otherwise : α}
    (reads_zero : reading zero = some otherwise) {default : Option FieldValue}
    (reads : (reading (default.getD zero)).isSome) :
    reading (default.getD zero) =
      some ((default.bind reading).getD otherwise) := by
  cases default with
  | none => exact reads_zero
  | some value =>
      rcases Option.isSome_iff_exists.mp reads with ⟨result, read⟩
      rw [Option.getD_some] at read ⊢
      rw [Option.bind_some, read]
      rfl

section

variable {tree : BlockTree} {root : NodeId}
  {field : NodeId → String → Option FieldValue} (mends : Mends tree root field)

include mends

/-- A reading is the same afterwards: a fault is replaced by the value that was
used instead of it. -/
theorem Mends.readingOf_eq {α : Type} {reading : FieldValue → Option α}
    {sort : Reading} {otherwise : α}
    (reads_eq : ∀ value, sort.reads value = (reading value).isSome)
    (reads_zero : reading sort.zero = some otherwise) {node : NodeId}
    {key : String} (member : (key, sort) ∈ readings tree node) :
    readingOf reading otherwise (tree.withFields field) node key =
      readingOf reading otherwise tree node key := by
  have field_eq : (tree.withFields field).field node key = field node key := rfl
  by_cases faulty : (node, key) ∈ (faults tree root).map FieldFault.place
  · rcases List.mem_map.mp faulty with ⟨fault, isFault, place⟩
    rcases mem_faults.mp isFault with ⟨_, isRead, stored, unread⟩
    have standard_reads := FieldFault.reads_standard isFault
    obtain ⟨rfl, rfl⟩ := Prod.mk.inj place
    obtain rfl := reading_eq_of_mem isRead member
    rw [reads_eq] at unread standard_reads
    rw [Option.isSome_eq_false_iff, Option.isNone_iff_eq_none] at unread
    have standard_eq := reading_standard reads_zero standard_reads
    rw [readingOf, readingOf, field_eq, mends.overwritten fault isFault, stored,
      Option.bind_some, Option.bind_some, unread, FieldFault.standard, standard_eq]
    rfl
  · rw [readingOf, readingOf, field_eq, mends.kept faulty]
    rfl

theorem Mends.sameShown (node : NodeId) : SameShown tree field node where
  text_eq := by
    intro key unread
    have notFaulty : (node, key) ∉ (faults tree root).map FieldFault.place := by
      intro faulty
      rcases List.mem_map.mp faulty with ⟨fault, isFault, place⟩
      obtain ⟨rfl, rfl⟩ := Prod.mk.inj place
      exact unread (List.mem_map_of_mem (mem_faults.mp isFault).2.1)
    have field_eq :
        (tree.withFields field).field node key = tree.field node key :=
      mends.kept notFaulty
    rw [BlockTree.text, BlockTree.text, field_eq]
  number_eq := mends.readingOf_eq (fun _ => rfl) (by decide)
  bool_eq := mends.readingOf_eq (fun _ => rfl) (by decide)

/-- The definition of a block is the same when its faults are overwritten. -/
theorem Mends.generate?_eq (creator : tree.kind root = some .blockCreator) :
    (generate? (tree.withFields field) root).map Prod.fst =
      (generate? tree root).map Prod.fst := by
  have walked : SameResult (walk tree root true)
      (walk (tree.withFields field) root true) :=
    (producer tree).sameResult_walkWithin (producer (tree.withFields field)) rfl
      (fun walks _ _ ofKind =>
        sameResult_produce walks (mends.sameShown _) ofKind) _ root true
  have unread : FieldKey.blockName ∉ (readings tree root).map Prod.fst := by
    rw [readings_eq creator]
    exact List.not_mem_nil
  have name_eq : typeName (tree.withFields field) root = typeName tree root := by
    rw [typeName, typeName, (mends.sameShown root).text_eq unread]
  have documents := walked [] []
  unfold generate?
  rw [BlockTree.withFields_kind, name_eq, Option.map_map, Option.map_map]
  have definitions := congrArg (Option.map fun document : String =>
    (⟨document, if tree.kind root = some .blockCreator then typeName tree root
      else ""⟩ : Definition)) documents
  rw [Option.map_map, Option.map_map] at definitions
  exact definitions.symm

/-- No fault is left when the faults are overwritten. -/
theorem Mends.faults_eq_nil : faults (tree.withFields field) root = [] := by
  rw [List.eq_nil_iff_forall_not_mem]
  intro fault member
  rcases mem_faults.mp member with ⟨inBlock, isRead, stored, unread⟩
  rw [BlockTree.withFields_argumentNodes] at inBlock
  rw [readings_withFields] at isRead
  have field_eq : (tree.withFields field).field fault.node fault.key =
      field fault.node fault.key := rfl
  rw [field_eq] at stored
  by_cases faulty :
      (fault.node, fault.key) ∈ (faults tree root).map FieldFault.place
  · rcases List.mem_map.mp faulty with ⟨old, isFault, place⟩
    obtain ⟨node_eq, key_eq⟩ := Prod.mk.inj place
    rw [← node_eq, ← key_eq] at isRead stored
    have reads := FieldFault.reads_standard isFault
    rw [reading_eq_of_mem (mem_faults.mp isFault).2.1 isRead] at reads
    rw [mends.overwritten old isFault, Option.some_inj] at stored
    rw [stored, unread] at reads
    cases reads
  · rw [mends.kept faulty] at stored
    exact faulty (List.mem_map.mpr
      ⟨fault, mem_faults.mpr ⟨inBlock, isRead, stored, unread⟩, rfl⟩)

end

end Definition

end BlockForge
