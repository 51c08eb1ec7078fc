import BlockForge.Proofs.Generation.Readings

/-!
# Infinities

JSON has no word for an infinite number, and a document says `null` instead.
The bounds and the precision of a numeric field are left out of the document if
they are infinite; every other number is written as it is read.

`numberEntries_kindValue` lists what the document says under the keys for
numbers, one case per kind of argument.  `run_numbers_shown` sums it up for the
document of a block: `null` stands there for exactly those fields that are
written as they are read and hold an infinity.
-/

namespace BlockForge

namespace Json.Value

mutual

/-- The entries of all objects inside a value, in the order of the document. -/
def allEntries : Value → List (String × Value)
  | array items => itemEntries items
  | object members => memberEntries members
  | _ => []

/-- The entries of all objects inside the items of an array. -/
def itemEntries : List Value → List (String × Value)
  | [] => []
  | item :: rest => allEntries item ++ itemEntries rest

/-- The entries of an object and of all objects inside their values. -/
def memberEntries : List (String × Value) → List (String × Value)
  | [] => []
  | (key, value) :: rest =>
    (key, value) :: (allEntries value ++ memberEntries rest)

end

theorem itemEntries_eq (items : List Value) :
    itemEntries items = items.flatMap allEntries := by
  induction items with
  | nil => rw [itemEntries, List.flatMap_nil]
  | cons item rest rest_ih => rw [itemEntries, List.flatMap_cons, rest_ih]

theorem memberEntries_eq (members : List (String × Value)) :
    memberEntries members =
      members.flatMap fun member => member :: member.2.allEntries := by
  induction members with
  | nil => rw [memberEntries, List.flatMap_nil]
  | cons member rest rest_ih =>
      rw [memberEntries, List.flatMap_cons, rest_ih, List.cons_append]

/-- The keys under which a document holds numbers. -/
def numberKeys : List String :=
  ["value", "min", "max", "precision", "angle", "width", "height"]

/-- What a document says under the keys for numbers. -/
def numberEntries (value : Value) : List (String × Value) :=
  value.allEntries.filter fun entry => entry.1 ∈ numberKeys

@[simp]
theorem numberEntries_array (items : List Value) :
    (array items).numberEntries = items.flatMap numberEntries := by
  rw [numberEntries, allEntries, itemEntries_eq, List.filter_flatMap]
  rfl

/-- What the members of an object say under the keys for numbers. -/
def memberNumbers (members : List (String × Value)) : List (String × Value) :=
  members.flatMap fun member =>
    (if member.1 ∈ numberKeys then [member] else []) ++ member.2.numberEntries

@[simp]
theorem numberEntries_object (members : List (String × Value)) :
    (object members).numberEntries = memberNumbers members := by
  rw [numberEntries, allEntries, memberEntries_eq, List.filter_flatMap]
  unfold memberNumbers
  congr 1
  funext member
  simp only [List.filter_cons, decide_eq_true_eq, numberEntries]
  split_ifs <;> rfl

@[simp]
theorem memberNumbers_nil : memberNumbers [] = [] := rfl

@[simp]
theorem memberNumbers_cons (key : String) (value : Value)
    (members : List (String × Value)) :
    memberNumbers ((key, value) :: members) =
      (if key ∈ numberKeys then [(key, value)] else []) ++
        (value.numberEntries ++ memberNumbers members) := by
  rw [memberNumbers, List.flatMap_cons, List.append_assoc]
  rfl

@[simp]
theorem memberNumbers_append (members others : List (String × Value)) :
    memberNumbers (members ++ others) =
      memberNumbers members ++ memberNumbers others :=
  List.flatMap_append

@[simp]
theorem numberEntries_null : null.numberEntries = [] := rfl

@[simp]
theorem numberEntries_bool (value : Bool) :
    (bool value).numberEntries = [] := rfl

@[simp]
theorem numberEntries_number (value : Binary64) :
    (number value).numberEntries = [] := rfl

@[simp]
theorem numberEntries_string (text : String) :
    (string text).numberEntries = [] := rfl

end Json.Value

namespace Json

@[simp]
theorem numberEntries_numberValue (number : Binary64) :
    (numberValue number).numberEntries = [] := by
  unfold numberValue
  split_ifs <;> rfl

theorem numberValue_eq_null_iff {number : Binary64} :
    numberValue number = .null ↔ number.isFinite = false := by
  unfold numberValue
  split_ifs with finite <;> simp [finite]

end Json

/-- Without the sign of a zero, a finite number is still finite. -/
theorem Binary64.isFinite_plain (number : Binary64) :
    number.plain.isFinite = number.isFinite := by
  rcases number with _ | _ | ⟨_, _ | _, _⟩ <;> rfl

/-- NaN is no reading. -/
theorem FieldValue.asNumber_ne_nan {value : FieldValue} {number : Binary64}
    (reads : value.asNumber = some number) : number ≠ .nan := by
  cases value with
  | bool _ => cases reads
  | number stored =>
      rw [asNumber] at reads
      split_ifs at reads with notNumber
      rwa [← Option.some.inj reads]
  | text _ =>
      rw [asNumber, Option.filter_eq_some_iff] at reads
      exact of_decide_eq_true reads.2

namespace Definition

open Json (Value)

variable {tree : BlockTree} {node : NodeId}

/-! ## Infinite values -/

/-- A field holds a value that is read as an infinity: an infinite number, a
word for one, or a number that is too large. -/
def HoldsInfinity (tree : BlockTree) (node : NodeId) (field : String) : Prop :=
  ∃ value negative, tree.field node field = some value ∧
    value.asNumber = some (.infinite negative)

/-- The numbers of an option that are written as they are read: their keys in
the document and in the fields. -/
def optionNumbers (index : Nat) : OptionKind → List (String × String)
  | .text => []
  | .image =>
    [("width", FieldKey.indexed FieldKey.width index),
      ("height", FieldKey.indexed FieldKey.height index)]

/-- The numbers of a node of a kind that are written as they are read. -/
def kindNumbers (tree : BlockTree) (node : NodeId) :
    Kind → List (String × String)
  | .numericInput => [("value", FieldKey.value)]
  | .angleInput => [("angle", FieldKey.angle)]
  | .fieldDropdown =>
    (dropdownKinds tree node).zipIdx.flatMap fun option =>
      optionNumbers option.2 option.1
  | .fieldImage => [("width", FieldKey.width), ("height", FieldKey.height)]
  | _ => []

/-- The numbers of a node that are written as they are read. -/
def writtenNumbers (tree : BlockTree) (node : NodeId) :
    List (String × String) :=
  ((tree.kind node).map (kindNumbers tree node)).getD []

/-- The numbers of a node of a kind that are left out if they are infinite. -/
def kindBounds (tree : BlockTree) (node : NodeId) :
    Kind → List (String × Value)
  | .numericInput =>
    boundMembers "min" (numberOf tree node FieldKey.min)
      ++ boundMembers "max" (numberOf tree node FieldKey.max)
      ++ (if (numberOf tree node FieldKey.precision).isZero then []
        else boundMembers "precision" (numberOf tree node FieldKey.precision))
  | _ => []

/-- The numbers of a node that are left out if they are infinite. -/
def nodeBounds (tree : BlockTree) (node : NodeId) : List (String × Value) :=
  ((tree.kind node).map (kindBounds tree node)).getD []

theorem mem_writtenNumbers {number : String × String} :
    number ∈ writtenNumbers tree node ↔
      ∃ kind, tree.kind node = some kind ∧
        number ∈ kindNumbers tree node kind := by
  unfold writtenNumbers
  cases tree.kind node <;> simp

theorem mem_nodeBounds {entry : String × Value} :
    entry ∈ nodeBounds tree node ↔
      ∃ kind, tree.kind node = some kind ∧
        entry ∈ kindBounds tree node kind := by
  unfold nodeBounds
  cases tree.kind node <;> simp

/-- What the document says for a number that is written as it is read. -/
def numberEntry (tree : BlockTree) (node : NodeId) (number : String × String) :
    String × Value :=
  (number.1, numberMember tree node number.2)

/-- Where there is no value to read, a finite number is written. -/
theorem isFinite_default {kind : Kind} {number : String × String}
    (member : number ∈ kindNumbers tree node kind) :
    (((kind.defaultField? number.2).bind FieldValue.asNumber).getD
      Binary64.zero).isFinite = true := by
  cases kind with
  | fieldDropdown =>
      rcases List.mem_flatMap.mp member with ⟨option, _, inOption⟩
      have read : (number.2, Reading.number) ∈
          optionReadings option.2 option.1 := by
        rcases option with ⟨_ | _, _⟩
        · cases inOption
        · rcases List.mem_pair.mp inOption with rfl | rfl
          · exact List.mem_cons_self
          · exact List.mem_cons_of_mem _ List.mem_cons_self
      rw [defaultField?_eq_none read]
      rfl
  | numericInput | angleInput | fieldImage =>
      revert number
      simp only [kindNumbers]
      decide +kernel
  | _ => cases member

/-- A number that is written as it is read is `null` exactly if it is
infinite. -/
theorem numberMember_eq_null_iff {number : String × String}
    (member : number ∈ writtenNumbers tree node) :
    numberMember tree node number.2 = .null ↔
      HoldsInfinity tree node number.2 := by
  rcases mem_writtenNumbers.mp member with ⟨kind, ofKind, ofNumber⟩
  have standard := isFinite_default ofNumber
  rw [numberMember, Json.numberValue_eq_null_iff, numberOf, readingOf, ofKind,
    Option.bind_some]
  unfold HoldsInfinity
  cases stored : tree.field node number.2 with
  | none => simp [standard]
  | some value =>
      rw [Option.bind_some]
      cases reads : value.asNumber with
      | none => simp [standard, reads]
      | some read =>
          have isNumber := FieldValue.asNumber_ne_nan reads
          cases read with
          | nan => exact absurd rfl isNumber
          | infinite negative => simp [reads]
          | finite negative rank bounded => simp [reads]

/-- A document says a finite number. -/
def SaysNumber (value : Value) : Prop :=
  ∃ number : Binary64, number.isFinite = true ∧ value = .number number

theorem saysNumber_numberValue {number : Binary64}
    (finite : number.isFinite = true) : SaysNumber (Json.numberValue number) :=
  ⟨number.plain, number.isFinite_plain.trans finite, if_pos finite⟩

theorem saysNumber_of_mem_boundMembers {key : String} {bound : Binary64}
    {entry : String × Value} (member : entry ∈ boundMembers key bound) :
    SaysNumber entry.2 := by
  unfold boundMembers at member
  split_ifs at member with finite
  · rw [List.mem_singleton.mp member]
    exact saysNumber_numberValue finite
  · cases member

/-- Infinite bounds are left out. -/
theorem saysNumber_of_mem_nodeBounds {entry : String × Value}
    (member : entry ∈ nodeBounds tree node) : SaysNumber entry.2 := by
  rcases mem_nodeBounds.mp member with ⟨kind, _, ofBound⟩
  cases kind with
  | numericInput =>
      rw [kindBounds, List.mem_append, List.mem_append] at ofBound
      rcases ofBound with (min | max) | precision
      · exact saysNumber_of_mem_boundMembers min
      · exact saysNumber_of_mem_boundMembers max
      · split_ifs at precision
        · cases precision
        · exact saysNumber_of_mem_boundMembers precision
  | _ => cases ofBound

theorem not_saysNumber_null : ¬ SaysNumber .null := by
  rintro ⟨_, _, isNumber⟩
  cases isNumber

/-- Bounds are not written as they are read. -/
theorem key_mem_of_mem_writtenNumbers {number : String × String}
    (member : number ∈ writtenNumbers tree node) :
    number.1 ∈ ["value", "angle", "width", "height"] := by
  rcases mem_writtenNumbers.mp member with ⟨kind, _, ofNumber⟩
  clear member
  cases kind with
  | fieldDropdown =>
      rcases List.mem_flatMap.mp ofNumber with ⟨⟨_ | _, index⟩, _, inOption⟩
      · cases inOption
      · rcases List.mem_pair.mp inOption with rfl | rfl <;> simp
  | numericInput | angleInput | fieldImage =>
      revert number
      simp only [kindNumbers]
      decide
  | _ => cases ofNumber

/-! ## Documents -/

@[simp]
theorem numberEntries_textMember (key : String) :
    (textMember tree node key).numberEntries = [] := rfl

@[simp]
theorem numberEntries_nameMember (key : String) :
    (nameMember tree node key).numberEntries = [] := rfl

@[simp]
theorem numberEntries_boolMember (key : String) :
    (boolMember tree node key).numberEntries = [] := rfl

@[simp]
theorem numberEntries_numberMember (key : String) :
    (numberMember tree node key).numberEntries = [] :=
  Json.numberEntries_numberValue _

/-- A type constraint holds no numbers. -/
theorem numberEntries_constraintWithin {depth : Nat} :
    ∀ {node value}, constraintWithin tree depth node = some value →
      value.numberEntries = [] := by
  induction depth with
  | zero =>
      intro node value found
      cases found
  | succ depth depth_ih =>
      intro node value found
      rw [constraintWithin] at found
      cases ofKind : tree.kind node with
      | none =>
          rw [ofKind] at found
          cases found
      | some kind =>
          rw [ofKind] at found
          cases kind with
          | typeBoolean | typeNumber | typeString | typeList =>
              cases found
              rfl
          | typeOther =>
              dsimp only at found
              split_ifs at found
              cases found
              rfl
          | typeGroup =>
              dsimp only at found
              split_ifs at found
              cases found
              rw [Value.numberEntries_array, List.flatMap_eq_nil_iff]
              intro member isMember
              rcases List.mem_filterMap.mp isMember with ⟨_, _, bound⟩
              rcases Option.bind_eq_some_iff.mp bound with ⟨_, _, known⟩
              exact depth_ih known
          | _ => cases found

@[simp]
theorem memberNumbers_checkMembers :
    Value.memberNumbers (checkMembers tree node) = [] := by
  unfold checkMembers
  split
  · rename_i check found
    rcases Option.bind_eq_some_iff.mp found with ⟨constraint, _, known⟩
    simp [Value.numberKeys, numberEntries_constraintWithin known]
  · rfl

@[simp]
theorem memberNumbers_alignMembers :
    Value.memberNumbers (alignMembers tree node) = [] := by
  unfold alignMembers
  dsimp only
  split_ifs
  · rfl
  · simp [Value.numberKeys]

theorem memberNumbers_boundMembers {key : String}
    (isKey : key ∈ Value.numberKeys) (bound : Binary64) :
    Value.memberNumbers (boundMembers key bound) = boundMembers key bound := by
  unfold boundMembers
  split_ifs
  · simp [isKey]
  · rfl

theorem numberEntries_numericValue :
    (numericValue tree node).numberEntries =
      numberEntry tree node ("value", FieldKey.value) ::
        kindBounds tree node .numericInput := by
  have min := memberNumbers_boundMembers
    (show "min" ∈ Value.numberKeys by decide) (numberOf tree node FieldKey.min)
  have max := memberNumbers_boundMembers
    (show "max" ∈ Value.numberKeys by decide) (numberOf tree node FieldKey.max)
  have precision := memberNumbers_boundMembers
    (show "precision" ∈ Value.numberKeys by decide)
    (numberOf tree node FieldKey.precision)
  unfold numericValue kindBounds numberEntry
  dsimp only
  split_ifs <;> simp [Value.numberKeys, min, max, precision]

theorem numberEntries_optionValue (index : Nat) (kind : OptionKind) :
    (optionValue tree node index kind).numberEntries =
      (optionNumbers index kind).map (numberEntry tree node) := by
  cases kind <;>
    simp [optionValue, optionNumbers, numberEntry, Value.numberKeys]

theorem numberEntries_options (kinds : List OptionKind) :
    (Value.array (kinds.mapIdx (optionValue tree node))).numberEntries =
      (kinds.zipIdx.flatMap fun option => optionNumbers option.2 option.1).map
        (numberEntry tree node) := by
  rw [Value.numberEntries_array, List.mapIdx_eq_zipIdx_map, List.flatMap_map,
    List.map_flatMap]
  congr 1
  funext option
  exact numberEntries_optionValue option.2 option.1

/-- The document says the numbers of an argument as they are read, and the
bounds that are finite. -/
theorem numberEntries_kindValue (kind : Kind) :
    (kindValue tree node kind).numberEntries =
      (kindNumbers tree node kind).map (numberEntry tree node) ++
        kindBounds tree node kind := by
  cases kind with
  | numericInput => exact numberEntries_numericValue
  | fieldDropdown =>
      simp [kindValue, namedValue, kindNumbers, kindBounds, Value.numberKeys,
        numberEntries_options, -Value.numberEntries_array]
  | inputValue | inputStatement =>
      simp [kindValue, inputValue, kindNumbers, kindBounds, Value.numberKeys]
  | _ =>
      simp [kindValue, namedValue, imageValue, kindNumbers, kindBounds,
        numberEntry, Value.numberKeys]

theorem numberEntries_argumentValue (tree : BlockTree) (node : NodeId) :
    (argumentValue tree node).numberEntries =
      (writtenNumbers tree node).map (numberEntry tree node) ++
        nodeBounds tree node := by
  unfold argumentValue writtenNumbers nodeBounds
  cases tree.kind node with
  | none => rfl
  | some kind => exact numberEntries_kindValue kind

/-- The members of a document beside its arguments are no numbers under these
keys. -/
theorem numberEntries_documentValue (tree : BlockTree) (root : NodeId) :
    (documentValue tree root).numberEntries =
      (tree.argumentNodes root).flatMap fun node =>
        (argumentValue tree node).numberEntries := by
  have arguments : (argumentValues tree root).flatMap Value.numberEntries =
      (tree.argumentNodes root).flatMap fun node =>
        (argumentValue tree node).numberEntries := by
    rw [argumentValues, List.flatMap_map]
  rw [← arguments]
  unfold documentValue
  dsimp only
  split_ifs with none
  all_goals
    cases InputLayout.ofOption (tree.text root FieldKey.inputLayout) <;>
      cases Connections.ofOption (tree.text root FieldKey.connections) <;>
        cases Category.ofOption? (tree.text root FieldKey.blockCategory) <;>
          simp [none, Value.numberKeys, InputLayout.inputsInline?,
            Connections.keys]

theorem mem_numberEntries_documentValue {root : NodeId}
    {entry : String × Value} :
    entry ∈ (documentValue tree root).numberEntries ↔
      ∃ node ∈ tree.argumentNodes root,
        (∃ number ∈ writtenNumbers tree node,
          numberEntry tree node number = entry) ∨
            entry ∈ nodeBounds tree node := by
  rw [numberEntries_documentValue, List.mem_flatMap]
  simp only [numberEntries_argumentValue, List.mem_append, List.mem_map]

/-- The numbers in the document of a block. -/
structure ShowsNumbers (tree : BlockTree) (root : NodeId) (document : Value) :
    Prop where
  /-- A number that is written as it is read is in the document. -/
  written : ∀ node ∈ tree.argumentNodes root,
    ∀ number ∈ writtenNumbers tree node,
      (number.1, numberMember tree node number.2) ∈ document.numberEntries
  /-- Under a key for numbers stands a finite number or `null`. -/
  finite_or_null : ∀ entry ∈ document.numberEntries,
    SaysNumber entry.2 ∨ entry.2 = .null
  /-- `null` stands for an infinity in a field, and for nothing else. -/
  null_iff : ∀ key, (key, .null) ∈ document.numberEntries ↔
    ∃ node ∈ tree.argumentNodes root, ∃ field,
      (key, field) ∈ writtenNumbers tree node ∧ HoldsInfinity tree node field
  /-- The bounds and the precision of a field are never `null`. -/
  bound_ne_null : ∀ key ∈ ["min", "max", "precision"],
    (key, .null) ∉ document.numberEntries
  /-- All numbers are finite exactly if no field that is written as it is read
  holds an infinity. -/
  finite_iff : (∀ entry ∈ document.numberEntries, SaysNumber entry.2) ↔
    ∀ node ∈ tree.argumentNodes root, ∀ number ∈ writtenNumbers tree node,
      ¬ HoldsInfinity tree node number.2

theorem showsNumbers (tree : BlockTree) (root : NodeId) :
    ShowsNumbers tree root (documentValue tree root) := by
  have written : ∀ node ∈ tree.argumentNodes root,
      ∀ number ∈ writtenNumbers tree node,
        (number.1, numberMember tree node number.2) ∈
          (documentValue tree root).numberEntries :=
    fun node inBlock number member =>
      mem_numberEntries_documentValue.mpr
        ⟨node, inBlock, .inl ⟨number, member, rfl⟩⟩
  have finite_or_null : ∀ entry ∈ (documentValue tree root).numberEntries,
      SaysNumber entry.2 ∨ entry.2 = .null := by
    intro entry inDocument
    rcases mem_numberEntries_documentValue.mp inDocument with
      ⟨node, _, ⟨number, _, rfl⟩ | bound⟩
    · cases finite : (numberOf tree node number.2).isFinite with
      | true => exact .inl (saysNumber_numberValue finite)
      | false => exact .inr (Json.numberValue_eq_null_iff.mpr finite)
    · exact .inl (saysNumber_of_mem_nodeBounds bound)
  have null_iff : ∀ key,
      (key, .null) ∈ (documentValue tree root).numberEntries ↔
        ∃ node ∈ tree.argumentNodes root, ∃ field,
          (key, field) ∈ writtenNumbers tree node ∧
            HoldsInfinity tree node field := by
    intro key
    constructor
    · intro inDocument
      rcases mem_numberEntries_documentValue.mp inDocument with
        ⟨node, inBlock, ⟨number, member, same⟩ | bound⟩
      · rw [numberEntry, Prod.mk.injEq, numberMember_eq_null_iff member] at same
        rcases same with ⟨rfl, infinite⟩
        exact ⟨node, inBlock, number.2, member, infinite⟩
      · exact absurd (saysNumber_of_mem_nodeBounds bound) not_saysNumber_null
    · rintro ⟨node, inBlock, field, member, infinite⟩
      have entry := written node inBlock (key, field) member
      rwa [(numberMember_eq_null_iff member).mpr infinite] at entry
  refine
    { written, finite_or_null, null_iff, bound_ne_null := ?_, finite_iff := ?_ }
  · intro key isBound inDocument
    rcases (null_iff key).mp inDocument with ⟨node, _, field, member, _⟩
    have isWritten := key_mem_of_mem_writtenNumbers member
    revert key
    simp
  · constructor
    · intro finite node inBlock number member infinite
      have inDocument := written node inBlock number member
      rw [(numberMember_eq_null_iff member).mpr infinite] at inDocument
      exact not_saysNumber_null (finite _ inDocument)
    · intro noInfinity entry inDocument
      refine (finite_or_null entry inDocument).resolve_right fun isNull => ?_
      rcases entry with ⟨key, value⟩
      cases (isNull : value = .null)
      rcases (null_iff key).mp inDocument with
        ⟨node, inBlock, field, member, infinite⟩
      exact noInfinity node inBlock (key, field) member infinite

end Definition

namespace Workspace

/-- Whatever edits build a workspace, the numbers in the document of a block are
finite but for the infinities that the fields of its arguments hold: these are
`null` in the document, unless they are bounds or the precision of a field. -/
theorem run_numbers_shown (edits : List Edit) {root : NodeId}
    (creator : (run edits).kind? root = some .blockCreator) :
    ∃ definition warnings document,
      Definition.generate? (run edits).tree root =
          some (definition, warnings) ∧
        Json.read? definition.document = some document ∧
          Definition.ShowsNumbers (run edits).tree root document := by
  rcases exists_coherent_run edits with ⟨rank, coherent⟩
  rcases Definition.exists_generated coherent creator with
    ⟨definition, generated, reads⟩
  exact ⟨definition, _, _, generated, reads, Definition.showsNumbers _ root⟩

/-- Edits that build a block with a numeric field whose value is infinite. -/
def infiniteEdits : List Edit :=
  [.addNode .blockCreator, .addNode .numericInput,
    .setField 1 FieldKey.value (.number (.infinite false)),
    .attach 0 "INPUTS" 1]

theorem run_numbers_shown_infinite :
    (run infiniteEdits).kind? 0 = some .blockCreator ∧
      ∃ definition warnings document,
        Definition.generate? (run infiniteEdits).tree 0 =
            some (definition, warnings) ∧
          Json.read? definition.document = some document ∧
            Definition.ShowsNumbers (run infiniteEdits).tree 0 document := by
  have creator : (run infiniteEdits).kind? 0 = some .blockCreator := by
    decide +kernel
  exact ⟨creator, run_numbers_shown infiniteEdits creator⟩

/-- The document says `null` for the value of the field. -/
theorem run_infinity_shown :
    (run infiniteEdits).kind? 0 = some .blockCreator ∧
      ∃ definition warnings document,
        Definition.generate? (run infiniteEdits).tree 0 =
            some (definition, warnings) ∧
          Json.read? definition.document = some document ∧
            ("value", .null) ∈ document.numberEntries := by
  have creator : (run infiniteEdits).tree.kind 0 = some .blockCreator := by
    decide +kernel
  have infinite :
      Definition.HoldsInfinity (run infiniteEdits).tree 1 FieldKey.value :=
    ⟨.number (.infinite false), false, by decide +kernel, rfl⟩
  have shown := (Definition.showsNumbers (run infiniteEdits).tree 0).null_iff
    "value"
  rcases exists_coherent_run infiniteEdits with ⟨rank, coherent⟩
  rcases Definition.exists_generated coherent creator with
    ⟨definition, generated, reads⟩
  exact ⟨creator, definition, _, _, generated, reads,
    shown.mpr
      ⟨1, by decide +kernel, FieldKey.value, by decide +kernel, infinite⟩⟩

end Workspace

end BlockForge
