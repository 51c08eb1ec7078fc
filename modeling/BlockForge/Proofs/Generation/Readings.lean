import BlockForge.Proofs.Generation.Definition
import BlockForge.Proofs.Workspace.Slots

/-!
# Readings

Some fields of an argument are read as numbers or booleans.  `readings` lists
their keys in the order in which the generator of definitions reads them, and
`faults` lists the stored values of a block that have no such reading.

`documentReports_eq` says that the reports about a block are one warning for each
fault and, for a block without arguments, one more.  The faults of a block are in
different places, so none of the warnings is taken for another one
(`foldl_addTo_documentReports`).
-/

namespace BlockForge

/-! ## Kinds of readings -/

/-- How a field is read, if it is not read as text. -/
inductive Reading where
  | number
  | bool
deriving DecidableEq, Repr

namespace Reading

/-- Whether a value has a reading. -/
def reads : Reading → FieldValue → Bool
  | number, value => value.asNumber.isSome
  | bool, value => value.asBool.isSome

/-- The value that is used where the kind of a node has no default. -/
def zero : Reading → FieldValue
  | number => .number .zero
  | bool => .bool false

theorem reads_zero (reading : Reading) : reading.reads reading.zero = true := by
  cases reading <;> decide

end Reading

namespace FieldKey

theorem head?_width (index : Nat) :
    (indexed width index).toList.head? = some 'W' :=
  head?_indexed (by decide) index

theorem head?_height (index : Nat) :
    (indexed height index).toList.head? = some 'H' :=
  head?_indexed (by decide) index

end FieldKey

/-- Warnings about different problems are all kept. -/
theorem Warning.foldl_addTo_of_nodup {entries : List Warning} :
    ∀ {warnings : List Warning},
      ((warnings ++ entries).map Warning.problem).Nodup →
        entries.foldl addTo warnings = warnings ++ entries := by
  induction entries with
  | nil => exact fun _ => (List.append_nil _).symm
  | cons entry entries entries_ih =>
      intro warnings distinct
      have fresh : ¬ (warnings.any fun earlier =>
          earlier.problem = entry.problem) = true := by
        rw [List.any_eq_true]
        rintro ⟨earlier, member, same⟩
        rw [List.map_append, List.nodup_append] at distinct
        exact distinct.2.2 _ (List.mem_map_of_mem member) _
          (List.mem_map_of_mem List.mem_cons_self) (of_decide_eq_true same)
      rw [List.foldl_cons, addTo, if_neg fresh, entries_ih, List.append_assoc,
        List.singleton_append]
      rwa [List.append_assoc, List.singleton_append]

namespace Definition

/-- The readings of the option of an index. -/
def optionReadings (index : Nat) : OptionKind → List (String × Reading)
  | .text => []
  | .image =>
    [(FieldKey.indexed FieldKey.width index, .number),
      (FieldKey.indexed FieldKey.height index, .number)]

/-- The keys that a node of a kind is read under, in the order of reading. -/
def kindReadings (tree : BlockTree) (node : NodeId) :
    Kind → List (String × Reading)
  | .numericInput =>
    [(FieldKey.value, .number), (FieldKey.min, .number),
      (FieldKey.max, .number), (FieldKey.precision, .number)]
  | .angleInput => [(FieldKey.angle, .number)]
  | .fieldCheckbox => [(FieldKey.checked, .bool)]
  | .fieldImage =>
    [(FieldKey.width, .number), (FieldKey.height, .number),
      (FieldKey.flipRtl, .bool)]
  | .fieldDropdown =>
    (dropdownKinds tree node).zipIdx.flatMap fun option =>
      optionReadings option.2 option.1
  | _ => []

/-- The keys that a node is read under, in the order of reading. -/
def readings (tree : BlockTree) (node : NodeId) : List (String × Reading) :=
  ((tree.kind node).map (kindReadings tree node)).getD []

/-- A stored value that has no reading. -/
structure FieldFault where
  node : NodeId
  key : String
  reading : Reading
  value : FieldValue
deriving DecidableEq, Repr

namespace FieldFault

/-- The warning about a fault quotes the text of the value. -/
def warning (fault : FieldFault) : Warning :=
  ⟨.invalidFieldValue fault.node fault.key fault.value.display, fault.node⟩

/-- Where the value is stored. -/
def place (fault : FieldFault) : NodeId × String := (fault.node, fault.key)

/-- What a new node holds in the place of a fault; zero or false if the kind has
no default for the key. -/
def standard (tree : BlockTree) (fault : FieldFault) : FieldValue :=
  ((tree.kind fault.node).bind fun kind => kind.defaultField? fault.key).getD
    fault.reading.zero

end FieldFault

/-- The fault in a field, if a value is stored that has no reading. -/
def fault? (tree : BlockTree) (node : NodeId) (entry : String × Reading) :
    Option FieldFault :=
  match tree.field node entry.1 with
  | none => none
  | some value =>
    if entry.2.reads value then none else some ⟨node, entry.1, entry.2, value⟩

/-- The faults of a node, in the order of reading. -/
def nodeFaults (tree : BlockTree) (node : NodeId) : List FieldFault :=
  (readings tree node).filterMap (fault? tree node)

/-- The faults of the arguments of a block, in the order of its document. -/
def faults (tree : BlockTree) (root : NodeId) : List FieldFault :=
  (tree.argumentNodes root).flatMap (nodeFaults tree)

section

variable {tree : BlockTree} {node : NodeId}

/-! ## Reports -/

/-- The reports about one reading. -/
def entryReports (tree : BlockTree) (node : NodeId) (entry : String × Reading) :
    List Warning :=
  match entry.2 with
  | .number => unreadable FieldValue.asNumber tree node entry.1
  | .bool => unreadable FieldValue.asBool tree node entry.1

theorem entryReports_eq (entry : String × Reading) :
    entryReports tree node entry =
      ((fault? tree node entry).map FieldFault.warning).toList := by
  rcases entry with ⟨key, reading⟩
  cases stored : tree.field node key with
  | none =>
      cases reading <;> simp [entryReports, unreadable, fault?, stored]
  | some value =>
      cases reads : reading.reads value <;> cases reading <;>
        rw [Reading.reads] at reads <;>
        simp [entryReports, unreadable, fault?, stored, Reading.reads, reads,
          FieldFault.warning]

theorem optionReports_eq (index : Nat) (kind : OptionKind) :
    optionReports tree node index kind =
      (optionReadings index kind).flatMap (entryReports tree node) := by
  cases kind <;> rfl

theorem kindReports_eq (kind : Kind) :
    kindReports tree node kind =
      (kindReadings tree node kind).flatMap (entryReports tree node) := by
  cases kind with
  | fieldDropdown =>
      have options : optionReports tree node = fun index kind =>
          (optionReadings index kind).flatMap (entryReports tree node) := by
        funext index kind
        exact optionReports_eq index kind
      rw [kindReports, kindReadings, options, List.mapIdx_eq_zipIdx_map,
        List.flatMap_assoc, List.flatMap_def]
  | angleInput => exact (List.append_nil _).symm
  | fieldCheckbox => exact (List.append_nil _).symm
  | fieldImage => simp [kindReports, kindReadings, entryReports]
  | _ => rfl

theorem reports_eq (tree : BlockTree) (node : NodeId) :
    reports tree node = (nodeFaults tree node).map FieldFault.warning := by
  have entries : ∀ list : List (String × Reading),
      list.flatMap (entryReports tree node) =
        (list.filterMap (fault? tree node)).map FieldFault.warning := by
    intro list
    rw [List.map_filterMap, List.filterMap_eq_flatMap_toList]
    congr 1
    funext entry
    exact entryReports_eq entry
  unfold reports nodeFaults readings
  cases tree.kind node with
  | none => rfl
  | some kind => exact (kindReports_eq kind).trans (entries _)

/-- A block without arguments is warned about after its faults. -/
theorem documentReports_eq (tree : BlockTree) (root : NodeId) :
    documentReports tree root =
      (faults tree root).map FieldFault.warning ++
        if tree.argumentNodes root = [] then [⟨.noLiveFields, root⟩] else [] := by
  rw [documentReports, faults, List.map_flatMap]
  congr 2
  funext node
  exact reports_eq tree node

/-! ## Places -/

theorem key_mem_optionReadings {index : Nat} {kind : OptionKind}
    {entry : String × Reading} (member : entry ∈ optionReadings index kind) :
    entry.1 = FieldKey.indexed FieldKey.width index ∨
      entry.1 = FieldKey.indexed FieldKey.height index := by
  cases kind with
  | text => cases member
  | image =>
      rcases List.mem_pair.mp member with rfl | rfl
      · exact .inl rfl
      · exact .inr rfl

theorem head?_mem_optionReadings {index : Nat} {kind : OptionKind}
    {entry : String × Reading} (member : entry ∈ optionReadings index kind) :
    entry.1.toList.head? = some 'W' ∨ entry.1.toList.head? = some 'H' := by
  rcases key_mem_optionReadings member with key | key <;> rw [key]
  · exact .inl (FieldKey.head?_width index)
  · exact .inr (FieldKey.head?_height index)

theorem width_ne_height (first second : Nat) :
    FieldKey.indexed FieldKey.width first ≠
      FieldKey.indexed FieldKey.height second := by
  intro equal
  have heads := FieldKey.head?_width first
  rw [equal, FieldKey.head?_height] at heads
  cases heads

/-- The keys of different options differ. -/
theorem index_eq_of_key_eq {first second : Nat} {kind otherKind : OptionKind}
    {entry other : String × Reading} (member : entry ∈ optionReadings first kind)
    (otherMember : other ∈ optionReadings second otherKind)
    (same : entry.1 = other.1) : first = second := by
  rcases key_mem_optionReadings member with width | height <;>
    rcases key_mem_optionReadings otherMember with otherWidth | otherHeight
  · exact FieldKey.indexed_injective _ (width.symm.trans (same.trans otherWidth))
  · exact absurd (width.symm.trans (same.trans otherHeight)) (width_ne_height _ _)
  · exact absurd (otherWidth.symm.trans (same.symm.trans height))
      (width_ne_height _ _)
  · exact FieldKey.indexed_injective _ (height.symm.trans (same.trans otherHeight))

/-- No key is read twice. -/
theorem nodup_kindReadings (tree : BlockTree) (node : NodeId) (kind : Kind) :
    ((kindReadings tree node kind).map Prod.fst).Nodup := by
  cases kind with
  | fieldDropdown =>
      rw [kindReadings, List.map_flatMap, List.nodup_flatMap]
      constructor
      · rintro ⟨kind, index⟩ _
        cases kind with
        | text => exact List.nodup_nil
        | image => simp [optionReadings, width_ne_height]
      · have indices : ((dropdownKinds tree node).zipIdx.map Prod.snd).Nodup := by
          rw [List.zipIdx_map_snd]
          exact List.nodup_range'
        apply (List.pairwise_map.mp indices).imp
        intro first second differs key inFirst inSecond
        rcases List.mem_map.mp inFirst with ⟨entry, member, rfl⟩
        rcases List.mem_map.mp inSecond with ⟨other, otherMember, same⟩
        exact differs (index_eq_of_key_eq member otherMember same.symm)
  | numericInput | angleInput | fieldCheckbox | fieldImage =>
      simp only [kindReadings]
      decide
  | _ => exact List.nodup_nil

theorem exists_kind_of_mem_readings {entry : String × Reading}
    (member : entry ∈ readings tree node) :
    ∃ kind, tree.kind node = some kind ∧ entry ∈ kindReadings tree node kind := by
  unfold readings at member
  cases ofKind : tree.kind node with
  | none =>
      rw [ofKind] at member
      cases member
  | some kind =>
      rw [ofKind] at member
      exact ⟨kind, rfl, member⟩

theorem nodup_readings (tree : BlockTree) (node : NodeId) :
    ((readings tree node).map Prod.fst).Nodup := by
  unfold readings
  cases tree.kind node with
  | none => exact List.nodup_nil
  | some kind => exact nodup_kindReadings tree node kind

/-- A key is read in one way only. -/
theorem reading_eq_of_mem {key : String} {first second : Reading}
    (member : (key, first) ∈ readings tree node)
    (other : (key, second) ∈ readings tree node) : first = second :=
  congrArg Prod.snd
    (List.inj_on_of_nodup_map (nodup_readings tree node) member other rfl)

theorem fault?_eq_some {entry : String × Reading} {fault : FieldFault} :
    fault? tree node entry = some fault ↔
      ∃ value, tree.field node entry.1 = some value ∧
        entry.2.reads value = false ∧
          fault = ⟨node, entry.1, entry.2, value⟩ := by
  unfold fault?
  cases tree.field node entry.1 with
  | none => simp
  | some value =>
      dsimp only
      split_ifs with reads
      · simp [reads]
      · rw [Option.some_inj]
        constructor
        · rintro rfl
          exact ⟨value, rfl, Bool.eq_false_of_not_eq_true reads, rfl⟩
        · rintro ⟨_, ⟨⟩, _, rfl⟩
          rfl

theorem mem_nodeFaults {fault : FieldFault} :
    fault ∈ nodeFaults tree node ↔
      fault.node = node ∧ (fault.key, fault.reading) ∈ readings tree node ∧
        tree.field node fault.key = some fault.value ∧
          fault.reading.reads fault.value = false := by
  rw [nodeFaults, List.mem_filterMap]
  constructor
  · rintro ⟨entry, member, found⟩
    rcases fault?_eq_some.mp found with ⟨value, stored, unread, rfl⟩
    exact ⟨rfl, member, stored, unread⟩
  · rintro ⟨rfl, member, stored, unread⟩
    exact ⟨_, member, fault?_eq_some.mpr ⟨fault.value, stored, unread, rfl⟩⟩

/-- The faults of a block are the stored values of its arguments that have no
reading. -/
theorem mem_faults {root : NodeId} {fault : FieldFault} :
    fault ∈ faults tree root ↔
      fault.node ∈ tree.argumentNodes root ∧
        (fault.key, fault.reading) ∈ readings tree fault.node ∧
          tree.field fault.node fault.key = some fault.value ∧
            fault.reading.reads fault.value = false := by
  rw [faults, List.mem_flatMap]
  constructor
  · rintro ⟨node, inBlock, member⟩
    rcases mem_nodeFaults.mp member with ⟨rfl, inNode⟩
    exact ⟨inBlock, inNode⟩
  · rintro ⟨inBlock, inNode⟩
    exact ⟨fault.node, inBlock, mem_nodeFaults.mpr ⟨rfl, inNode⟩⟩

theorem nodup_place_nodeFaults (tree : BlockTree) (node : NodeId) :
    ((nodeFaults tree node).map FieldFault.place).Nodup := by
  rw [nodeFaults, List.Nodup, List.pairwise_map, List.pairwise_filterMap]
  apply (List.pairwise_map.mp (nodup_readings tree node)).imp
  intro first second differs fault found other otherFound same
  rcases fault?_eq_some.mp found with ⟨_, _, _, rfl⟩
  rcases fault?_eq_some.mp otherFound with ⟨_, _, _, rfl⟩
  exact differs (congrArg Prod.snd same)

/-- The faults of a block are in different places if its arguments are different
nodes. -/
theorem nodup_place_faults {root : NodeId}
    (distinct : (tree.argumentNodes root).Nodup) :
    ((faults tree root).map FieldFault.place).Nodup := by
  rw [faults, List.map_flatMap, List.nodup_flatMap]
  constructor
  · exact fun node _ => nodup_place_nodeFaults tree node
  · apply List.Pairwise.imp _ distinct
    intro first second differs place inFirst inSecond
    rcases List.mem_map.mp inFirst with ⟨fault, member, rfl⟩
    rcases List.mem_map.mp inSecond with ⟨other, otherMember, same⟩
    apply differs
    rw [← (mem_nodeFaults.mp member).1, ← (mem_nodeFaults.mp otherMember).1]
    exact (congrArg Prod.fst same).symm

/-! ## Warnings -/

theorem mem_documentReports {root : NodeId} {warning : Warning}
    (member : warning ∈ documentReports tree root) :
    (∃ fault ∈ faults tree root, fault.warning = warning) ∨
      warning = ⟨.noLiveFields, root⟩ := by
  rw [documentReports_eq, List.mem_append] at member
  rcases member with ofFault | last
  · exact .inl (List.mem_map.mp ofFault)
  · split_ifs at last
    · exact .inr (List.mem_singleton.mp last)
    · cases last

/-- The warnings about a block are about different problems. -/
theorem nodup_problem_documentReports {root : NodeId}
    (distinct : (tree.argumentNodes root).Nodup) :
    ((documentReports tree root).map Warning.problem).Nodup := by
  rw [documentReports_eq, List.map_append, List.nodup_append]
  refine ⟨?_, by split_ifs <;> simp, ?_⟩
  · rw [List.map_map, List.Nodup, List.pairwise_map]
    apply (List.pairwise_map.mp (nodup_place_faults distinct)).imp
    intro first second differs same
    apply differs
    simp only [Function.comp_apply, FieldFault.warning,
      Problem.invalidFieldValue.injEq] at same
    exact Prod.ext same.1 same.2.1
  · intro invalid ofFault last isLast same
    rw [List.map_map] at ofFault
    rcases List.mem_map.mp ofFault with ⟨fault, _, rfl⟩
    split_ifs at isLast
    · rw [List.mem_singleton.mp isLast] at same
      cases same
    · cases isLast

/-- None of the warnings about a block is dropped. -/
theorem foldl_addTo_documentReports {root : NodeId}
    (distinct : (tree.argumentNodes root).Nodup) :
    (documentReports tree root).foldl Warning.addTo [] =
      documentReports tree root :=
  Warning.foldl_addTo_of_nodup (nodup_problem_documentReports distinct)

/-! ## Defaults -/

/-- Options have no defaults. -/
theorem defaultField?_eq_none {index : Nat} {kind : OptionKind}
    {entry : String × Reading} (member : entry ∈ optionReadings index kind) :
    Kind.fieldDropdown.defaultField? entry.1 = none := by
  have other : entry.1 ≠ FieldKey.fieldName := by
    intro equal
    have heads := head?_mem_optionReadings member
    rw [equal] at heads
    exact absurd heads (by decide)
  rw [Kind.defaultField?, Kind.defaultFields, List.lookup_cons,
    beq_eq_false_iff_ne.mpr other]
  rfl

/-- Every default has the reading that the generator wants of it. -/
theorem reads_default {kind : Kind} {entry : String × Reading}
    (member : entry ∈ kindReadings tree node kind) {value : FieldValue}
    (standard : kind.defaultField? entry.1 = some value) :
    entry.2.reads value = true := by
  cases kind with
  | fieldDropdown =>
      rcases List.mem_flatMap.mp member with ⟨option, _, inOption⟩
      cases (defaultField?_eq_none inOption).symm.trans standard
  | numericInput | angleInput | fieldCheckbox | fieldImage =>
      revert value
      revert entry
      simp only [kindReadings]
      decide +kernel
  | _ => cases member

theorem FieldFault.reads_standard {root : NodeId} {fault : FieldFault}
    (member : fault ∈ faults tree root) :
    fault.reading.reads (fault.standard tree) = true := by
  rcases exists_kind_of_mem_readings (mem_faults.mp member).2.1 with
    ⟨kind, ofKind, inKind⟩
  rw [FieldFault.standard, ofKind, Option.bind_some]
  cases standard : kind.defaultField? fault.key with
  | none => exact fault.reading.reads_zero
  | some value => exact reads_default inKind standard

end

end Definition

end BlockForge
