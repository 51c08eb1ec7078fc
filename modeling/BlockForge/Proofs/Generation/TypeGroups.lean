import BlockForge.Proofs.Generation.Definition
import BlockForge.Proofs.Workspace.SlotGrowth
import Mathlib.Data.List.TakeWhile

/-!
# Type groups

The fragment of a type group lists the fragments of its members on one line.
What was ever hung in the slots of a group stays there, but the fragment goes by
the number of members that the group was given last: a member beyond it is
attached and not listed.

`codes_typeGroup` is the step from the members to the group.
`run_typeGroup_lists` says what a group lists after any edits, and when nothing
that hangs in it is missing.
-/

namespace BlockForge

namespace BlockTree

/-- What hangs in the first type slots of a group, in the order of the slots. -/
def membersBelow (tree : BlockTree) (group : NodeId) (count : Nat) :
    List NodeId :=
  (List.range count).filterMap fun index =>
    tree.slotTarget group (Slot.member index)

/-- What hangs in the type slots of a group, in the order of the slots. -/
def members (tree : BlockTree) (group : NodeId) : List NodeId :=
  tree.membersBelow group (tree.slotNames group).length

/-- The members of a group that its mutation counts; without such a mutation all
of them count. -/
def countedMembers (tree : BlockTree) (group : NodeId) : List NodeId :=
  match tree.mutation group with
  | some (.typeGroup count) => tree.membersBelow group count
  | _ => tree.members group

variable {tree : BlockTree} {rank : NodeId → Nat} {group : NodeId}

theorem membersBelow_succ (count : Nat) :
    tree.membersBelow group (count + 1) =
      tree.membersBelow group count ++
        (tree.slotTarget group (Slot.member count)).toList := by
  rw [membersBelow, membersBelow, List.range_succ, List.filterMap_append]
  rfl

theorem mem_membersBelow {count : Nat} {id : NodeId} :
    id ∈ tree.membersBelow group count ↔
      ∃ index < count, tree.slotTarget group (Slot.member index) = some id := by
  simp [membersBelow]

theorem membersBelow_prefix {first second : Nat} (less : first ≤ second) :
    tree.membersBelow group first <+: tree.membersBelow group second := by
  induction second, less using Nat.le_induction with
  | base => exact List.prefix_refl _
  | succ second _ second_ih =>
      rw [membersBelow_succ]
      exact second_ih.trans (List.prefix_append _ _)

namespace Coherent

/-- The slots of a type group are its member slots. -/
theorem slotNames_typeGroup (coherent : tree.Coherent rank)
    (ofKind : tree.kind group = some .typeGroup) :
    tree.slotNames group =
      (List.range (tree.slotNames group).length).map Slot.member := by
  rcases coherent.slotNames_eq ofKind with ⟨members, names⟩
  rw [names]
  simp [Kind.slotsWith, Kind.slotNames]

theorem lt_length_of_slotTarget (coherent : tree.Coherent rank)
    (ofKind : tree.kind group = some .typeGroup) {index : Nat} {id : NodeId}
    (held : tree.slotTarget group (Slot.member index) = some id) :
    index < (tree.slotNames group).length := by
  have named := coherent.mem_slotNames held
  rw [coherent.slotNames_typeGroup ofKind,
    List.mem_map_of_injective Slot.member_injective] at named
  exact List.mem_range.mp named

theorem mem_members_iff (coherent : tree.Coherent rank)
    (ofKind : tree.kind group = some .typeGroup) {id : NodeId} :
    id ∈ tree.members group ↔
      ∃ index, tree.slotTarget group (Slot.member index) = some id := by
  rw [members, mem_membersBelow]
  constructor
  · rintro ⟨index, _, held⟩
    exact ⟨index, held⟩
  · rintro ⟨index, held⟩
    exact ⟨index, coherent.lt_length_of_slotTarget ofKind held, held⟩

/-- No member hangs beyond the slots of a group. -/
theorem membersBelow_eq_members (coherent : tree.Coherent rank)
    (ofKind : tree.kind group = some .typeGroup) {count : Nat}
    (enough : (tree.slotNames group).length ≤ count) :
    tree.membersBelow group count = tree.members group := by
  induction count, enough using Nat.le_induction with
  | base => rfl
  | succ count beyond count_ih =>
      have unoccupied : tree.slotTarget group (Slot.member count) = none := by
        rw [Option.eq_none_iff_forall_ne_some]
        intro id held
        have inside := coherent.lt_length_of_slotTarget ofKind held
        omega
      rw [membersBelow_succ, count_ih, unoccupied, Option.toList_none,
        List.append_nil]

theorem countedMembers_prefix (coherent : tree.Coherent rank)
    (ofKind : tree.kind group = some .typeGroup) :
    tree.countedMembers group <+: tree.members group := by
  unfold countedMembers
  split
  · rename_i count _
    rcases Nat.le_total count (tree.slotNames group).length with less | more
    · exact membersBelow_prefix less
    · rw [coherent.membersBelow_eq_members ofKind more]
  · exact List.prefix_refl _

end Coherent

end BlockTree

namespace Definition

/-! ## Lists of fragments -/

/-- The texts that are not empty, in brackets; nothing if there are none. -/
def listed (texts : List String) : String :=
  if (nonempty texts).isEmpty then ""
  else "[" ++ ", ".intercalate (nonempty texts) ++ "]"

theorem nonempty_eq_nil_iff {texts : List String} :
    nonempty texts = [] ↔ ∀ text ∈ texts, text = "" := by
  simp [nonempty]

theorem listed_eq_empty_iff {texts : List String} :
    listed texts = "" ↔ ∀ text ∈ texts, text = "" := by
  rw [← nonempty_eq_nil_iff, listed]
  split_ifs with none
  · simpa using none
  · simpa [String.append_eq_empty_iff] using none

/-- Another text that is not empty makes a list longer. -/
theorem listed_append_eq_iff {texts more : List String} :
    listed (texts ++ more) = listed texts ↔ ∀ text ∈ more, text = "" := by
  have split : nonempty (texts ++ more) = nonempty texts ++ nonempty more :=
    List.filter_append ..
  rw [← nonempty_eq_nil_iff]
  constructor
  · intro same
    by_contra some
    rcases Decidable.em (nonempty texts = []) with none | others
    · have empty : listed texts = "" := by simp [listed, none]
      rw [empty, listed, split, none, List.nil_append] at same
      simp [some] at same
    · rw [listed, listed, split,
        String.intercalate_append_of_ne_nil others some] at same
      have lengths := congrArg String.length same
      have separator : ", ".length = 2 := by decide
      simp [others] at lengths
      omega
  · intro none
    rw [listed, listed, split, none, List.append_nil]

/-! ## Fragments of members -/

/-- The fragment of a single node; empty if there is none. -/
def rendering (tree : BlockTree) (node : NodeId) : String :=
  (code? tree node true).getD ""

/-- The fragment of what hangs in the type slot of an index. -/
def memberRendering (tree : BlockTree) (group : NodeId) (index : Nat) :
    String :=
  ((tree.slotTarget group (Slot.member index)).map (rendering tree)).getD ""

variable {tree : BlockTree} {rank : NodeId → Nat} {group : NodeId}

/-- Slots in which nothing hangs do not show. -/
theorem nonempty_memberRendering (count : Nat) :
    nonempty ((List.range count).map (memberRendering tree group)) =
      nonempty ((tree.membersBelow group count).map (rendering tree)) := by
  induction count with
  | zero => rfl
  | succ count count_ih =>
      have own :
          nonempty [memberRendering tree group count] =
            nonempty ((tree.slotTarget group (Slot.member count)).toList.map
              (rendering tree)) := by
        unfold memberRendering
        cases tree.slotTarget group (Slot.member count) <;> rfl
      simp only [nonempty] at count_ih own ⊢
      rw [List.range_succ, BlockTree.membersBelow_succ, List.map_append,
        List.map_append, List.filter_append, List.filter_append, count_ih,
        List.map_singleton, own]

/-- Without a count of members the group goes by its slots. -/
theorem membersBelow_memberCount (coherent : tree.Coherent rank)
    (ofKind : tree.kind group = some .typeGroup) :
    tree.membersBelow group (memberCount tree group) =
      tree.countedMembers group := by
  have present : (List.range (tree.slotNames group).length).takeWhile
      (fun index => tree.hasSlot group (Slot.member index)) =
        List.range (tree.slotNames group).length := by
    rw [List.takeWhile_eq_self_iff]
    intro index inside
    rw [BlockTree.hasSlot, coherent.slotNames_typeGroup ofKind]
    exact decide_eq_true (List.mem_map_of_mem inside)
  unfold memberCount BlockTree.countedMembers
  rw [present, List.length_range]
  rcases tree.mutation group with _ | (_ | _) <;> rfl

/-- A node with one text at all depths has this text as its fragment. -/
theorem code?_of_codes (coherent : tree.Coherent rank) {node : NodeId}
    {text : String}
    (codes : (producer tree).Codes tree rank Warning.addTo node (· = text) []) :
    code? tree node true = some text := by
  have enough : tree.size < 2 * tree.size + 1 + rank node := by omega
  rcases codes.walkWithin coherent enough with ⟨_, rfl, gives⟩
  exact congrArg (Option.map Prod.fst) (gives [])

/-- A type group lists the fragments of the members that count. -/
theorem codes_typeGroup (coherent : tree.Coherent rank)
    (ofKind : tree.kind group = some .typeGroup)
    (live : tree.isLive group = true)
    (members : ∀ {index member},
      tree.slotTarget group (Slot.member index) = some member →
        (producer tree).Codes tree rank Warning.addTo member
          (· = rendering tree member) []) :
    (producer tree).Codes tree rank Warning.addTo group
      (· = listed ((tree.countedMembers group).map (rendering tree))) [] := by
  refine ⟨.typeGroup, ofKind, .inr live, fun depth enough => ⟨_, rfl, ?_⟩⟩
  have member : ∀ index ∈ List.range (memberCount tree group),
      ∃ text, text = memberRendering tree group index ∧
        Gives Warning.addTo
          (memberCode ((producer tree).walkWithin tree depth) tree group index)
          text [] := by
    intro index _
    unfold memberCode memberRendering
    cases held : tree.slotTarget group (Slot.member index) with
    | none => exact ⟨"", rfl, Gives.done ""⟩
    | some member =>
        have less := coherent.slot_lt held
        exact (members held).walkWithin coherent (by omega)
  rcases Gives.mapM member with ⟨texts, shown, gives⟩
  have texts_eq : texts = (List.range (memberCount tree group)).map
      (memberRendering tree group) := by
    rw [← List.forall₂_eq_eq_eq, List.forall₂_map_right_iff]
    exact shown.flip
  have noEntries : (List.range (memberCount tree group)).flatMap
      (fun _ => ([] : List Warning)) = [] := by
    simp
  have listed_eq : listed texts =
      listed ((tree.countedMembers group).map (rendering tree)) := by
    rw [listed, listed, texts_eq, nonempty_memberRendering,
      membersBelow_memberCount coherent ofKind]
  rw [noEntries] at gives
  rw [← listed_eq]
  exact gives.bind_pure _

/-- Every type constraint in reach has a fragment, the same at all depths. -/
theorem codes_rendering (coherent : tree.Coherent rank) {node : NodeId}
    {kind : Kind} (ofKind : tree.kind node = some kind)
    (constraint : kind.isTypeConstraint = true) :
    tree.isLive node = true →
      (producer tree).Codes tree rank Warning.addTo node
        (· = rendering tree node) [] := by
  refine coherent.constraint_induction
    (fun node => tree.isLive node = true →
      (producer tree).Codes tree rank Warning.addTo node
        (· = rendering tree node) [])
    ?_ ofKind constraint
  intro node kind ofKind constraint members live
  suffices known : ∃ text,
      (producer tree).Codes tree rank Warning.addTo node (· = text) [] by
    rcases known with ⟨text, codes⟩
    rwa [rendering, code?_of_codes coherent codes]
  cases kind with
  | typeNull | typeBoolean | typeNumber | typeString | typeList | typeOther =>
      exact ⟨_, _, ofKind, .inr live, fun _ _ => ⟨_, rfl, Gives.done _⟩⟩
  | typeGroup =>
      refine ⟨_, codes_typeGroup coherent ofKind live ?_⟩
      intro index member held
      have inChain := coherent.mem_chain_of_slotTarget held
      exact members inChain (coherent.isLive_of_mem_chain live inChain)
  | _ => cases constraint

/-- The fragment of a type group and what hangs in its type slots. -/
structure ListsMembers (tree : BlockTree) (group : NodeId) : Prop where
  mem_members_iff : ∀ {member}, member ∈ tree.members group ↔
    ∃ index, tree.slotTarget group (Slot.member index) = some member
  nodup : (tree.members group).Nodup
  counted : tree.countedMembers group <+: tree.members group
  /-- The members have fragments. -/
  member_eq : ∀ member ∈ tree.members group,
    code? tree member true = some (rendering tree member)
  /-- The group lists the fragments of the members that count. -/
  group_eq : code? tree group true =
    some (listed ((tree.countedMembers group).map (rendering tree)))
  empty_iff : code? tree group true = some "" ↔
    ∀ member ∈ tree.countedMembers group, rendering tree member = ""
  /-- The group lists the fragments of all members exactly if the others have
  nothing to list. -/
  complete_iff : code? tree group true =
      some (listed ((tree.members group).map (rendering tree))) ↔
    ∀ member ∈ tree.members group, member ∉ tree.countedMembers group →
      rendering tree member = ""

theorem listsMembers (coherent : tree.Coherent rank)
    (ofKind : tree.kind group = some .typeGroup)
    (live : tree.isLive group = true) (nodup : (tree.members group).Nodup) :
    ListsMembers tree group := by
  have codes {index : Nat} {member : NodeId}
      (held : tree.slotTarget group (Slot.member index) = some member) :
      (producer tree).Codes tree rank Warning.addTo member
        (· = rendering tree member) [] := by
    have inChain := coherent.mem_chain_of_slotTarget held
    rcases coherent.exists_kind_of_mem_type (Slot.isType_member index) inChain
      with ⟨kind, ofMember, constraint⟩
    exact codes_rendering coherent ofMember constraint
      (coherent.isLive_of_mem_chain live inChain)
  have group_eq :=
    code?_of_codes coherent (codes_typeGroup coherent ofKind live codes)
  rcases coherent.countedMembers_prefix ofKind with ⟨others, split⟩
  have other_iff {member : NodeId} : member ∈ others ↔
      member ∈ tree.members group ∧ member ∉ tree.countedMembers group := by
    rw [← split] at nodup ⊢
    rw [List.mem_append, or_and_right, and_not_self_iff, false_or, iff_self_and]
    intro inOthers isCounted
    exact List.disjoint_of_nodup_append nodup isCounted inOthers
  refine
    { mem_members_iff := coherent.mem_members_iff ofKind
      nodup, counted := ⟨others, split⟩, member_eq := ?_, group_eq
      empty_iff := ?_, complete_iff := ?_ }
  · intro member inMembers
    rcases (coherent.mem_members_iff ofKind).mp inMembers with ⟨index, held⟩
    exact code?_of_codes coherent (codes held)
  · rw [group_eq, Option.some.injEq, listed_eq_empty_iff, List.forall_mem_map]
  · rw [group_eq, Option.some.injEq, eq_comm, ← split, List.map_append,
      listed_append_eq_iff, List.forall_mem_map, split]
    simp only [other_iff, and_imp]

end Definition

namespace Workspace

variable {workspace : Workspace} {chains : NodeId → String → List NodeId}
  {order : NodeId → Nat}

/-- Nothing hangs in two slots. -/
theorem Arranged.nodup_members (arranged : workspace.Arranged chains order)
    (group : NodeId) : (workspace.tree.members group).Nodup := by
  apply List.Nodup.filterMap ?_ List.nodup_range
  intro first second member inFirst inSecond
  exact Slot.member_injective (arranged.name_eq
    (arranged.mem_of_target? inFirst) (arranged.mem_of_target? inSecond))

/-- A type group has as many slots as the greatest number of members that it was
ever given. -/
theorem mostMembers_length_slotNames (edits : List Edit) {group : NodeId}
    (ofKind : (run edits).kind? group = some .typeGroup) :
    MostMembers edits group ((run edits).tree.slotNames group).length := by
  rcases Option.map_eq_some_iff.mp ofKind with ⟨node, found, isGroup⟩
  rcases exists_mostMembers_run edits found with ⟨members, most, names⟩
  have slotNames : (run edits).tree.slotNames group =
      node.slots.map Slot.name := by
    simp [tree, found]
  rw [slotNames, names, isGroup]
  simpa [Kind.slotsWith, Kind.slotNames] using most

theorem countedMembers_eq_members (edits : List Edit) {group : NodeId}
    (ofKind : (run edits).kind? group = some .typeGroup)
    (greatest : ∀ count,
      (run edits).tree.mutation group = some (.typeGroup count) →
        MostMembers edits group count) :
    (run edits).tree.countedMembers group = (run edits).tree.members group := by
  have most := mostMembers_length_slotNames edits ofKind
  unfold BlockTree.countedMembers
  split
  · rename_i count counted
    rw [(greatest count counted).unique most]
    rfl
  · rfl

/-- Whatever edits build a workspace, a type group in reach of a block lists the
fragments of the members that its mutation counts, in the order of the slots and
each one once.  The list is complete exactly if the members beyond have nothing
to list, and it is complete if the group was never given more members than
last. -/
theorem run_typeGroup_lists (edits : List Edit) {group : NodeId}
    (ofKind : (run edits).kind? group = some .typeGroup)
    (live : (run edits).tree.isLive group = true) :
    Definition.ListsMembers (run edits).tree group ∧
      ((∀ count, (run edits).tree.mutation group = some (.typeGroup count) →
          MostMembers edits group count) →
        Definition.code? (run edits).tree group true =
          some (Definition.listed (((run edits).tree.members group).map
            (Definition.rendering (run edits).tree)))) := by
  rcases exists_arranged_run edits with ⟨rank, arranged, bounded⟩
  have lists : Definition.ListsMembers (run edits).tree group :=
    Definition.listsMembers (arranged.coherent bounded) ofKind live
      (arranged.nodup_members group)
  refine ⟨lists, fun greatest => ?_⟩
  rw [lists.group_eq, countedMembers_eq_members edits ofKind greatest]

theorem run_typeGroup_lists_sample :
    (run sampleEdits).kind? 3 = some .typeGroup ∧
      (run sampleEdits).tree.isLive 3 = true ∧
      (run sampleEdits).tree.mutation 3 = some (.typeGroup 2) ∧
      MostMembers sampleEdits 3 2 ∧
      Definition.ListsMembers (run sampleEdits).tree 3 ∧
      Definition.code? (run sampleEdits).tree 3 true =
        some (Definition.listed (((run sampleEdits).tree.members 3).map
          (Definition.rendering (run sampleEdits).tree))) := by
  have ofKind : (run sampleEdits).kind? 3 = some .typeGroup := by
    decide +kernel
  have live : (run sampleEdits).tree.isLive 3 = true := by decide +kernel
  have counted :
      (run sampleEdits).tree.mutation 3 = some (.typeGroup 2) := by
    decide +kernel
  have most : MostMembers sampleEdits 3 2 := by
    have slots := mostMembers_length_slotNames sampleEdits ofKind
    have length : ((run sampleEdits).tree.slotNames 3).length = 2 := by
      decide +kernel
    rwa [length] at slots
  have lists := run_typeGroup_lists sampleEdits ofKind live
  refine ⟨ofKind, live, counted, most, lists.1, lists.2 ?_⟩
  intro count given
  cases counted.symm.trans given
  exact most

/-- Edits that give a type group a member and then no members any more. -/
def emptiedEdits : List Edit :=
  [.addNode .blockCreator, .addNode .inputValue, .addNode .typeGroup,
    .addNode .typeNumber, .attach 0 "INPUTS" 1, .attach 1 "TYPE" 2,
    .setMutation 2 (.typeGroup 1), .attach 2 "TYPE0" 3,
    .setMutation 2 (.typeGroup 0)]

/-- The member is still attached, and the group lists nothing. -/
theorem run_typeGroup_loses_member :
    (run emptiedEdits).kind? 2 = some .typeGroup ∧
      (run emptiedEdits).tree.isLive 2 = true ∧
      (run emptiedEdits).tree.slotTarget 2 (Slot.member 0) = some 3 ∧
      Definition.code? (run emptiedEdits).tree 3 true = some "\"Number\"" ∧
      Definition.listed (((run emptiedEdits).tree.members 2).map
        (Definition.rendering (run emptiedEdits).tree)) = "[\"Number\"]" ∧
      Definition.code? (run emptiedEdits).tree 2 true = some "" := by
  decide +kernel

end Workspace

end BlockForge
