import BlockForge.Generation.Artifact
import BlockForge.Proofs.Generation.Arguments
import BlockForge.Proofs.Generation.Walk

/-!
# Trees that share a part

Two trees share a part if they show the same at each of its nodes and no link
downwards leads out of it.  A generator that starts inside reads nothing else:
it gives the same code for both trees, however many other nodes they have.

`Producer.walkWithin_eq` compares the walks of a producer over both trees, each
with a bound of its own that is large enough.  The code of each kind of node is
compared where it can look only at the node itself and at walks that start
below it; `Shares.generateAt?_congr` puts everything together.
-/

namespace BlockForge

namespace BlockTree

/-- Two trees show the same at a node. -/
structure SameAt (tree other : BlockTree) (id : NodeId) : Prop where
  kind_eq : other.kind id = tree.kind id
  field_eq : other.field id = tree.field id
  mutation_eq : other.mutation id = tree.mutation id
  children_eq : other.children id = tree.children id
  next_eq : other.nextSibling id = tree.nextSibling id
  slotNames_eq : other.slotNames id = tree.slotNames id
  target_eq : other.slotTarget id = tree.slotTarget id

/-- Two trees show the same at all nodes of a part that no link downwards
leaves, and the nodes of the part are in reach of a block creator. -/
structure Shares (tree other : BlockTree) (inside : NodeId → Prop) : Prop where
  same : ∀ {id}, inside id → tree.SameAt other id
  closed : ∀ {id child}, inside id → child ∈ tree.children id → inside child
  reached : ∀ {id}, inside id → ∃ kind, tree.kind id = some kind ∧
    (kind = .blockCreator ∨ tree.isLive id = true ∧ other.isLive id = true)

namespace SameAt

variable {tree other : BlockTree} {id : NodeId}

theorem text_eq (same : tree.SameAt other id) (key : String) :
    other.text id key = tree.text id key := by
  rw [text, text, same.field_eq]

theorem hasSlot_eq (same : tree.SameAt other id) (name : String) :
    other.hasSlot id name = tree.hasSlot id name := by
  rw [hasSlot, hasSlot, same.slotNames_eq]

end SameAt

/-- There is one chain from a start. -/
theorem Follows.eq {tree : BlockTree} {start : Option NodeId}
    {first second : List NodeId} (followsFirst : tree.Follows start first)
    (followsSecond : tree.Follows start second) : first = second := by
  induction followsFirst generalizing second with
  | nil =>
      cases followsSecond
      rfl
  | cons next next_ih =>
      cases followsSecond with
      | cons other => rw [next_ih other]

namespace Shares

variable {tree other : BlockTree} {inside : NodeId → Prop}
  {rank otherRank : NodeId → Nat}

theorem inside_next (shares : tree.Shares other inside)
    (coherent : tree.Coherent rank) {id next : NodeId} (starts : inside id)
    (step : tree.nextSibling id = some next) : inside next := by
  apply shares.closed starts
  rw [coherent.children_eq, step]
  simp

theorem inside_target (shares : tree.Shares other inside)
    (coherent : tree.Coherent rank) {id target : NodeId} {name : String}
    (starts : inside id) (hangs : tree.slotTarget id name = some target) :
    inside target := by
  apply shares.closed starts
  rw [coherent.children_eq]
  exact List.mem_append_left _ (List.mem_filterMap.mpr
    ⟨name, coherent.mem_slotNames hangs, hangs⟩)

/-- A chain that starts inside stays inside, in both trees. -/
theorem follows (shares : tree.Shares other inside)
    (coherent : tree.Coherent rank) {start : Option NodeId}
    {list : List NodeId} (follows : tree.Follows start list)
    (starts : ∀ head, start = some head → inside head) :
    other.Follows start list ∧ ∀ id ∈ list, inside id := by
  induction follows with
  | nil => exact ⟨.nil, by simp⟩
  | cons next next_ih =>
      rename_i head rest
      have here := starts head rfl
      rcases next_ih fun following step =>
        shares.inside_next coherent here step with ⟨others, later⟩
      refine ⟨.cons ?_, ?_⟩
      · rw [(shares.same here).next_eq]
        exact others
      · rw [List.forall_mem_cons]
        exact ⟨here, later⟩

theorem chain_eq (shares : tree.Shares other inside)
    (coherent : tree.Coherent rank) (otherCoherent : other.Coherent otherRank)
    {owner : NodeId} (starts : inside owner) (name : String) :
    other.chain owner name = tree.chain owner name ∧
      ∀ id ∈ tree.chain owner name, inside id := by
  have shared := shares.follows coherent (coherent.follows owner name)
    fun head hangs => shares.inside_target coherent starts hangs
  have own := otherCoherent.follows owner name
  rw [(shares.same starts).target_eq] at own
  exact ⟨own.eq shared.1, shared.2⟩

theorem descendants_eq (shares : tree.Shares other inside)
    (coherent : tree.Coherent rank) (otherCoherent : other.Coherent otherRank)
    {bound : Nat} :
    ∀ {id}, inside id → tree.size < bound + rank id →
      other.descendants id = tree.descendants id ∧
        ∀ below ∈ tree.descendants id, inside below := by
  induction bound with
  | zero =>
      intro id starts enough
      have most := coherent.rank_le id
      omega
  | succ bound bound_ih =>
      intro id starts enough
      have each : ∀ child ∈ tree.children id,
          other.descendants child = tree.descendants child ∧
            ∀ below ∈ tree.descendants child, inside below := by
        intro child member
        have less := coherent.child_lt member
        exact bound_ih (shares.closed starts member) (by omega)
      rw [coherent.descendants_eq, otherCoherent.descendants_eq,
        (shares.same starts).children_eq]
      refine ⟨?_, ?_⟩
      · rw [List.flatMap_congr fun child member => (each child member).1]
      · rw [List.forall_mem_cons]
        refine ⟨starts, ?_⟩
        intro below member
        rcases List.mem_flatMap.mp member with ⟨child, isChild, inChild⟩
        exact (each child isChild).2 below inChild

end Shares

end BlockTree

/-- Two walks agree on what comes after a node in both trees. -/
def AgreeBelow {σ : Type} (inside : NodeId → Prop)
    (rank otherRank : NodeId → Nat) (id : NodeId)
    (steps otherSteps : Walk σ) : Prop :=
  ∀ below, inside below → rank id < rank below →
    otherRank id < otherRank below → otherSteps below = steps below

section

variable {σ : Type} {tree other : BlockTree} {inside : NodeId → Prop}
  {rank otherRank : NodeId → Nat} (shares : tree.Shares other inside)
  (coherent : tree.Coherent rank) (otherCoherent : other.Coherent otherRank)

include shares coherent otherCoherent

theorem AgreeBelow.slotCode_eq {id owner : NodeId} {steps otherSteps : Walk σ}
    (agree : AgreeBelow inside rank otherRank id steps otherSteps)
    (here : inside owner) (comesAfter : rank id ≤ rank owner)
    (otherAfter : otherRank id ≤ otherRank owner) (name : String) :
    slotCode otherSteps other owner name = slotCode steps tree owner name := by
  have target_eq : other.slotTarget owner name = tree.slotTarget owner name :=
    congrFun (shares.same here).target_eq name
  unfold slotCode
  rw [target_eq]
  cases hangs : tree.slotTarget owner name with
  | none => rfl
  | some target =>
      have less := coherent.slot_lt hangs
      have otherLess := otherCoherent.slot_lt (target_eq.trans hangs)
      dsimp only
      rw [agree target (shares.inside_target coherent here hangs)
        (by omega) (by omega)]

namespace Producer

/-- Producers that give each node the same code, as far as walks below it are
the same, give the same walks, whatever bounds are enough. -/
theorem walkWithin_eq (producer otherProducer : Producer σ)
    (join_eq : otherProducer.join = producer.join)
    (produce_eq : ∀ {id kind}, inside id → tree.kind id = some kind →
      ∀ {steps otherSteps : Walk σ},
        AgreeBelow inside rank otherRank id steps otherSteps →
          otherProducer.produce otherSteps id kind =
            producer.produce steps id kind)
    {depth : Nat} :
    ∀ {otherDepth id}, inside id → tree.size < depth + rank id →
      other.size < otherDepth + otherRank id →
        otherProducer.walkWithin other otherDepth id =
          producer.walkWithin tree depth id := by
  induction depth with
  | zero =>
      intro otherDepth id here enough
      have most := coherent.rank_le id
      omega
  | succ depth depth_ih =>
      intro otherDepth id here enough otherEnough
      cases otherDepth with
      | zero =>
          have most := otherCoherent.rank_le id
          omega
      | succ otherDepth =>
          have agree : AgreeBelow inside rank otherRank id
              (producer.walkWithin tree depth)
              (otherProducer.walkWithin other otherDepth) := by
            intro below isBelow less otherLess
            exact depth_ih isBelow (by omega) (by omega)
          rcases shares.reached here with ⟨kind, ofKind, reached⟩
          have otherKind : other.kind id = some kind :=
            (shares.same here).kind_eq.trans ofKind
          funext thisOnly
          rw [walkWithin_succ ofKind (reached.imp_right And.left),
            walkWithin_succ otherKind (reached.imp_right And.right),
            produce_eq here ofKind agree, (shares.same here).next_eq, join_eq]
          cases step : tree.nextSibling id with
          | none => rfl
          | some next =>
              have less := coherent.next_lt step
              have otherLess := otherCoherent.next_lt
                ((shares.same here).next_eq.trans step)
              dsimp only
              rw [agree next (shares.inside_next coherent here step) less
                otherLess]

end Producer

end

/-- A value that is there is handed on. -/
theorem liftM_some_bind {σ α β : Type} (value : α) (next : α → Pass σ β) :
    (liftM (some value) : Pass σ α) >>= next = next value :=
  rfl

/-! ## Definitions -/

namespace Definition

section

variable {tree other : BlockTree} {id : NodeId}

theorem quotedField_eq (same : tree.SameAt other id) (key : String) :
    quotedField other id key = quotedField tree id key := by
  rw [quotedField, quotedField, same.text_eq]

theorem nameField_eq (same : tree.SameAt other id) (key : String) :
    nameField other id key = nameField tree id key := by
  rw [nameField, nameField, same.text_eq]

theorem alignEntries_eq (same : tree.SameAt other id) :
    alignEntries other id = alignEntries tree id := by
  unfold alignEntries
  rw [same.text_eq]

theorem read_eq {α : Type} (same : tree.SameAt other id)
    (reading : FieldValue → Option α) (otherwise : α) (key : String) :
    read reading otherwise other id key =
      read reading otherwise tree id key := by
  unfold read
  rw [same.kind_eq, same.field_eq]

theorem readNumber_eq (same : tree.SameAt other id) (key : String) :
    readNumber other id key = readNumber tree id key :=
  read_eq same _ _ key

theorem numberField_eq (same : tree.SameAt other id) (key : String) :
    numberField other id key = numberField tree id key := by
  rw [numberField, numberField, readNumber_eq same]

theorem boolField_eq (same : tree.SameAt other id) (key : String) :
    boolField other id key = boolField tree id key := by
  rw [boolField, boolField, readBool, readBool, read_eq same]

theorem namedField_eq (same : tree.SameAt other id)
    (jsonType key value : String) :
    namedField jsonType key value other id =
      namedField jsonType key value tree id := by
  rw [namedField, namedField, nameField_eq same]

theorem dropdownOption_eq (same : tree.SameAt other id) (index : Nat)
    (kind : OptionKind) :
    dropdownOption other id index kind = dropdownOption tree id index kind := by
  unfold dropdownOption
  simp only [quotedField_eq same, numberField_eq same]

theorem dropdownOptions_eq (same : tree.SameAt other id)
    (kinds : List OptionKind) :
    ∀ index, dropdownOptions other id index kinds =
      dropdownOptions tree id index kinds := by
  induction kinds with
  | nil => exact fun index => rfl
  | cons kind kinds kinds_ih =>
      intro index
      rw [dropdownOptions, dropdownOptions, dropdownOption_eq same, kinds_ih]

theorem fieldDropdown_eq (same : tree.SameAt other id) :
    fieldDropdown other id = fieldDropdown tree id := by
  have kinds_eq : dropdownKinds other id = dropdownKinds tree id := by
    rw [dropdownKinds, dropdownKinds, same.mutation_eq]
  unfold fieldDropdown
  simp only [kinds_eq, dropdownOptions_eq same, namedField_eq same]

theorem memberCount_eq (same : tree.SameAt other id) :
    memberCount other id = memberCount tree id := by
  unfold memberCount
  simp only [same.mutation_eq, same.slotNames_eq, same.hasSlot_eq]

theorem isElided_eq (same : tree.SameAt other id) :
    isElided other id = isElided tree id := by
  rw [isElided, isElided, same.kind_eq, same.next_eq]

end

section

variable {tree other : BlockTree} {inside : NodeId → Prop}
  {rank otherRank : NodeId → Nat} (shares : tree.Shares other inside)
  (coherent : tree.Coherent rank) (otherCoherent : other.Coherent otherRank)

include shares coherent otherCoherent

variable {id : NodeId} {steps otherSteps : Walk (List Warning)}

/-- What hangs alone in a slot is walked the same. -/
theorem walk_target_eq (here : inside id)
    (agree : AgreeBelow inside rank otherRank id steps otherSteps)
    {name : String} {target : NodeId}
    (hangs : tree.slotTarget id name = some target) :
    otherSteps target = steps target := by
  have otherHangs : other.slotTarget id name = some target :=
    (congrFun (shares.same here).target_eq name).trans hangs
  exact agree target (shares.inside_target coherent here hangs)
    (coherent.slot_lt hangs) (otherCoherent.slot_lt otherHangs)

theorem typeCheck_eq (here : inside id)
    (agree : AgreeBelow inside rank otherRank id steps otherSteps) :
    typeCheck otherSteps other id = typeCheck steps tree id := by
  unfold typeCheck
  rw [(shares.same here).hasSlot_eq, (shares.same here).target_eq]
  cases hangs : tree.slotTarget id Slot.type with
  | none => rfl
  | some target =>
      dsimp only
      rw [walk_target_eq shares coherent otherCoherent here agree hangs]

theorem input_eq (here : inside id)
    (agree : AgreeBelow inside rank otherRank id steps otherSteps)
    (jsonType : String) :
    input jsonType otherSteps other id = input jsonType steps tree id := by
  unfold input
  simp only [typeCheck_eq shares coherent otherCoherent here agree,
    nameField_eq (shares.same here), alignEntries_eq (shares.same here)]

theorem typeGroup_eq (here : inside id)
    (agree : AgreeBelow inside rank otherRank id steps otherSteps) :
    typeGroup otherSteps other id = typeGroup steps tree id := by
  have member_eq : memberCode otherSteps other id = memberCode steps tree id := by
    funext index
    unfold memberCode
    rw [(shares.same here).target_eq]
    cases hangs : tree.slotTarget id (Slot.member index) with
    | none => rfl
    | some target =>
        dsimp only
        rw [walk_target_eq shares coherent otherCoherent here agree hangs]
  rw [typeGroup, typeGroup, memberCount_eq (shares.same here), member_eq]

theorem itemCodes_eq {item : NodeId} (isInside : inside item)
    (less : rank id < rank item) (otherLess : otherRank id < otherRank item)
    (agree : AgreeBelow inside rank otherRank id steps otherSteps) :
    itemCodes otherSteps other item = itemCodes steps tree item := by
  unfold itemCodes
  rw [agree.slotCode_eq shares coherent otherCoherent isInside less.le
    otherLess.le, isElided_eq (shares.same isInside),
    agree item isInside less otherLess]

theorem blockCreator_eq (here : inside id)
    (agree : AgreeBelow inside rank otherRank id steps otherSteps) :
    blockCreator otherSteps other id = blockCreator steps tree id := by
  have same := shares.same here
  rcases shares.chain_eq coherent otherCoherent here Slot.inputs with
    ⟨items_eq, items_inside⟩
  have enough : tree.size < tree.size + 1 + rank id := by omega
  rcases shares.descendants_eq coherent otherCoherent here enough with
    ⟨below_eq, below_inside⟩
  have codes_eq : (tree.chain id Slot.inputs).mapM (itemCodes otherSteps other) =
      (tree.chain id Slot.inputs).mapM (itemCodes steps tree) := by
    apply mapM_congr
    intro item member
    have otherMember : item ∈ other.chain id Slot.inputs := by
      rw [items_eq]
      exact member
    exact itemCodes_eq shares coherent otherCoherent (items_inside item member)
      (coherent.rank_lt_of_mem member)
      (otherCoherent.rank_lt_of_mem otherMember) agree
  have constraints_eq : (tree.descendants id).countP (fun node =>
        (other.kind node).any Kind.isTypeConstraint) =
      (tree.descendants id).countP fun node =>
        (tree.kind node).any Kind.isTypeConstraint := by
    apply List.countP_congr
    intro node member
    rw [(shares.same (below_inside node member)).kind_eq]
  have elided_eq : (tree.chain id Slot.inputs).countP (isElided other) =
      (tree.chain id Slot.inputs).countP (isElided tree) := by
    apply List.countP_congr
    intro item member
    rw [isElided_eq (shares.same (items_inside item member))]
  unfold blockCreator
  simp only [items_eq, codes_eq, otherCoherent.descendants?_eq_some,
    coherent.descendants?_eq_some, otherCoherent.descendantCount?_eq_some,
    coherent.descendantCount?_eq_some, below_eq, elided_eq, same.text_eq,
    typeName, quotedField_eq same, liftM_some_bind, constraints_eq]

/-- The fragment of a node depends only on the part that is shared. -/
theorem produce_eq (here : inside id)
    (agree : AgreeBelow inside rank otherRank id steps otherSteps)
    (kind : Kind) :
    produce other otherSteps id kind = produce tree steps id kind := by
  have same := shares.same here
  cases kind with
  | blockCreator =>
      exact blockCreator_eq shares coherent otherCoherent here agree
  | inputValue =>
      exact input_eq shares coherent otherCoherent here agree _
  | inputStatement =>
      exact input_eq shares coherent otherCoherent here agree _
  | typeGroup =>
      exact typeGroup_eq shares coherent otherCoherent here agree
  | _ =>
      simp only [produce, dummyInput, numericInput, fieldImage, typeOther,
        alignEntries_eq same, quotedField_eq same, nameField_eq same,
        namedField_eq same, readNumber_eq same, numberField_eq same,
        boolField_eq same, fieldDropdown_eq same, same.text_eq]

theorem generate?_congr (here : inside id) :
    generate? other id = generate? tree id := by
  have walk_eq : walk other id = walk tree id :=
    Producer.walkWithin_eq shares coherent otherCoherent (producer tree)
      (producer other) rfl
      (fun isInside _ _ _ agree =>
        produce_eq shares coherent otherCoherent isInside agree _)
      here (by omega) (by omega)
  have same := shares.same here
  rw [generate?, generate?, walk_eq, same.kind_eq, typeName, typeName,
    same.text_eq]

end

end Definition

/-! ## Glue code -/

namespace Glue

variable {tree other : BlockTree} {inside : NodeId → Prop}
  {rank otherRank : NodeId → Nat} (shares : tree.Shares other inside)
  (coherent : tree.Coherent rank) (otherCoherent : other.Coherent otherRank)
  {id : NodeId} {steps otherSteps : Walk State}

include shares coherent otherCoherent

theorem itemCode_eq {item : NodeId} (isInside : inside item)
    (less : rank id < rank item) (otherLess : otherRank id < otherRank item)
    (agree : AgreeBelow inside rank otherRank id steps otherSteps) :
    itemCode otherSteps other item = itemCode steps tree item := by
  unfold itemCode
  rw [agree item isInside less otherLess,
    agree.slotCode_eq shares coherent otherCoherent isInside less.le
      otherLess.le]

theorem blockCreator_eq (here : inside id)
    (agree : AgreeBelow inside rank otherRank id steps otherSteps) :
    blockCreator otherSteps other id = blockCreator steps tree id := by
  have same := shares.same here
  rcases shares.chain_eq coherent otherCoherent here Slot.inputs with
    ⟨items_eq, items_inside⟩
  have codes_eq : (tree.chain id Slot.inputs).mapM (itemCode otherSteps other) =
      (tree.chain id Slot.inputs).mapM (itemCode steps tree) := by
    apply mapM_congr
    intro item member
    have otherMember : item ∈ other.chain id Slot.inputs := by
      rw [items_eq]
      exact member
    exact itemCode_eq shares coherent otherCoherent (items_inside item member)
      (coherent.rank_lt_of_mem member)
      (otherCoherent.rank_lt_of_mem otherMember) agree
  unfold blockCreator
  simp only [items_eq, codes_eq, blockName, same.text_eq]

/-- The code of a node depends only on the part that is shared. -/
theorem produce_eq (here : inside id)
    (agree : AgreeBelow inside rank otherRank id steps otherSteps)
    (kind : Kind) :
    produce other otherSteps id kind = produce tree steps id kind := by
  unfold produce
  rw [blockCreator_eq shares coherent otherCoherent here agree]
  simp only [declare, (shares.same here).text_eq]

theorem withWarnings?_congr (here : inside id) :
    withWarnings? other id = withWarnings? tree id := by
  have walk_eq : walk other id = walk tree id :=
    Producer.walkWithin_eq shares coherent otherCoherent (producer tree)
      (producer other) rfl
      (fun isInside _ _ _ agree =>
        produce_eq shares coherent otherCoherent isInside agree _)
      here (by omega) (by omega)
  have same := shares.same here
  rw [withWarnings?, withWarnings?, walk_eq, same.kind_eq, blockName, blockName,
    same.text_eq]

end Glue

/-- What is generated for a block depends only on the part of the tree that
hangs in it. -/
theorem BlockTree.Shares.generateAt?_congr {tree other : BlockTree}
    {inside : NodeId → Prop} {rank otherRank : NodeId → Nat}
    (shares : tree.Shares other inside) (coherent : tree.Coherent rank)
    (otherCoherent : other.Coherent otherRank) {root : NodeId}
    (here : inside root) :
    other.generateAt? root = tree.generateAt? root := by
  unfold generateAt?
  simp only [Definition.generate?_congr shares coherent otherCoherent here,
    Glue.withWarnings?_congr shares coherent otherCoherent here, exportBlock,
    (shares.same here).text_eq]

end BlockForge
