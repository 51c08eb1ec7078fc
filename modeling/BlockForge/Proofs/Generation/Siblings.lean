import BlockForge.Proofs.Generation.Document
import BlockForge.Proofs.Generation.Definition
import BlockForge.Proofs.Generation.Glue
import BlockForge.Proofs.Generation.Sharing

/-!
# Siblings

A walk goes from a node to its next sibling by itself and joins what it gets
from there with the code of the node.  What it gives for a slot is the same as
the codes of the members of the chain, each of them generated alone, put
together at once.

The walk may nest as deep as the tree allows wherever it starts, so the code of
a node inside a walk is the code of the node alone: on a coherent tree no depth
that is enough makes a difference.  `Producer.exists_codes` follows a chain, and
`run_siblings` says what both generators give for the slots of a workspace.
-/

namespace BlockForge

/-- What fits a slot that is no type slot is an input or a field. -/
theorem Kind.isArgument_of_fits {kind : Kind} {name : String}
    (fits : kind.fits name = true) (notType : Slot.isType name = false) :
    kind.isInput = true ∨ kind.isField = true := by
  unfold Kind.fits at fits
  split_ifs at fits with inputs fields
  · simpa using fits
  · exact .inr fits
  · rw [notType] at *
    contradiction

namespace BlockTree

/-- Whether a node is a block creator or in reach of one. -/
def IsReached (tree : BlockTree) (id : NodeId) : Prop :=
  tree.kind id = some .blockCreator ∨ tree.isLive id = true

instance (tree : BlockTree) (id : NodeId) : Decidable (tree.IsReached id) :=
  inferInstanceAs (Decidable (_ ∨ _))

/-- The block creators and the members of chains in reach of them. -/
def IsWalked (tree : BlockTree) (id : NodeId) : Prop :=
  tree.kind id = some .blockCreator ∨
    ∃ owner name, tree.IsReached owner ∧ id ∈ tree.chain owner name

namespace Follows

variable {tree : BlockTree} {start : Option NodeId} {list : List NodeId}

theorem next_mem (follows : tree.Follows start list) {id next : NodeId} :
    id ∈ list → tree.nextSibling id = some next → next ∈ list := by
  induction follows with
  | nil =>
      intro impossible
      cases impossible
  | cons following next_ih =>
      rename_i head rest
      intro member step
      rcases List.mem_cons.mp member with rfl | inRest
      · rw [step] at following
        cases following
        simp
      · exact List.mem_cons_of_mem head (next_ih inRest step)

/-- The end of a chain is a chain. -/
theorem suffix {before after : List NodeId} {item : NodeId}
    (follows : tree.Follows start (before ++ item :: after)) :
    tree.Follows (some item) (item :: after) := by
  induction before generalizing start with
  | nil =>
      cases follows with
      | cons next => exact .cons next
  | cons head before before_ih =>
      cases follows with
      | cons next => exact before_ih next

end Follows

namespace Coherent

variable {tree : BlockTree} {rank : NodeId → Nat}

/-- What is walked is in reach of a block creator. -/
theorem isReached_of_isWalked (coherent : tree.Coherent rank) {id : NodeId}
    (walked : tree.IsWalked id) : tree.IsReached id := by
  rcases walked with creator | ⟨owner, name, reached, member⟩
  · exact .inl creator
  · exact .inr ((coherent.isLive_iff member).mpr reached)

/-- What is walked is a part of the tree that no link downwards leaves. -/
theorem shares_isWalked (coherent : tree.Coherent rank) :
    tree.Shares tree tree.IsWalked where
  same := fun _ => ⟨rfl, rfl, rfl, rfl, rfl, rfl, rfl⟩
  closed := by
    intro id child walked member
    rw [coherent.children_eq, List.mem_append, List.mem_filterMap,
      Option.mem_toList] at member
    rcases member with ⟨name, _, target⟩ | next
    · exact .inr ⟨id, name, coherent.isReached_of_isWalked walked,
        coherent.mem_chain_of_slotTarget target⟩
    · rcases walked with creator | ⟨owner, name, reached, inChain⟩
      · rw [coherent.creator_loose creator] at next
        cases next
      · exact .inr ⟨owner, name, reached,
          (coherent.follows owner name).next_mem inChain next⟩
  reached := by
    intro id walked
    rcases walked with creator | ⟨owner, name, reached, member⟩
    · exact ⟨.blockCreator, creator, .inl rfl⟩
    · rcases coherent.fits member with ⟨kind, ofKind, _⟩
      have live := (coherent.isLive_iff member).mpr reached
      exact ⟨kind, ofKind, .inr ⟨live, live⟩⟩

end Coherent

end BlockTree

/-! ## Chains -/

/-- What a generator gives for a slot is what it gives for each member of the
chain alone, joined; and so it is from every member on. -/
structure JoinsSiblings (tree : BlockTree)
    (code? : NodeId → Bool → Option String)
    (slotCode? : NodeId → String → Option String)
    (join : List String → String) (owner : NodeId) (name : String) : Prop where
  slot_eq : ∃ codes,
    (tree.chain owner name).mapM (fun item => code? item true) = some codes ∧
      slotCode? owner name = some (join codes)
  suffix_eq : ∀ {before item after},
    tree.chain owner name = before ++ item :: after →
      ∃ codes,
        (item :: after).mapM (fun item => code? item true) = some codes ∧
          code? item false = some (join codes)

/-- A walk gives nothing for a slot, nor for a member of its chain, and leaves its
state as it is. -/
structure SkipsSiblings {σ : Type} (tree : BlockTree) (walk : Walk σ)
    (owner : NodeId) (name : String) : Prop where
  slot_eq : ∀ state, (slotCode walk tree owner name).run state = some ("", state)
  item_eq : ∀ item ∈ tree.chain owner name, ∀ thisOnly state,
    (walk item thisOnly).run state = some ("", state)

namespace Producer

variable {σ ε : Type} {producer : Producer σ} {tree : BlockTree}
  {rank : NodeId → Nat} {add : σ → ε → σ}

/-- A producer has the same code for a node at every depth that is enough, and
this is the code that the walk gives for the node alone. -/
theorem Codes.and_walk {id : NodeId} {holds : String → Prop}
    {entries : List ε} (codes : producer.Codes tree rank add id holds entries)
    (walk_eq : ∀ {depth}, tree.size < depth + rank id →
      producer.walkWithin tree depth id = producer.walk tree id)
    (state : σ) :
    producer.Codes tree rank add id
      (fun code => holds code ∧
        (producer.walk tree id true).run' state = some code) entries := by
  rcases codes with ⟨kind, ofKind, reached, gives⟩
  refine ⟨kind, ofKind, reached, fun depth enough => ?_⟩
  rcases gives depth enough with ⟨code, said, own⟩
  have deep : tree.size < depth + 1 + rank id := by omega
  have alone := gives_walkWithin_alone ofKind reached own
  rw [walk_eq deep] at alone
  exact ⟨code, ⟨said, congrArg (Option.map Prod.fst) (alone state)⟩, own⟩

theorem Codes.imp {id : NodeId} {holds weaker : String → Prop}
    {entries : List ε} (codes : producer.Codes tree rank add id holds entries)
    (weaken : ∀ code, holds code → weaker code) :
    producer.Codes tree rank add id weaker entries := by
  rcases codes with ⟨kind, ofKind, reached, gives⟩
  refine ⟨kind, ofKind, reached, fun depth enough => ?_⟩
  rcases gives depth enough with ⟨code, said, own⟩
  exact ⟨code, weaken code said, own⟩

/-- The walk along a chain joins the codes that it gives for each member
alone. -/
theorem exists_codes (coherent : tree.Coherent rank)
    (joins : ∀ code, producer.join code "" = code)
    (walk_eq : ∀ {id depth}, tree.IsWalked id → tree.size < depth + rank id →
      producer.walkWithin tree depth id = producer.walk tree id)
    {holds : NodeId → String → Prop} {entries : NodeId → List ε}
    {head : NodeId} {list : List NodeId}
    (follows : tree.Follows (some head) list)
    (walked : ∀ id ∈ list, tree.IsWalked id)
    (codes : ∀ id ∈ list,
      producer.Codes tree rank add id (holds id) (entries id))
    (state : σ) :
    ∃ codes, List.Forall₂ holds list codes ∧
      list.mapM (fun id => (producer.walk tree id true).run' state) =
        some codes ∧
      (producer.walk tree head false).run' state =
        some (codes.foldr producer.join "") := by
  have alone : ∀ id ∈ list, producer.Codes tree rank add id
      (fun code => holds id code ∧
        (producer.walk tree id true).run' state = some code) (entries id) :=
    fun id member => (codes id member).and_walk
      (fun enough => walk_eq (walked id member) enough) state
  have enough : tree.size < 2 * tree.size + 1 + rank head := by omega
  rcases gives_walkWithin coherent joins follows alone head _ rfl enough with
    ⟨texts, all, gives⟩
  refine ⟨texts, all.imp fun _ _ both => both.1, ?_,
    congrArg (Option.map Prod.fst) (gives state)⟩
  clear gives alone codes walked follows
  induction all with
  | nil => rfl
  | cons first others others_ih =>
      rw [List.mapM_cons, first.2, others_ih]
      rfl

/-- The walk over a slot joins the codes of its members if the walks along the
chain do. -/
theorem joinsSiblings (coherent : tree.Coherent rank) {owner : NodeId}
    {name : String} {join : List String → String} (empty : join [] = "")
    {state : σ}
    (chains : ∀ {head list}, tree.Follows (some head) list →
      list <:+ tree.chain owner name →
        ∃ codes,
          list.mapM (fun id => (producer.walk tree id true).run' state) =
              some codes ∧
            (producer.walk tree head false).run' state = some (join codes)) :
    JoinsSiblings tree
      (fun id thisOnly => (producer.walk tree id thisOnly).run' state)
      (fun owner name =>
        (slotCode (producer.walk tree) tree owner name).run' state)
      join owner name where
  slot_eq := by
    have follows := coherent.follows owner name
    unfold slotCode
    cases target : tree.slotTarget owner name with
    | none =>
        rw [coherent.chain_eq_nil_iff.mpr target]
        exact ⟨[], rfl, by rw [empty]; rfl⟩
    | some head =>
        rw [target] at follows
        exact chains follows List.suffix_rfl
  suffix_eq := by
    intro before item after split
    have follows := coherent.follows owner name
    rw [split] at follows
    exact chains follows.suffix ⟨before, split.symm⟩

/-- A walk does not enter what is out of reach of all block creators. -/
theorem skipsSiblings (producer : Producer σ)
    (coherent : tree.Coherent rank) {owner : NodeId} {name : String}
    (unreached : ¬ tree.IsReached owner) :
    SkipsSiblings tree (producer.walk tree) owner name := by
  have skips : ∀ item ∈ tree.chain owner name, ∀ thisOnly,
      producer.walk tree item thisOnly = pure "" := by
    intro item member thisOnly
    rcases coherent.fits member with ⟨kind, ofKind, fits⟩
    have dead : tree.isLive item = false := by
      rw [← Bool.not_eq_true, coherent.isLive_iff member]
      exact unreached
    have other : kind ≠ .blockCreator := by
      rintro rfl
      rw [Kind.fits_blockCreator] at fits
      cases fits
    rw [walk, walkWithin, ofKind]
    exact if_pos ⟨other, dead⟩
  refine ⟨fun state => ?_,
    fun item member thisOnly state => by rw [skips item member]; rfl⟩
  unfold slotCode
  cases target : tree.slotTarget owner name with
  | none => rfl
  | some head =>
      dsimp only
      rw [skips head (coherent.mem_chain_of_slotTarget target)]
      rfl

end Producer

/-! ## Fragments -/

namespace Definition

variable {tree : BlockTree} {rank : NodeId → Nat}

theorem walkWithin_eq_walk (coherent : tree.Coherent rank) {id : NodeId}
    {depth : Nat} (walked : tree.IsWalked id)
    (enough : tree.size < depth + rank id) :
    (producer tree).walkWithin tree depth id = (producer tree).walk tree id :=
  Producer.walkWithin_eq coherent.shares_isWalked coherent coherent
    (producer tree) (producer tree) rfl
    (fun isInside _ _ _ agree =>
      produce_eq coherent.shares_isWalked coherent coherent isInside agree _)
    walked (by omega) enough

/-- The readings of type constraints are not reported. -/
theorem reports_of_isTypeConstraint {id : NodeId} {kind : Kind}
    (ofKind : tree.kind id = some kind)
    (constraint : kind.isTypeConstraint = true) : reports tree id = [] := by
  rw [reports, ofKind]
  cases kind <;> first | rfl | cases constraint

/-- The members of a chain in reach have fragments, and only a type constraint
can have an empty one. -/
theorem codes_member (coherent : tree.Coherent rank) {owner id : NodeId}
    {name : String} (reached : tree.IsReached owner)
    (member : id ∈ tree.chain owner name) :
    (producer tree).Codes tree rank Warning.addTo id
      (fun code => Slot.isType name = false → code ≠ "")
      (reports tree id) := by
  have live : tree.isLive id = true := (coherent.isLive_iff member).mpr reached
  cases typed : Slot.isType name with
  | true =>
      rcases coherent.exists_kind_of_mem_type typed member with
        ⟨kind, ofKind, constraint⟩
      rw [reports_of_isTypeConstraint ofKind constraint]
      exact (codes_constraint coherent ofKind constraint live).imp
        fun _ _ impossible => by cases impossible
  | false =>
      rcases coherent.fits member with ⟨kind, ofKind, fits⟩
      exact (codes_argument coherent ofKind
        (Kind.isArgument_of_fits fits typed) live).imp
        fun _ lays _ => lays.ne_empty

/-- Fragments along a chain are joined by commas: a chain of more than one
member holds no type constraints. -/
theorem foldr_join_eq_joined {codes : List String}
    (plain : codes.length ≤ 1 ∨ ∀ code ∈ codes, code ≠ "") :
    codes.foldr join "" = joined codes := by
  rcases plain with short | nonempty
  · match codes, short with
    | [], _ => rfl
    | [code], _ => simp [join, joined]
  · exact foldr_join nonempty

/-- The generator of definitions joins the fragments of siblings by commas. -/
theorem joinsSiblings (coherent : tree.Coherent rank) {owner : NodeId}
    {name : String} (reached : tree.IsReached owner) :
    JoinsSiblings tree (code? tree) (slotCode? tree) joined owner name := by
  refine Producer.joinsSiblings coherent rfl ?_
  intro head list follows suffix
  have joins : ∀ code, (producer tree).join code "" = code := fun _ => rfl
  have inChain {id : NodeId} (member : id ∈ list) :
      id ∈ tree.chain owner name := suffix.subset member
  rcases Producer.exists_codes coherent joins (walkWithin_eq_walk coherent)
    follows (fun id member => .inr ⟨owner, name, reached, inChain member⟩)
    (fun id member => codes_member coherent reached (inChain member)) [] with
    ⟨codes, nonempty, alone, chain⟩
  refine ⟨codes, alone, chain.trans (congrArg some ?_)⟩
  apply foldr_join_eq_joined
  cases typed : Slot.isType name with
  | true =>
      left
      rw [← nonempty.length_eq]
      exact suffix.length_le.trans (coherent.single typed)
  | false =>
      right
      exact Json.forall_mem_of_forall₂ nonempty.flip
        fun notEmpty => notEmpty typed

end Definition

namespace Glue

variable {tree : BlockTree} {rank : NodeId → Nat}

theorem foldr_join (codes : List String) :
    codes.foldr (producer tree).join "" = String.join codes := by
  induction codes with
  | nil => rfl
  | cons code codes codes_ih =>
      rw [List.foldr_cons, codes_ih, String.join_cons]
      rfl

theorem walkWithin_eq_walk (coherent : tree.Coherent rank) {id : NodeId}
    {depth : Nat} (walked : tree.IsWalked id)
    (enough : tree.size < depth + rank id) :
    (producer tree).walkWithin tree depth id = (producer tree).walk tree id :=
  Producer.walkWithin_eq coherent.shares_isWalked coherent coherent
    (producer tree) (producer tree) rfl
    (fun isInside _ _ _ agree =>
      produce_eq coherent.shares_isWalked coherent coherent isInside agree _)
    walked (by omega) enough

/-- The generator of glue code puts the code of siblings together. -/
theorem joinsSiblings (coherent : tree.Coherent rank) {owner : NodeId}
    {name : String} (reached : tree.IsReached owner) :
    JoinsSiblings tree (code? tree) (slotCode? tree) String.join owner name := by
  refine Producer.joinsSiblings coherent rfl ?_
  intro head list follows suffix
  have joins : ∀ code, (producer tree).join code "" = code :=
    fun code => String.append_empty
  have inChain {id : NodeId} (member : id ∈ list) :
      id ∈ tree.chain owner name := suffix.subset member
  have own : ∀ id ∈ list, (producer tree).Codes tree rank addVariable id
      (fun code => code = statementsOf tree [id])
      (variableOf? tree id).toList := by
    intro id member
    rcases coherent.fits (inChain member) with ⟨kind, ofKind, fits⟩
    refine codes_argument ofKind ?_
      ((coherent.isLive_iff (inChain member)).mpr reached)
    rintro rfl
    rw [Kind.fits_blockCreator] at fits
    cases fits
  rcases Producer.exists_codes coherent joins (walkWithin_eq_walk coherent)
    follows (fun id member => .inr ⟨owner, name, reached, inChain member⟩)
    own {} with ⟨codes, _, alone, chain⟩
  exact ⟨codes, alone, chain.trans (congrArg some (foldr_join codes))⟩

end Glue

namespace Workspace

/-- Whatever edits build a workspace, the members of a chain are all in reach of
a block creator or none is.  In reach, what the generators give for the slot and
from any member on is the codes of the members alone, joined by commas in a
definition and put together in glue code.  Out of reach it is nothing. -/
theorem run_siblings (edits : List Edit) (owner : NodeId) (name : String) :
    let tree := (run edits).tree
    (∀ item ∈ tree.chain owner name,
        tree.isLive item = true ↔ tree.IsReached owner) ∧
      (tree.IsReached owner →
        JoinsSiblings tree (Definition.code? tree) (Definition.slotCode? tree)
            Definition.joined owner name ∧
          JoinsSiblings tree (Glue.code? tree) (Glue.slotCode? tree) String.join
            owner name) ∧
      (¬ tree.IsReached owner →
        SkipsSiblings tree (Definition.walk tree) owner name ∧
          SkipsSiblings tree (Glue.walk tree) owner name) := by
  rcases exists_coherent_run edits with ⟨rank, coherent⟩
  refine ⟨fun item member => coherent.isLive_iff member, ?_, ?_⟩
  · intro reached
    exact ⟨Definition.joinsSiblings coherent reached,
      Glue.joinsSiblings coherent reached⟩
  · intro unreached
    exact ⟨Producer.skipsSiblings (Definition.producer _) coherent unreached,
      Producer.skipsSiblings (Glue.producer _) coherent unreached⟩

/-- Edits that build an input with two fields outside of any block. -/
def looseEdits : List Edit :=
  [.addNode .inputValue, .addNode .textInput, .addNode .textLabel,
    .attach 0 "FIELDS" 1, .attach 0 "FIELDS" 2]

/-- The inputs of a block, and the fields of an input outside. -/
theorem run_siblings_sample :
    ((run sampleEdits).tree.chain 0 "INPUTS" = [1, 5] ∧
      (run sampleEdits).tree.IsReached 0 ∧
      JoinsSiblings (run sampleEdits).tree
        (Definition.code? (run sampleEdits).tree)
        (Definition.slotCode? (run sampleEdits).tree) Definition.joined 0
        "INPUTS") ∧
    ((run looseEdits).tree.chain 0 "FIELDS" = [1, 2] ∧
      ¬ (run looseEdits).tree.IsReached 0 ∧
      SkipsSiblings (run looseEdits).tree
        (Definition.walk (run looseEdits).tree) 0 "FIELDS" ∧
      (run looseEdits).tree.isLive 2 = false) := by
  have inBlock : (run sampleEdits).tree.IsReached 0 := by decide +kernel
  have outside : ¬ (run looseEdits).tree.IsReached 0 := by decide +kernel
  have fields : (run looseEdits).tree.chain 0 "FIELDS" = [1, 2] := by
    decide +kernel
  have inputs := run_siblings sampleEdits 0 "INPUTS"
  have loose := run_siblings looseEdits 0 "FIELDS"
  refine ⟨⟨by decide +kernel, inBlock, (inputs.2.1 inBlock).1⟩,
    ⟨fields, outside, (loose.2.2 outside).1, ?_⟩⟩
  rw [← Bool.not_eq_true, loose.1 2 (by simp [fields])]
  exact outside

end Workspace

end BlockForge
