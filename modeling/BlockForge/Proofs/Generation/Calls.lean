import BlockForge.Generation.Artifact
import BlockForge.Host
import BlockForge.Proofs.Generation.Fragment
import BlockForge.Proofs.Tree.Guarded
import Mathlib.Order.WellFounded

/-!
# Nested calls

On a tree whose links loop, the calls of a generator may nest without end.
`BlockTree.nested` lists the calls that a call makes by itself.  A walk with a
bound on its depth has no result exactly if its calls nest without end, since
there are only two calls for the code of each node.

`Makes` ties the calls to the passes: a pass has a result if the calls that it
makes have one, and only then.  `Producer.makes_walkWithin` is the step for one
level of nesting; `Producer.ends_of_acc` and `Producer.acc_of_ends` go from
there to whole walks, `generation_returns_iff` to what is generated from a tree.
`ListsLinks.not_endless` says that it takes a loop of children for the calls to
nest without end.
-/

namespace BlockForge

/-- A call of a generator. -/
inductive Call where
  /-- For the code of a node and, unless `thisOnly`, of everything chained after
  it. -/
  | code (node : NodeId) (thisOnly : Bool)
  /-- For the list or the number of the nodes below a node. -/
  | below (node : NodeId)
deriving DecidableEq, Repr

/-- The node that a call is for. -/
def Call.node : Call → NodeId
  | .code node _ => node
  | .below node => node

namespace BlockTree

/-- The call for the code of what a slot holds. -/
def headCalls (tree : BlockTree) (node : NodeId) (name : String)
    (thisOnly : Bool) : List Call :=
  (tree.slotTarget node name).toList.map fun head => .code head thisOnly

/-- The calls for the code of an item of a block.  The document leaves out the
code of an input without value that ends the chain; that call makes no other. -/
def itemCalls (tree : BlockTree) (item : NodeId) : List Call :=
  tree.headCalls item Slot.fields false ++ [.code item true]

/-- The calls that the code of a node of a kind takes. -/
def kindCalls (tree : BlockTree) (node : NodeId) : Kind → List Call
  | .blockCreator =>
    (tree.chain node Slot.inputs).flatMap tree.itemCalls ++
      [.below node, .below node]
  | .inputValue | .inputStatement =>
    if tree.hasSlot node Slot.type then tree.headCalls node Slot.type true
    else []
  | .typeGroup =>
    (List.range (Definition.memberCount tree node)).flatMap fun index =>
      tree.headCalls node (Slot.member index) true
  | _ => []

/-- The calls that a call makes by itself. -/
def nested (tree : BlockTree) : Call → List Call
  | .code node thisOnly =>
    match tree.kind node with
    | none => []
    | some kind =>
      if kind ≠ .blockCreator ∧ tree.isLive node = false then []
      else
        tree.kindCalls node kind ++
          if thisOnly then []
          else (tree.nextSibling node).toList.map fun next => .code next false
  | .below node => (tree.children node).map .below

/-- A call is made by another one. -/
def Nests (tree : BlockTree) (inner outer : Call) : Prop :=
  inner ∈ tree.nested outer

instance (tree : BlockTree) (inner outer : Call) :
    Decidable (tree.Nests inner outer) :=
  inferInstanceAs (Decidable (inner ∈ tree.nested outer))

end BlockTree

/-- A pass makes calls: it has a result if each of them has what is enough for
it, and only if each has what is needed for it. -/
def Makes {σ α : Type} (enough needed : Call → Prop) (pass : Pass σ α)
    (calls : List Call) : Prop :=
  ((∀ call ∈ calls, enough call) → ∀ state, (pass.run state).isSome) ∧
    ∀ state, (pass.run state).isSome → ∀ call ∈ calls, needed call

namespace Makes

variable {σ α β ε : Type} {enough needed : Call → Prop}

theorem none_of_ends {pass : Pass σ α}
    (ends : ∀ state, (pass.run state).isSome) : Makes enough needed pass [] :=
  ⟨fun _ => ends, fun _ _ _ member => nomatch member⟩

theorem done (result : α) :
    Makes enough needed (pure result : Pass σ α) [] :=
  none_of_ends fun _ => rfl

theorem of_gives {add : σ → ε → σ} {pass : Pass σ α} {result : α}
    {entries : List ε} (gives : Gives add pass result entries) :
    Makes enough needed pass [] :=
  none_of_ends fun state => by rw [gives state]; rfl

theorem one {pass : Pass σ α} {call : Call}
    (enoughFor : enough call → ∀ state, (pass.run state).isSome)
    (needs : ∀ state, (pass.run state).isSome → needed call) :
    Makes enough needed pass [call] := by
  constructor
  · intro all
    exact enoughFor (all call List.mem_cons_self)
  · intro state ends other member
    rw [List.mem_singleton.mp member]
    exact needs state ends

theorem bind {pass : Pass σ α} {next : α → Pass σ β} {first second : List Call}
    (makes : Makes enough needed pass first)
    (continues : ∀ result, Makes enough needed (next result) second) :
    Makes enough needed (pass >>= next) (first ++ second) := by
  constructor
  · intro all state
    rw [List.forall_mem_append] at all
    rcases Option.isSome_iff_exists.mp (makes.1 all.1 state) with
      ⟨⟨result, between⟩, starts⟩
    rw [StateT.run_bind, starts]
    exact (continues result).1 all.2 between
  · intro state ends
    rw [StateT.run_bind] at ends
    rcases Option.isSome_iff_exists.mp ends with ⟨last, ends⟩
    rcases Option.bind_eq_some_iff.mp ends with
      ⟨⟨result, between⟩, starts, goesOn⟩
    rw [List.forall_mem_append]
    exact ⟨makes.2 state (Option.isSome_iff_exists.mpr ⟨_, starts⟩),
      (continues result).2 between (Option.isSome_iff_exists.mpr ⟨_, goesOn⟩)⟩

/-- A step that only goes on makes no further calls. -/
theorem bind_nil {pass : Pass σ α} {next : α → Pass σ β} {calls : List Call}
    (makes : Makes enough needed pass calls)
    (continues : ∀ result, Makes enough needed (next result) []) :
    Makes enough needed (pass >>= next) calls := by
  simpa using makes.bind continues

theorem mapM {item : α → Pass σ β} {calls : α → List Call}
    (each : ∀ member, Makes enough needed (item member) (calls member))
    (list : List α) :
    Makes enough needed (list.mapM item) (list.flatMap calls) := by
  induction list with
  | nil => exact done []
  | cons head rest rest_ih =>
      rw [List.mapM_cons, List.flatMap_cons]
      exact (each head).bind fun _ => rest_ih.bind_nil fun _ => done _

/-- Calls that are not made need nothing. -/
theorem more {pass : Pass σ α} {calls further : List Call}
    (makes : Makes enough needed pass calls)
    (among : ∀ call ∈ calls, call ∈ further)
    (granted : ∀ call ∈ further, call ∉ calls → needed call) :
    Makes enough needed pass further := by
  constructor
  · intro all
    exact makes.1 fun call member => all call (among call member)
  · intro state ends call member
    by_cases made : call ∈ calls
    · exact makes.2 state ends call made
    · exact granted call member made

theorem slotCode {walk : Walk σ} {tree : BlockTree}
    (walks : ∀ node thisOnly,
      Makes enough needed (walk node thisOnly) [.code node thisOnly])
    (node : NodeId) (name : String) :
    Makes enough needed (slotCode walk tree node name)
      (tree.headCalls node name false) := by
  unfold BlockForge.slotCode BlockTree.headCalls
  cases tree.slotTarget node name with
  | none => exact done ""
  | some head => exact walks head false

end Makes

/-- A walk, and the lists of nodes that go with it, have a result if their own
calls have what is enough, and only if these have what is needed. -/
structure Serves {σ : Type} (tree : BlockTree) (enough needed : Call → Prop)
    (walk : Walk σ) : Prop where
  code : ∀ node thisOnly,
    Makes enough needed (walk node thisOnly) [.code node thisOnly]
  list : ∀ node, Makes enough needed
    (liftM (tree.descendants? node) : Pass σ (List NodeId)) [.below node]
  count : ∀ node, Makes enough needed
    (liftM (tree.descendantCount? node) : Pass σ Nat) [.below node]
  alone : ∀ {call}, tree.nested call = [] → needed call

/-! ## The calls of the generators -/

section

variable {tree : BlockTree} {enough needed : Call → Prop}

namespace Definition

variable {walk : Walk (List Warning)}

theorem nested_elided {item : NodeId} (elided : isElided tree item = true) :
    tree.nested (.code item true) = [] := by
  unfold isElided at elided
  rw [Bool.and_eq_true, decide_eq_true_eq] at elided
  rw [BlockTree.nested, elided.1]
  simp [BlockTree.kindCalls]

theorem makes_itemCodes (serves : Serves tree enough needed walk)
    (item : NodeId) :
    Makes enough needed (itemCodes walk tree item) (tree.itemCalls item) := by
  unfold itemCodes BlockTree.itemCalls
  refine (Makes.slotCode serves.code item Slot.fields).bind fun fields => ?_
  split_ifs with elided
  · apply (Makes.done _).more (fun _ member => nomatch member)
    intro call member _
    rw [List.mem_singleton.mp member]
    exact serves.alone (nested_elided elided)
  · exact (serves.code item true).bind_nil fun _ => Makes.done _

theorem makes_blockCreator (serves : Serves tree enough needed walk)
    (node : NodeId) :
    Makes enough needed (blockCreator walk tree node)
      (tree.kindCalls node .blockCreator) := by
  refine (Makes.mapM (makes_itemCodes serves) _).bind fun codes => ?_
  refine (serves.list node).bind fun nodes => ?_
  refine (serves.count node).bind_nil fun count => ?_
  apply Makes.none_of_ends
  intro state
  dsimp only
  split_ifs <;> rfl

theorem makes_head (serves : Serves tree enough needed walk) (node : NodeId)
    (name : String) :
    Makes enough needed
      (match tree.slotTarget node name with
        | some target => walk target true
        | none => return "")
      (tree.headCalls node name true) := by
  unfold BlockTree.headCalls
  cases tree.slotTarget node name with
  | none => exact Makes.done ""
  | some target => exact serves.code target true

theorem makes_input (serves : Serves tree enough needed walk)
    (jsonType : String) (node : NodeId) :
    Makes enough needed (input jsonType walk tree node)
      (if tree.hasSlot node Slot.type then tree.headCalls node Slot.type true
        else []) := by
  refine Makes.bind_nil ?_ fun _ => Makes.done _
  unfold typeCheck
  split_ifs
  · exact makes_head serves node Slot.type
  · exact Makes.none_of_ends fun _ => rfl

theorem makes_produce (serves : Serves tree enough needed walk) (node : NodeId)
    (kind : Kind) :
    Makes enough needed (produce tree walk node kind)
      (tree.kindCalls node kind) := by
  cases kind with
  | blockCreator => exact makes_blockCreator serves node
  | inputValue => exact makes_input serves "input_value" node
  | inputStatement => exact makes_input serves "input_statement" node
  | numericInput =>
      rcases renders_numericInput tree node with ⟨_, gives, _⟩
      exact .of_gives gives
  | angleInput =>
      exact .of_gives ((gives_numberField tree node _).bind_pure _)
  | fieldDropdown =>
      rcases renders_fieldDropdown tree node with ⟨_, gives, _⟩
      exact .of_gives gives
  | fieldCheckbox =>
      exact .of_gives ((gives_boolField tree node _).bind_pure _)
  | fieldImage =>
      rcases renders_fieldImage tree node with ⟨_, gives, _⟩
      exact .of_gives gives
  | typeGroup =>
      refine (Makes.mapM (fun index => ?_) _).bind_nil fun codes => Makes.done _
      exact makes_head serves node (Slot.member index)
  | _ => exact Makes.done _

end Definition

namespace Glue

variable {walk : Walk State}

/-- The glue code takes no call that the definition does not take. -/
theorem makes_produce (serves : Serves tree enough (fun _ => True) walk)
    (node : NodeId) (kind : Kind) :
    Makes enough (fun _ => True) (produce tree walk node kind)
      (tree.kindCalls node kind) := by
  unfold produce
  split_ifs with creator
  · subst creator
    have items : Makes enough (fun _ => True) (blockCreator walk tree node)
        ((tree.chain node Slot.inputs).flatMap fun item =>
          [.code item true] ++ tree.headCalls item Slot.fields false) := by
      refine (Makes.mapM (fun item => ?_) _).bind_nil fun codes =>
        .none_of_ends fun _ => rfl
      exact (serves.code item true).bind fun own =>
        (Makes.slotCode serves.code item Slot.fields).bind_nil fun _ => .done _
    apply items.more _ fun _ _ _ => trivial
    intro call member
    rw [BlockTree.kindCalls, List.mem_append, List.mem_flatMap]
    rcases List.mem_flatMap.mp member with ⟨item, inChain, made⟩
    exact .inl ⟨item, inChain, List.mem_append.mpr (List.mem_append.mp made).symm⟩
  · have nothing : ∀ {code : Declaring String},
        Makes enough (fun _ => True) code [] →
          Makes enough (fun _ => True) code (tree.kindCalls node kind) :=
      fun alone => alone.more (List.nil_subset _) fun _ _ _ => trivial
    apply nothing
    cases Role.ofKind? kind with
    | none => exact Makes.done ""
    | some role => exact Makes.none_of_ends fun _ => rfl

end Glue

/-- The walk with one more level of depth makes the calls that are nested in a
call. -/
theorem Producer.makes_walkWithin {σ : Type} {producer : Producer σ}
    (produces : ∀ {walk : Walk σ}, Serves tree enough needed walk →
      ∀ node kind, Makes enough needed (producer.produce walk node kind)
        (tree.kindCalls node kind))
    {depth : Nat}
    (serves : Serves tree enough needed (producer.walkWithin tree depth))
    (node : NodeId) (thisOnly : Bool) :
    Makes enough needed (producer.walkWithin tree (depth + 1) node thisOnly)
      (tree.nested (.code node thisOnly)) := by
  rw [walkWithin, BlockTree.nested]
  cases tree.kind node with
  | none => exact Makes.done ""
  | some kind =>
      dsimp only
      by_cases dead : kind ≠ .blockCreator ∧ tree.isLive node = false
      · rw [if_pos dead, if_pos dead]
        exact Makes.done ""
      · rw [if_neg dead, if_neg dead]
        refine (produces serves node kind).bind fun code => ?_
        cases tree.nextSibling node with
        | none =>
            rw [Option.toList_none, List.map_nil, ite_self]
            exact Makes.done code
        | some next =>
            cases thisOnly with
            | true => exact Makes.done code
            | false =>
                exact (serves.code next false).bind_nil fun rest => Makes.done _

end

/-! ## Bounds on the depth -/

section

variable {α : Type} {nests : α → α → Prop}

theorem not_transGen_self {call : α} (ends : Acc nests call) :
    ¬ Relation.TransGen nests call call := by
  intro loop
  exact not_acc_iff_exists_descending_chain.mpr
    ⟨fun _ => call, rfl, fun _ => loop⟩ ends.transGen

/-- Where calls do not nest without end, they nest at most one deeper than
there are calls that make others: otherwise one of them would come up again
inside itself. -/
theorem holds_of_acc (holds : Nat → α → Prop) {busy : List α}
    (isBusy : ∀ {inner outer}, nests inner outer → outer ∈ busy)
    (step : ∀ {depth outer}, (∀ inner, nests inner outer → holds depth inner) →
      holds (depth + 1) outer)
    {call : α} (ends : Acc nests call) : holds (busy.length + 1) call := by
  -- The calls above the current one are distinct, so the depth cannot run out.
  suffices inside : ∀ depth above call, Acc nests call → above.Nodup →
      above ⊆ busy → (∀ outer ∈ above, Relation.TransGen nests call outer) →
        busy.length < depth + above.length → holds depth call from
    inside _ [] call ends List.nodup_nil (List.nil_subset _)
      (fun _ member => nomatch member) (by simp)
  intro depth
  induction depth with
  | zero =>
      intro above call _ distinct among _ enough
      have atMost := (distinct.subperm among).length_le
      omega
  | succ depth depth_ih =>
      intro above call ends distinct among outside enough
      apply step
      intro inner nested
      apply depth_ih (call :: above) inner (ends.inv nested)
      · rw [List.nodup_cons]
        exact ⟨fun again => not_transGen_self ends (outside call again), distinct⟩
      · rw [List.cons_subset]
        exact ⟨isBusy nested, among⟩
      · rw [List.forall_mem_cons]
        exact ⟨.single nested, fun outer member => (outside outer member).head nested⟩
      · rw [List.length_cons]
        omega

end

/-! ## Results -/

theorem isSome_mapM {α β : Type} {partially : α → Option β} {list : List α} :
    (list.mapM partially).isSome ↔ ∀ item ∈ list, (partially item).isSome := by
  induction list with
  | nil => simp
  | cons head rest rest_ih =>
      rw [List.mapM_cons, List.forall_mem_cons, ← rest_ih]
      cases partially head with
      | none => simp
      | some first => cases rest.mapM partially <;> simp

namespace BlockTree

variable {tree : BlockTree}

theorem nests_below {inner : Call} {node : NodeId} :
    tree.Nests inner (.below node) ↔
      ∃ child ∈ tree.children node, .below child = inner :=
  List.mem_map

theorem isSome_descendantsWithin_succ {depth : Nat} {node : NodeId} :
    (tree.descendantsWithin (depth + 1) node).isSome ↔
      ∀ child ∈ tree.children node, (tree.descendantsWithin depth child).isSome := by
  rw [descendantsWithin, ← isSome_mapM]
  cases (tree.children node).mapM (tree.descendantsWithin depth) <;> simp

/-- Calls for an id that belongs to no node make no calls. -/
theorem nested_eq_nil {call : Call} (outside : tree.size ≤ call.node) :
    tree.nested call = [] := by
  rcases tree.absent call.node outside with ⟨noKind, noChildren, _, _⟩
  cases call with
  | code node thisOnly => rw [nested, show tree.kind node = none from noKind]
  | below node =>
      rw [nested, show tree.children node = [] from noChildren, List.map_nil]

theorem Nests.lt_size {inner outer : Call} (nests : tree.Nests inner outer) :
    outer.node < tree.size := by
  by_contra outside
  rw [Nests, nested_eq_nil (Nat.le_of_not_lt outside)] at nests
  cases nests

/-- The nodes below a node are listed exactly if the calls for them end. -/
theorem isSome_descendants? {node : NodeId} :
    (tree.descendants? node).isSome ↔ Acc tree.Nests (.below node) := by
  constructor
  · suffices within : ∀ depth node, (tree.descendantsWithin depth node).isSome →
        Acc tree.Nests (.below node) from within _ node
    intro depth
    induction depth with
    | zero => exact fun node ends => nomatch ends
    | succ depth depth_ih =>
        intro node ends
        constructor
        intro inner nested
        rcases nests_below.mp nested with ⟨child, member, rfl⟩
        exact depth_ih child (isSome_descendantsWithin_succ.mp ends child member)
  · intro ends
    have isBusy : ∀ {inner outer}, InvImage tree.Nests .below inner outer →
        outer ∈ List.range tree.size :=
      fun nests => List.mem_range.mpr (Nests.lt_size nests)
    have bound := holds_of_acc
      (fun depth node => (tree.descendantsWithin depth node).isSome) isBusy
      (fun ends => isSome_descendantsWithin_succ.mpr fun child member =>
        ends child (nests_below.mpr ⟨child, member, rfl⟩))
      (InvImage.accessible Call.below ends)
    rwa [List.length_range] at bound

theorem isSome_descendantCount? {node : NodeId} :
    (tree.descendantCount? node).isSome ↔ Acc tree.Nests (.below node) := by
  rw [descendantCount?, countWithin_eq, Option.isSome_map, ← isSome_descendants?]
  rfl

end BlockTree

section

variable {σ : Type} {tree : BlockTree}

/-- A pass that takes a list of nodes, or their number, makes one call. -/
theorem Makes.below {α : Type} {enough needed : Call → Prop} {node : NodeId}
    {value : Option α} (ends : value.isSome ↔ Acc tree.Nests (.below node))
    (enoughFor : enough (.below node) → Acc tree.Nests (.below node))
    (needs : Acc tree.Nests (.below node) → needed (.below node)) :
    Makes enough needed (liftM value : Pass σ α) [.below node] := by
  have run : ∀ state, ((liftM value : Pass σ α).run state).isSome =
      value.isSome := by
    intro state
    cases value <;> rfl
  apply Makes.one
  · intro isEnough state
    rw [run]
    exact ends.mpr (enoughFor isEnough)
  · intro state ended
    rw [run] at ended
    exact needs (ends.mp ended)

/-- What is enough for a call in the walk of a depth. -/
def Producer.Ready (producer : Producer σ) (tree : BlockTree) (depth : Nat) :
    Call → Prop
  | .code node thisOnly =>
    ∀ state, ((producer.walkWithin tree depth node thisOnly).run state).isSome
  | .below node => Acc tree.Nests (.below node)

theorem Producer.serves_ready (producer : Producer σ) (tree : BlockTree)
    (depth : Nat) :
    Serves tree (producer.Ready tree depth) (fun _ => True)
      (producer.walkWithin tree depth) where
  code := fun _ _ => Makes.one (fun ready => ready) fun _ _ => trivial
  list := fun _ => .below BlockTree.isSome_descendants? (fun ready => ready)
    fun _ => trivial
  count := fun _ => .below BlockTree.isSome_descendantCount?
    (fun ready => ready) fun _ => trivial
  alone := fun _ => trivial

/-- Where the calls for the code of a node do not nest without end, the walk has
a result. -/
theorem Producer.ends_of_acc (producer : Producer σ)
    (produces : ∀ {enough : Call → Prop} {walk : Walk σ},
      Serves tree enough (fun _ => True) walk → ∀ node kind,
        Makes enough (fun _ => True) (producer.produce walk node kind)
          (tree.kindCalls node kind))
    {node : NodeId} {thisOnly : Bool}
    (ends : Acc tree.Nests (.code node thisOnly)) (state : σ) :
    ((producer.walk tree node thisOnly).run state).isSome := by
  let call : NodeId × Bool → Call := fun place => .code place.1 place.2
  have isBusy : ∀ {inner outer}, InvImage tree.Nests call inner outer →
      outer ∈ List.range tree.size ×ˢ [true, false] := by
    intro inner outer nests
    rw [List.mem_product, List.mem_range]
    exact ⟨BlockTree.Nests.lt_size nests, by simp⟩
  have step : ∀ {depth outer},
      (∀ inner, InvImage tree.Nests call inner outer →
        Acc tree.Nests (call inner) → producer.Ready tree depth (call inner)) →
      Acc tree.Nests (call outer) →
        producer.Ready tree (depth + 1) (call outer) := by
    intro depth outer ready ends
    have makes := producer.makes_walkWithin produces
      (producer.serves_ready tree depth) outer.1 outer.2
    apply makes.1
    intro inner nested
    cases inner with
    | code node thisOnly => exact ready (node, thisOnly) nested (ends.inv nested)
    | below node => exact ends.inv nested
  have bound := holds_of_acc
    (fun depth place => Acc tree.Nests (call place) →
      producer.Ready tree depth (call place))
    isBusy step (InvImage.accessible call (a := (node, thisOnly)) ends) ends state
  rwa [List.length_product, List.length_range, Nat.mul_comm] at bound

/-- Where the walk of any depth has a result, the calls for the code of the node
do not nest without end. -/
theorem Producer.acc_of_ends (producer : Producer σ)
    (produces : ∀ {walk : Walk σ},
      Serves tree (fun _ => False) (Acc tree.Nests) walk → ∀ node kind,
        Makes (fun _ => False) (Acc tree.Nests)
          (producer.produce walk node kind) (tree.kindCalls node kind))
    {depth : Nat} :
    ∀ {node thisOnly state},
      ((producer.walkWithin tree depth node thisOnly).run state).isSome →
        Acc tree.Nests (.code node thisOnly) := by
  induction depth with
  | zero => exact fun ended => nomatch ended
  | succ depth depth_ih =>
      intro node thisOnly state ended
      have serves : Serves tree (fun _ => False) (Acc tree.Nests)
          (producer.walkWithin tree depth) :=
        { code := fun _ _ => .one (fun never => never.elim) fun _ => depth_ih
          list := fun _ => .below BlockTree.isSome_descendants? False.elim id
          count := fun _ =>
            .below BlockTree.isSome_descendantCount? False.elim id
          alone := by
            intro call none
            constructor
            intro inner nested
            rw [BlockTree.Nests, none] at nested
            cases nested }
      constructor
      intro inner nested
      exact (producer.makes_walkWithin produces serves node thisOnly).2 state ended
        inner nested

end

namespace BlockTree

variable {tree : BlockTree}

/-- A block is generated exactly if the calls for its code do not nest without
end. -/
theorem isSome_generateAt? {root : NodeId} :
    (tree.generateAt? root).isSome ↔ Acc tree.Nests (.code root true) := by
  have glues : Acc tree.Nests (.code root true) →
      (Glue.withWarnings? tree root).isSome := by
    intro ends
    rw [Glue.withWarnings?, Option.isSome_map]
    exact (Glue.producer tree).ends_of_acc Glue.makes_produce ends {}
  have defines : (Definition.generate? tree root).isSome ↔
      Acc tree.Nests (.code root true) := by
    rw [Definition.generate?, Option.isSome_map]
    exact ⟨(Definition.producer tree).acc_of_ends Definition.makes_produce,
      fun ends =>
        (Definition.producer tree).ends_of_acc Definition.makes_produce ends []⟩
  rw [← defines] at glues ⊢
  unfold generateAt?
  cases defined : Definition.generate? tree root with
  | none => rfl
  | some definition =>
      rcases Option.isSome_iff_exists.mp (glues (defined ▸ rfl)) with ⟨glue, glued⟩
      rw [glued]
      rfl

/-- The calls for the block of the first root nest without end. -/
def Endless (tree : BlockTree) : Prop :=
  ∃ root ∈ tree.roots.head?, ∃ calls : Nat → Call, calls 0 = .code root true ∧
    ∀ depth, tree.Nests (calls (depth + 1)) (calls depth)

theorem isSome_generate? : tree.generate?.isSome ↔ ¬ tree.Endless := by
  unfold generate? Endless
  cases tree.roots with
  | nil => simp
  | cons root others =>
      rw [List.head?_cons]
      simp only [Option.mem_some, exists_eq_left',
        ← not_acc_iff_exists_descending_chain, not_not, ← isSome_generateAt?]
      cases tree.generateAt? root <;> rfl

/-! ## Trees without loops -/

/-- The children of a node are what the documentation of a tree says: all that
its slots and its sibling link lead to is among them. -/
structure ListsLinks (tree : BlockTree) : Prop where
  target : ∀ {node name target}, tree.slotTarget node name = some target →
    target ∈ tree.children node
  next : ∀ {node next}, tree.nextSibling node = some next →
    next ∈ tree.children node

/-- One node is a child of another. -/
def IsChild (tree : BlockTree) (child node : NodeId) : Prop :=
  child ∈ tree.children node

theorem mem_headCalls {call : Call} {node : NodeId} {name : String}
    {thisOnly : Bool} : call ∈ tree.headCalls node name thisOnly ↔
      ∃ head, tree.slotTarget node name = some head ∧
        .code head thisOnly = call := by
  simp [headCalls]

theorem ListsLinks.transGen_of_hop (lists : tree.ListsLinks) {node : NodeId}
    {count : Nat} :
    ∀ {place target}, (∀ head ∈ place, Relation.TransGen tree.IsChild head node) →
      hop tree.nextSibling count place = some target →
        Relation.TransGen tree.IsChild target node := by
  induction count with
  | zero =>
      rintro place target below ⟨⟩
      exact below target rfl
  | succ count count_ih =>
      intro place target below leads
      cases place with
      | none => cases hop_none.symm.trans leads
      | some head =>
          refine @count_ih (tree.nextSibling head) target ?_ leads
          intro next follows
          exact (below head rfl).head (lists.next follows)

theorem ListsLinks.transGen_of_mem_chain (lists : tree.ListsLinks)
    {node item : NodeId} {name : String} (member : item ∈ tree.chain node name) :
    Relation.TransGen tree.IsChild item node := by
  rcases exists_chain_eq_trail node name with ⟨count, same⟩
  rw [same, mem_trail] at member
  rcases member with ⟨steps, _, leads⟩
  exact lists.transGen_of_hop (fun head hangs => .single (lists.target hangs)) leads

/-- A call for the code of a node below another one. -/
def CodeBelow (tree : BlockTree) (node : NodeId) (call : Call) : Prop :=
  ∃ target thisOnly, call = .code target thisOnly ∧
    Relation.TransGen tree.IsChild target node

theorem ListsLinks.codeBelow_of_mem_headCalls (lists : tree.ListsLinks)
    {call : Call} {owner node : NodeId} {name : String} {thisOnly : Bool}
    (member : call ∈ tree.headCalls owner name thisOnly)
    (within : Relation.ReflTransGen tree.IsChild owner node) :
    tree.CodeBelow node call := by
  rcases mem_headCalls.mp member with ⟨head, hangs, rfl⟩
  exact ⟨head, thisOnly, rfl, .head' (lists.target hangs) within⟩

theorem ListsLinks.below_of_mem_kindCalls (lists : tree.ListsLinks) {call : Call}
    {node : NodeId} {kind : Kind} (member : call ∈ tree.kindCalls node kind) :
    call = .below node ∨ tree.CodeBelow node call := by
  unfold kindCalls at member
  split at member
  · rw [List.mem_append, List.mem_flatMap] at member
    rcases member with ⟨item, inChain, made⟩ | below
    · have under := lists.transGen_of_mem_chain inChain
      rcases List.mem_append.mp made with field | own
      · exact .inr (lists.codeBelow_of_mem_headCalls field under.to_reflTransGen)
      · exact .inr ⟨item, true, List.mem_singleton.mp own, under⟩
    · simp only [List.mem_cons, List.not_mem_nil, or_false, or_self] at below
      exact .inl below
  · split_ifs at member
    · exact .inr (lists.codeBelow_of_mem_headCalls member .refl)
    · cases member
  · split_ifs at member
    · exact .inr (lists.codeBelow_of_mem_headCalls member .refl)
    · cases member
  · rcases List.mem_flatMap.mp member with ⟨index, _, made⟩
    exact .inr (lists.codeBelow_of_mem_headCalls made .refl)
  · cases member

theorem ListsLinks.below_of_nests (lists : tree.ListsLinks) {inner : Call}
    {node : NodeId} {thisOnly : Bool}
    (nests : tree.Nests inner (.code node thisOnly)) :
    inner = .below node ∨ tree.CodeBelow node inner := by
  unfold Nests nested at nests
  dsimp only at nests
  split at nests
  · cases nests
  · split_ifs at nests
    · cases nests
    · exact lists.below_of_mem_kindCalls (List.append_nil _ ▸ nests)
    · rcases List.mem_append.mp nests with own | sibling
      · exact lists.below_of_mem_kindCalls own
      · rcases List.mem_map.mp sibling with ⟨next, follows, rfl⟩
        exact .inr ⟨next, false, rfl,
          .single (lists.next (Option.mem_toList.mp follows))⟩

theorem acc_below {node : NodeId} (ends : Acc tree.IsChild node) :
    Acc tree.Nests (.below node) := by
  induction ends with
  | intro node _ node_ih =>
      constructor
      intro inner nests
      rcases nests_below.mp nests with ⟨child, member, rfl⟩
      exact node_ih child member

theorem ListsLinks.acc_code (lists : tree.ListsLinks) {node : NodeId}
    (ends : Acc tree.IsChild node) :
    ∀ thisOnly, Acc tree.Nests (.code node thisOnly) := by
  have order := ends.transGen
  clear ends
  induction order with
  | intro node below node_ih =>
      intro thisOnly
      constructor
      intro inner nests
      rcases lists.below_of_nests nests with rfl | ⟨target, only, rfl, under⟩
      · exact acc_below
          (Subrelation.accessible (fun child => .single child) (.intro node below))
      · exact node_ih target under only

/-- Only a loop of children lets the calls nest without end. -/
theorem ListsLinks.not_endless (lists : tree.ListsLinks)
    (ends : ∀ root ∈ tree.roots.head?, Acc tree.IsChild root) :
    ¬ tree.Endless := by
  rintro ⟨root, first, endless⟩
  exact not_acc_iff_exists_descending_chain.mpr endless
    (lists.acc_code (ends root first) true)

/-! ## The trees on which generation ends -/

theorem eq_noRoot {problem : Problem}
    (failed : tree.generate? = some (.error problem)) : problem = .noRoot := by
  unfold generate? at failed
  split at failed
  · cases failed
    rfl
  · rcases Option.bind_eq_some_iff.mp failed with ⟨generated, _, returned⟩
    cases returned

/-- Generation has a result, or tells that there is no root, exactly if its
calls do not nest without end. -/
theorem generation_returns_iff (tree : BlockTree) :
    ((∃ generated, tree.generate? = some (.ok generated)) ∨
        tree.generate? = some (.error .noRoot)) ↔
      ¬ tree.Endless := by
  rw [← isSome_generate?]
  constructor
  · rintro (⟨generated, returned⟩ | returned) <;> rw [returned] <;> rfl
  · intro ended
    rcases Option.isSome_iff_exists.mp ended with ⟨result, returned⟩
    cases result with
    | ok generated => exact .inl ⟨generated, returned⟩
    | error problem =>
        obtain rfl := eq_noRoot returned
        exact .inr returned

end BlockTree

namespace HostTree

/-- A block with one field, whose sibling link leads back to itself. -/
def selfFollowing : HostTree where
  top := [0]
  nodes :=
    #[{ kind := some .blockCreator
        fields := [(FieldKey.blockName, .text "l")]
        defaults := false
        mutation := none
        slots := [(Slot.inputs, some 1)]
        next := none
        parent := none
        children := none },
      { kind := some .textInput
        fields := [(FieldKey.fieldName, .text "A")]
        defaults := false
        mutation := none
        slots := []
        next := some 1
        parent := some 0
        children := none }]

theorem endless_selfFollowing : selfFollowing.tree.Endless := by
  refine ⟨0, by decide +kernel, fun depth => match depth with
    | 0 => .code 0 true
    | 1 => .below 0
    | _ + 2 => .below 1, rfl, fun depth => ?_⟩
  match depth with
  | 0 => decide +kernel
  | 1 => decide +kernel
  | _ + 2 => exact (by decide +kernel : selfFollowing.tree.Nests (.below 1) (.below 1))

/-- The guard cuts the chain of the block, but the list of the nodes below it
has no guard, so that generation does not end. -/
theorem selfFollowing_generates_nothing :
    selfFollowing.tree.roots = [0] ∧
      selfFollowing.tree.chain 0 Slot.inputs = [1] ∧
      selfFollowing.tree.generate? = none ∧ selfFollowing.tree.Endless := by
  refine ⟨by decide +kernel, by decide +kernel, ?_, endless_selfFollowing⟩
  rw [← Option.not_isSome_iff_eq_none, BlockTree.isSome_generate?, not_not]
  exact endless_selfFollowing

end HostTree

end BlockForge
