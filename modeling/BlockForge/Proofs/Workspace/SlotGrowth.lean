import BlockForge.Proofs.Workspace.Placement
import Mathlib.Order.Bounds.Basic

/-!
# The growth of slots

The slots of a node are those of its kind and the first member slots, as many as
the greatest number of members that the node was ever given.  No edit takes a
slot away, and none takes away what hangs in it.

`Arranged.exists_growsTo` is the step, and `run_slots_grow` lists what it means
for a whole run.
-/

namespace BlockForge

/-- The number of members that an edit asks for a node. -/
def Edit.memberCount (id : NodeId) : Edit → Nat
  | .setMutation node (.typeGroup count) => if node = id then count else 0
  | _ => 0

theorem Edit.eq_setMutation_of_memberCount {edit : Edit} {id : NodeId}
    (asks : 0 < edit.memberCount id) :
    edit = .setMutation id (.typeGroup (edit.memberCount id)) := by
  cases edit with
  | setMutation node mutation =>
      cases mutation with
      | dropdown _ => cases asks
      | typeGroup count =>
          simp only [memberCount] at asks ⊢
          split_ifs at asks ⊢ with same
          · rw [same]
          · cases asks
  | addNode | setField | attach => cases asks

namespace Node

/-- The members below the number to which slots have grown are there. -/
theorem any_growSlots (slots : List Slot) {index count : Nat}
    (below : index < count) :
    (growSlots slots count).any
      (fun slot => slot.name = Slot.member index) = true := by
  induction count with
  | zero => exact absurd below (Nat.not_lt_zero _)
  | succ count count_ih =>
      rw [growSlots_succ]
      rcases Nat.lt_succ_iff_lt_or_eq.mp below with earlier | rfl
      · split_ifs
        · exact count_ih earlier
        · rw [List.any_append, count_ih earlier, Bool.true_or]
      · split_ifs with present
        · exact present
        · simp

/-- Slots that grow twice have grown to the greater number of members. -/
theorem growSlots_growSlots (slots : List Slot) (first second : Nat) :
    growSlots (growSlots slots first) second =
      growSlots slots (max first second) := by
  induction second with
  | zero => simp [growSlots]
  | succ second second_ih =>
      rw [growSlots_succ, second_ih]
      rcases Nat.lt_or_ge second first with below | above
      · rw [max_eq_left below.le, max_eq_left (by omega),
          if_pos (any_growSlots slots below)]
      · rw [max_eq_right above, max_eq_right (by omega), growSlots_succ]

/-- It does not matter in which order slots grow. -/
theorem growSlots_comm (slots : List Slot) (first second : Nat) :
    growSlots (growSlots slots first) second =
      growSlots (growSlots slots second) first := by
  rw [growSlots_growSlots, growSlots_growSlots, max_comm]

end Node

/-- A node after an edit that asks for a number of members. -/
structure Node.GrowsTo (node grown : Node) (count : Nat) : Prop where
  kind_eq : grown.kind = node.kind
  names_eq : grown.slots.map Slot.name =
    (growSlots node.slots count).map Slot.name
  target_eq : ∀ {name target}, node.target? name = some target →
    grown.target? name = some target

theorem Node.GrowsTo.refl (node : Node) : node.GrowsTo node 0 where
  kind_eq := rfl
  names_eq := rfl
  target_eq := fun hangs => hangs

theorem Node.growsTo_setMutation (node : Node) (id : NodeId)
    (mutation : Mutation) :
    node.GrowsTo (node.setMutation mutation)
      (Edit.memberCount id (.setMutation id mutation)) where
  kind_eq := rfl
  names_eq := by
    cases mutation with
    | dropdown _ => rfl
    | typeGroup count => simp [Edit.memberCount, setMutation]
  target_eq := fun hangs => (target?_setMutation ..).trans hangs

namespace Workspace

theorem after_setField (workspace : Workspace) (id : NodeId) (key : String)
    (value : FieldValue) :
    workspace.after (.setField id key value) =
      workspace.modify id fun node =>
        { node with fields := node.fields.insert key value } := by
  simp only [after, perform, setField, update]
  split_ifs with inside
  · rfl
  · exact (modify_of_size_le (not_lt.mp inside) _).symm

theorem after_setMutation (workspace : Workspace) (id : NodeId)
    (mutation : Mutation) :
    workspace.after (.setMutation id mutation) =
      workspace.modify id (Node.setMutation mutation) := by
  simp only [after, perform, setMutation, update]
  split_ifs with inside
  · rfl
  · exact (modify_of_size_le (not_lt.mp inside) _).symm

/-- A chain that is extended keeps its head. -/
theorem head?_extend {chains : NodeId → String → List NodeId}
    {parent child id head : NodeId} {name slot : String}
    (isHead : (chains id slot).head? = some head) :
    (extend chains parent name child id slot).head? = some head := by
  unfold extend
  split_ifs with here
  · rw [← here.1, ← here.2, List.head?_append, isHead]
    rfl
  · exact isHead

section

variable {workspace : Workspace} {chains : NodeId → String → List NodeId}
  {order : NodeId → Nat}

/-- An edit keeps a node, and its slots grow if the edit asks for it. -/
theorem Arranged.exists_growsTo (arranged : workspace.Arranged chains order)
    (edit : Edit) {id : NodeId} {node : Node}
    (found : workspace.node? id = some node) :
    ∃ grown, (workspace.after edit).node? id = some grown ∧
      node.GrowsTo grown (edit.memberCount id) := by
  cases edit with
  | addNode kind =>
      refine ⟨node, ?_, .refl node⟩
      rw [after, perform, node?_addNode, if_neg (lt_size_of_node? found).ne]
      exact found
  | setField subject key value =>
      rw [after_setField, node?_modify, found]
      refine ⟨_, rfl, ?_⟩
      split_ifs
      · exact ⟨rfl, rfl, fun hangs => hangs⟩
      · exact .refl node
  | setMutation subject mutation =>
      rw [after_setMutation, node?_modify, found]
      refine ⟨_, rfl, ?_⟩
      split_ifs with same
      · rw [same]
        exact node.growsTo_setMutation subject mutation
      · have nothing :
            Edit.memberCount id (.setMutation subject mutation) = 0 := by
          cases mutation <;> simp [Edit.memberCount, Ne.symm same]
        rw [nothing]
        exact .refl node
  | attach parent name child =>
      unfold after
      cases performed : workspace.perform (.attach parent name child) with
      | error _ => exact ⟨node, found, .refl node⟩
      | ok edited =>
          rcases attachable_of_attach arranged performed with
            ⟨attachable, equal⟩
          rcases attachable.free with ⟨_, foundChild, free, _⟩
          have target_eq := arranged.target?_link attachable id
          rw [← equal] at target_eq
          have renewed : edited.node? id = some (node.relink parent name
              (chains parent name).getLast? child id) := by
            rw [equal, arranged.target_eq, arranged.node?_link foundChild free,
              found, Option.map_some]
          refine ⟨_, renewed, rfl, Node.map_name_relink .., ?_⟩
          intro slot target hangs
          have head : (chains id slot).head? = some target := by
            rw [← arranged.target_eq, Workspace.target?, found]
            exact hangs
          have first := target_eq slot
          rw [Workspace.target?, renewed, Option.bind_some] at first
          rw [first, head?_extend head]

/-- A node that an edit adds is a new one of a kind. -/
theorem Arranged.eq_ofKind_of_after
    (arranged : workspace.Arranged chains order) {edit : Edit} {id : NodeId}
    {node : Node} (outside : workspace.size ≤ id)
    (found : (workspace.after edit).node? id = some node) :
    ∃ kind, edit = .addNode kind ∧ node = Node.ofKind id kind := by
  have absent : workspace.node? id = none := node?_eq_none outside
  cases edit with
  | addNode kind =>
      rw [after, perform, node?_addNode] at found
      split_ifs at found
      · exact ⟨kind, rfl, (Option.some.inj found).symm⟩
      · cases absent.symm.trans found
  | setField subject key value =>
      rw [after_setField, node?_modify, absent] at found
      cases found
  | setMutation subject mutation =>
      rw [after_setMutation, node?_modify, absent] at found
      cases found
  | attach parent name child =>
      unfold after at found
      cases performed : workspace.perform (.attach parent name child) with
      | error _ =>
          rw [performed] at found
          cases absent.symm.trans found
      | ok edited =>
          rw [performed] at found
          have inside := lt_size_of_node? found
          rw [(attachable_of_attach arranged performed).2, size_link] at inside
          exact absurd inside (not_lt.mpr outside)

theorem Arranged.size_le_after (arranged : workspace.Arranged chains order)
    (edit : Edit) : workspace.size ≤ (workspace.after edit).size := by
  by_contra less
  rcases exists_node? (not_le.mp less) with ⟨node, found⟩
  rcases arranged.exists_growsTo edit found with ⟨_, foundAfter, _⟩
  exact absurd (lt_size_of_node? foundAfter) (lt_irrefl _)

/-- What hangs first in a slot stays there. -/
theorem Arranged.target?_after (arranged : workspace.Arranged chains order)
    {id target : NodeId} {name : String}
    (hangs : workspace.target? id name = some target) (edit : Edit) :
    (workspace.after edit).target? id name = some target := by
  rcases Option.bind_eq_some_iff.mp hangs with ⟨node, found, occupied⟩
  rcases arranged.exists_growsTo edit found with ⟨grown, foundAfter, grows⟩
  rw [Workspace.target?, foundAfter]
  exact grows.target_eq occupied

theorem Arranged.target?_afterAll {edits : List Edit} :
    ∀ {workspace : Workspace} {chains order},
      workspace.Arranged chains order →
        ∀ {id target name}, workspace.target? id name = some target →
          (workspace.afterAll edits).target? id name = some target := by
  unfold afterAll
  induction edits with
  | nil => exact fun _ _ _ _ hangs => hangs
  | cons edit edits edits_ih =>
      intro workspace chains order arranged id target name hangs
      rcases exists_arranged_after arranged edit with ⟨_, _, next⟩
      exact edits_ih next (arranged.target?_after hangs edit)

end

/-! ## Runs -/

/-- A number of members was given to a node: the node was there to take it. -/
def GivenMembers (edits : List Edit) (id : NodeId) (count : Nat) : Prop :=
  ∃ before after,
    edits = before ++ .setMutation id (.typeGroup count) :: after ∧
      id < (run before).size

theorem run_concat (edits : List Edit) (edit : Edit) :
    run (edits ++ [edit]) = (run edits).after edit :=
  run_append edits [edit]

theorem givenMembers_concat {edits : List Edit} {edit : Edit} {id : NodeId}
    {count : Nat} :
    GivenMembers (edits ++ [edit]) id count ↔
      GivenMembers edits id count ∨
        (edit = .setMutation id (.typeGroup count) ∧ id < (run edits).size) := by
  constructor
  · rintro ⟨before, after, split, inside⟩
    rcases List.eq_nil_or_concat after with rfl | ⟨middle, last, rfl⟩
    · have ends := List.append_inj' split rfl
      rw [← ends.1] at inside
      exact .inr ⟨List.singleton_injective ends.2, inside⟩
    · rw [List.concat_eq_append, ← List.cons_append,
        ← List.append_assoc] at split
      exact .inl ⟨before, middle, (List.append_inj' split rfl).1, inside⟩
  · rintro (⟨before, after, rfl, inside⟩ | ⟨rfl, inside⟩)
    · exact ⟨before, after ++ [edit], by simp, inside⟩
    · exact ⟨edits, [], rfl, inside⟩

theorem lt_size_of_givenMembers {edits : List Edit} {id : NodeId}
    {count : Nat} (given : GivenMembers edits id count) :
    id < (run edits).size := by
  induction edits using List.reverseRecOn with
  | nil =>
      rcases given with ⟨before, after, split, _⟩
      simp at split
  | append_singleton edits edit edits_ih =>
      rcases exists_arranged_run edits with ⟨_, arranged, _⟩
      have larger := arranged.size_le_after edit
      rw [run_concat]
      rcases givenMembers_concat.mp given with earlier | ⟨_, inside⟩
      · exact (edits_ih earlier).trans_le larger
      · exact inside.trans_le larger

/-- The greatest number of members that a node was given; zero if none was. -/
abbrev MostMembers (edits : List Edit) (id : NodeId) (members : Nat) : Prop :=
  IsGreatest {count | count = 0 ∨ GivenMembers edits id count} members

theorem MostMembers.concat {edits : List Edit} {id : NodeId} {members : Nat}
    (most : MostMembers edits id members) (edit : Edit)
    (inside : id < (run edits).size) :
    MostMembers (edits ++ [edit]) id (max members (edit.memberCount id)) := by
  constructor
  · rcases Nat.lt_or_ge members (edit.memberCount id) with less | more
    · rw [max_eq_right less.le]
      exact .inr (givenMembers_concat.mpr
        (.inr ⟨Edit.eq_setMutation_of_memberCount (by omega), inside⟩))
    · rw [max_eq_left more]
      exact most.1.imp_right fun given => givenMembers_concat.mpr (.inl given)
  · rintro count (rfl | given)
    · exact Nat.zero_le _
    · rcases givenMembers_concat.mp given with earlier | ⟨rfl, _⟩
      · exact (most.2 (.inr earlier)).trans (le_max_left _ _)
      · exact le_max_of_le_right (by simp [Edit.memberCount])

/-- The slots of a node are those of its kind and as many members as it was ever
given. -/
theorem exists_mostMembers_run (edits : List Edit) :
    ∀ {id node}, (run edits).node? id = some node →
      ∃ members, MostMembers edits id members ∧
        node.slots.map Slot.name = node.kind.slotsWith members := by
  induction edits using List.reverseRecOn with
  | nil =>
      intro id node found
      cases (node?_empty id).symm.trans found
  | append_singleton edits edit edits_ih =>
      intro id node found
      rcases exists_arranged_run edits with ⟨_, arranged, _⟩
      rw [run_concat] at found
      rcases Nat.lt_or_ge id (run edits).size with inside | outside
      · rcases exists_node? inside with ⟨before, old⟩
        rcases edits_ih old with ⟨members, most, names⟩
        rcases arranged.exists_growsTo edit old with ⟨grown, foundGrown, grows⟩
        cases found.symm.trans foundGrown
        refine ⟨_, most.concat edit inside, ?_⟩
        rw [grows.names_eq, grows.kind_eq]
        exact Node.map_name_growSlots names _
      · rcases arranged.eq_ofKind_of_after outside found with ⟨kind, rfl, rfl⟩
        refine ⟨0, ⟨.inl rfl, ?_⟩, by
          simp [Node.ofKind, Kind.slotsWith, Function.comp_def]⟩
        rintro count (rfl | given)
        · exact le_rfl
        · rcases givenMembers_concat.mp given with earlier | ⟨other, _⟩
          · exact absurd (lt_size_of_givenMembers earlier) (not_lt.mpr outside)
          · cases other

/-- How the slots of nodes grow while edits build a workspace. -/
structure SlotsGrow (edits : List Edit) : Prop where
  slotNames_eq : ∀ {id kind}, (run edits).tree.kind id = some kind →
    ∃ members, MostMembers edits id members ∧
      (run edits).tree.slotNames id =
        kind.slotNames ++ (List.range members).map Slot.member
  slotNames_nodup : ∀ id, ((run edits).tree.slotNames id).Nodup
  /-- An occupied slot stays occupied by the same node, whatever is edited
  later. -/
  target_eq : ∀ {id name target},
    (run edits).tree.slotTarget id name = some target →
      ∀ later, (run (edits ++ later)).tree.slotTarget id name = some target
  /-- Two numbers of members leave the same slots in any order. -/
  slots_exchange : ∀ id first second other,
    ((run (edits ++ [.setMutation id (.typeGroup first),
        .setMutation id (.typeGroup second)])).node? other).map Node.slots =
      ((run (edits ++ [.setMutation id (.typeGroup second),
        .setMutation id (.typeGroup first)])).node? other).map Node.slots

/-- Whatever edits build a workspace, the slots of its nodes are those of their
kinds and the members that they were given; they only ever grow. -/
theorem run_slots_grow (edits : List Edit) : SlotsGrow edits := by
  rcases exists_arranged_run edits with ⟨_, arranged, _⟩
  refine
    { slotNames_eq := ?_
      slotNames_nodup := arranged.slotNames_nodup
      target_eq := ?_
      slots_exchange := ?_ }
  · intro id kind ofKind
    rcases Option.map_eq_some_iff.mp ofKind with ⟨node, found, rfl⟩
    rcases exists_mostMembers_run edits found with ⟨members, most, names⟩
    have listed : (run edits).tree.slotNames id = node.slots.map Slot.name := by
      simp [tree, found]
    exact ⟨members, most, listed.trans names⟩
  · intro id name target hangs later
    rw [run_append]
    exact arranged.target?_afterAll hangs
  · intro id first second other
    have twice : ∀ one another : Nat,
        run (edits ++ [.setMutation id (.typeGroup one),
            .setMutation id (.typeGroup another)]) =
          (run edits).modify id fun node =>
            (node.setMutation (.typeGroup one)).setMutation
              (.typeGroup another) := by
      intro one another
      rw [← modify_modify, ← after_setMutation, ← after_setMutation, run_append]
      rfl
    rw [twice, twice, node?_modify, node?_modify, Option.map_map, Option.map_map]
    congr 1
    funext node
    simp only [Function.comp_apply]
    split_ifs
    · exact Node.growSlots_comm node.slots first second
    · rfl

end Workspace

end BlockForge
