import BlockForge.Generation.Pass
import BlockForge.Proofs.Tree.Coherent
import Mathlib.Data.List.Forall2

/-!
# Walks over coherent trees

A pass gives a result and adds entries to its state.  `Gives` states this for
every state at once, and passes put together give their entries one after the
other.

On a coherent tree the depth of a walk never runs out.  `Producer.Codes` states
what a producer gives for one node, at any depth that is enough for the node;
`gives_slotCode` derives from it what the walk gives for a whole chain.
-/

namespace BlockForge

/-- Whatever the state is, a pass gives a result and adds entries to it. -/
def Gives {σ ε α : Type} (add : σ → ε → σ) (pass : Pass σ α) (result : α)
    (entries : List ε) : Prop :=
  ∀ state, pass.run state = some (result, entries.foldl add state)

namespace Gives

variable {σ ε α β : Type} {add : σ → ε → σ}

theorem done (result : α) : Gives add (pure result : Pass σ α) result [] :=
  fun _ => rfl

theorem bind {pass : Pass σ α} {next : α → Pass σ β} {first : α} {second : β}
    {before after : List ε} (gives : Gives add pass first before)
    (continues : Gives add (next first) second after) :
    Gives add (pass >>= next) second (before ++ after) := by
  intro state
  rw [StateT.run_bind, gives state, List.foldl_append]
  exact continues _

/-- A step that adds nothing leaves the entries to what follows. -/
theorem bind_nil {pass : Pass σ α} {next : α → Pass σ β} {first : α}
    {second : β} {entries : List ε} (gives : Gives add pass first [])
    (continues : Gives add (next first) second entries) :
    Gives add (pass >>= next) second entries :=
  gives.bind continues

/-- A step that only shapes the result adds nothing. -/
theorem bind_pure {pass : Pass σ α} {first : α} {entries : List ε}
    (gives : Gives add pass first entries) (next : α → β) :
    Gives add (pass >>= fun result => pure (next result)) (next first)
      entries := by
  intro state
  rw [StateT.run_bind, gives state]
  rfl

theorem lift {value : Option α} {result : α} (found : value = some result) :
    Gives add (liftM value : Pass σ α) result [] := by
  intro state
  rw [found]
  rfl

theorem one (entry : ε) :
    Gives add (modify fun state => add state entry : Pass σ Unit) () [entry] :=
  fun _ => rfl

/-- A pass over a list gives the results of its members. -/
theorem mapM {item : α → Pass σ β} {holds : α → β → Prop}
    {entries : α → List ε} {list : List α}
    (gives : ∀ member ∈ list, ∃ result, holds member result ∧
      Gives add (item member) result (entries member)) :
    ∃ results, List.Forall₂ holds list results ∧
      Gives add (list.mapM item) results (list.flatMap entries) := by
  induction list with
  | nil => exact ⟨[], .nil, Gives.done []⟩
  | cons head rest rest_ih =>
      rw [List.forall_mem_cons] at gives
      rcases gives with ⟨⟨result, said, own⟩, others⟩
      rcases rest_ih others with ⟨results, saidRest, after⟩
      refine ⟨result :: results, .cons said saidRest, ?_⟩
      rw [List.mapM_cons, List.flatMap_cons]
      exact own.bind (after.bind_pure _)

end Gives

namespace Producer

variable {σ ε : Type}

/-- At any depth that is enough for a node in reach of a block creator, a
producer gives it a code with a property. -/
def Codes (producer : Producer σ) (tree : BlockTree) (rank : NodeId → Nat)
    (add : σ → ε → σ) (id : NodeId) (holds : String → Prop)
    (entries : List ε) : Prop :=
  ∃ kind, tree.kind id = some kind ∧
    (kind = .blockCreator ∨ tree.isLive id = true) ∧
      ∀ depth, tree.size ≤ depth + rank id →
        ∃ code, holds code ∧
          Gives add (producer.produce (producer.walkWithin tree depth) id kind)
            code entries

variable {producer : Producer σ} {tree : BlockTree} {rank : NodeId → Nat}
  {add : σ → ε → σ}

theorem walkWithin_succ {id : NodeId} {kind : Kind}
    (ofKind : tree.kind id = some kind)
    (reached : kind = .blockCreator ∨ tree.isLive id = true) (depth : Nat)
    (thisOnly : Bool) :
    producer.walkWithin tree (depth + 1) id thisOnly =
      producer.produce (producer.walkWithin tree depth) id kind >>= fun code =>
        match tree.nextSibling id with
        | none => return code
        | some next =>
          if thisOnly then return code
          else do
            let rest ← producer.walkWithin tree depth next false
            return producer.join code rest := by
  have notDead : ¬ (kind ≠ .blockCreator ∧ tree.isLive id = false) := by
    rintro ⟨other, dead⟩
    rcases reached with creator | live
    · exact other creator
    · rw [dead] at live
      cases live
  rw [walkWithin, ofKind]
  exact if_neg notDead

/-- The walk gives a node alone what the producer gives for it. -/
theorem gives_walkWithin_alone {id : NodeId} {kind : Kind}
    (ofKind : tree.kind id = some kind)
    (reached : kind = .blockCreator ∨ tree.isLive id = true) {depth : Nat}
    {code : String} {entries : List ε}
    (own : Gives add (producer.produce (producer.walkWithin tree depth) id kind)
      code entries) :
    Gives add (producer.walkWithin tree (depth + 1) id true) code entries := by
  rw [walkWithin_succ ofKind reached]
  cases tree.nextSibling id with
  | none => exact own.bind_pure fun code => code
  | some next => exact own.bind_pure fun code => code

/-- The walk gives a single node a code. -/
theorem Codes.walkWithin {id : NodeId} {holds : String → Prop}
    {entries : List ε} (codes : producer.Codes tree rank add id holds entries)
    (coherent : tree.Coherent rank) {depth : Nat}
    (enough : tree.size < depth + rank id) :
    ∃ code, holds code ∧
      Gives add (producer.walkWithin tree depth id true) code entries := by
  rcases codes with ⟨kind, ofKind, reached, gives⟩
  cases depth with
  | zero =>
      have bounded := coherent.rank_le id
      omega
  | succ depth =>
      rcases gives depth (by omega) with ⟨code, said, own⟩
      exact ⟨code, said, gives_walkWithin_alone ofKind reached own⟩

/-- The walk joins the codes of a chain. -/
theorem gives_walkWithin (coherent : tree.Coherent rank)
    (joins : ∀ code, producer.join code "" = code)
    {holds : NodeId → String → Prop} {entries : NodeId → List ε}
    {start : Option NodeId} {list : List NodeId}
    (follows : tree.Follows start list) :
    (∀ id ∈ list, producer.Codes tree rank add id (holds id) (entries id)) →
      ∀ head depth, start = some head → tree.size < depth + rank head →
        ∃ codes, List.Forall₂ holds list codes ∧
          Gives add (producer.walkWithin tree depth head false)
            (codes.foldr producer.join "") (list.flatMap entries) := by
  induction follows with
  | nil =>
      intro codes head depth starts
      cases starts
  | cons next next_ih =>
      rename_i id rest
      intro codes head depth starts enough
      cases starts
      rw [List.forall_mem_cons] at codes
      rcases codes with ⟨⟨kind, ofKind, reached, gives⟩, others⟩
      cases depth with
      | zero =>
          have bounded := coherent.rank_le id
          omega
      | succ depth =>
          rcases gives depth (by omega) with ⟨code, said, own⟩
          rw [walkWithin_succ ofKind reached, List.flatMap_cons]
          cases following : tree.nextSibling id with
          | none =>
              rw [following] at next
              cases next
              refine ⟨[code], .cons said .nil, ?_⟩
              rw [List.foldr_cons, List.foldr_nil, joins, List.flatMap_nil,
                List.append_nil]
              exact own.bind_pure fun code => code
          | some second =>
              have less := coherent.next_lt following
              rcases next_ih others second depth following (by omega) with
                ⟨codes, saidRest, after⟩
              exact ⟨code :: codes, .cons said saidRest,
                own.bind (after.bind_pure _)⟩

/-- The walk over the chain in a slot joins the codes of its members. -/
theorem gives_slotCode (coherent : tree.Coherent rank)
    (joins : ∀ code, producer.join code "" = code)
    {holds : NodeId → String → Prop} {entries : NodeId → List ε}
    {owner : NodeId} {name : String}
    (codes : ∀ id ∈ tree.chain owner name,
      producer.Codes tree rank add id (holds id) (entries id))
    {depth : Nat} (enough : tree.size ≤ depth + rank owner) :
    ∃ codes, List.Forall₂ holds (tree.chain owner name) codes ∧
      Gives add (slotCode (producer.walkWithin tree depth) tree owner name)
        (codes.foldr producer.join "")
        ((tree.chain owner name).flatMap entries) := by
  have follows := coherent.follows owner name
  unfold slotCode
  cases target : tree.slotTarget owner name with
  | none =>
      rw [(coherent.chain_eq_nil_iff).mpr target]
      exact ⟨[], .nil, Gives.done ""⟩
  | some head =>
      have less := coherent.slot_lt target
      exact gives_walkWithin coherent joins follows codes head depth target
        (by omega)

end Producer

end BlockForge
