import BlockForge.Proofs.BlockFile.Violation
import BlockForge.Proofs.Workspace.Placement
import Mathlib.Data.List.Forall2

/-!
# How a workspace grows while a file is loaded

Loading a part of a file adds nodes, and it hangs them in each other and in
nodes that are open.  `Loading.Grows` says what is known afterwards: nothing
else has changed, the errors report what is wrong in the part, and if nothing
is, then the new nodes hold the part.  Steps put together grow by both parts.

The nodes of a part get their ids in the order of the file, so a node of the
file and a node of the workspace belong together by their places.
-/

namespace BlockForge

namespace Blueprint

/-- What a loaded node is apart from its links. -/
def label (blueprint : Blueprint) : Label where
  kind := blueprint.kind
  fields :=
    (FieldTable.empty.insertAll blueprint.kind.defaultFields).insertAll
      blueprint.fields.entries
  mutation := blueprint.mutation?
  slotNames := blueprint.slotNames

/-- A node of a listing has an id, where the first one has the id `start`. -/
def StandsAt (start : Nat) (listing : List Blueprint) (id : Nat)
    (blueprint : Blueprint) : Prop :=
  start ≤ id ∧ listing[id - start]? = some blueprint

namespace StandsAt

variable {start id : Nat} {listing later : List Blueprint}
  {blueprint : Blueprint}

theorem head : StandsAt start (blueprint :: listing) start blueprint :=
  ⟨le_rfl, by simp⟩

theorem left (stands : StandsAt start listing id blueprint) :
    StandsAt start (listing ++ later) id blueprint := by
  rcases stands with ⟨after, found⟩
  refine ⟨after, ?_⟩
  rw [List.getElem?_append_left (List.getElem?_eq_some_iff.mp found).choose]
  exact found

theorem right
    (stands : StandsAt (start + listing.length) later id blueprint) :
    StandsAt start (listing ++ later) id blueprint := by
  rcases stands with ⟨after, found⟩
  refine ⟨by omega, ?_⟩
  rw [List.getElem?_append_right (by omega), ← found]
  congr 1
  omega

theorem tail {first : Blueprint}
    (stands : StandsAt (start + 1) listing id blueprint) :
    StandsAt start (first :: listing) id blueprint := by
  have later : StandsAt (start + [first].length) listing id blueprint := stands
  exact later.right

theorem lt (stands : StandsAt start listing id blueprint) :
    id < start + listing.length := by
  rcases stands with ⟨after, found⟩
  have bound := (List.getElem?_eq_some_iff.mp found).choose
  omega

theorem of_append
    (stands : StandsAt start (listing ++ later) id blueprint) :
    StandsAt start listing id blueprint ∨
      StandsAt (start + listing.length) later id blueprint := by
  rcases stands with ⟨after, found⟩
  by_cases inside : id - start < listing.length
  · rw [List.getElem?_append_left inside] at found
    exact .inl ⟨after, found⟩
  · rw [List.getElem?_append_right (by omega)] at found
    refine .inr ⟨by omega, ?_⟩
    rw [← found]
    congr 1
    omega

theorem of_cons {first : Blueprint}
    (stands : StandsAt start (first :: listing) id blueprint) :
    (id = start ∧ blueprint = first) ∨
      StandsAt (start + 1) listing id blueprint := by
  have split : StandsAt start ([first] ++ listing) id blueprint := stands
  rcases split.of_append with own | later
  · have same : id = start := by
      have above := own.1
      have below := own.lt
      simp only [List.length_singleton] at below
      omega
    subst same
    have found := own.2
    rw [Nat.sub_self] at found
    exact .inl ⟨rfl, (Option.some.inj found).symm⟩
  · exact .inr later

end StandsAt

end Blueprint

namespace Workspace

/-- A node of a workspace is what a listing says, and in its slots hangs what
the listing puts there. -/
structure Holds (workspace : Workspace)
    (chains : NodeId → String → List NodeId) (start : NodeId)
    (listing : List Blueprint) (id : NodeId) (blueprint : Blueprint) :
    Prop where
  label_eq : workspace.label? id = some blueprint.label
  chain : ∀ name, List.Forall₂ (Blueprint.StandsAt start listing)
    (chains id name) (blueprint.chain name)

namespace Holds

variable {workspace : Workspace} {chains : NodeId → String → List NodeId}
  {start id : Nat} {listing later : List Blueprint}
  {first blueprint : Blueprint}

theorem left (holds : workspace.Holds chains start listing id blueprint) :
    workspace.Holds chains start (listing ++ later) id blueprint :=
  ⟨holds.label_eq, fun name =>
    (holds.chain name).imp fun _ _ => Blueprint.StandsAt.left⟩

theorem right (holds :
      workspace.Holds chains (start + listing.length) later id blueprint) :
    workspace.Holds chains start (listing ++ later) id blueprint :=
  ⟨holds.label_eq, fun name =>
    (holds.chain name).imp fun _ _ => Blueprint.StandsAt.right⟩

theorem tail (holds :
      workspace.Holds chains (start + 1) listing id blueprint) :
    workspace.Holds chains start (first :: listing) id blueprint :=
  ⟨holds.label_eq, fun name =>
    (holds.chain name).imp fun _ _ => Blueprint.StandsAt.tail⟩

end Holds

/-- Attaching the node of a blueprint fails where it breaks a rule for children,
and the error says which one. -/
theorem Arranged.attach_cases {workspace : Workspace}
    {chains : NodeId → String → List NodeId} {order : NodeId → Nat}
    (arranged : workspace.Arranged chains order)
    (bounded : ∀ {id}, id < workspace.size → order id ≤ workspace.size)
    {owner child : Blueprint} {parent id : NodeId}
    (parentLabel : workspace.label? parent = some owner.label)
    (childLabel : workspace.label? id = some child.label)
    (nowhere : ∀ owner name, id ∉ chains owner name)
    (before : order parent < order id) (name : String) :
    (owner.childFault? name (decide (chains parent name ≠ [])) child = none ∧
        workspace.Attachable parent name id ∧
        workspace.perform (.attach parent name id) =
          .ok (workspace.link parent name (workspace.target? parent name) id)) ∨
      ∃ fault error,
        owner.childFault? name (decide (chains parent name ≠ [])) child =
            some fault ∧
          workspace.perform (.attach parent name id) = .error error ∧
          (owner.attachProblem name error).fault? = some fault := by
  rcases exists_node_of_label? parentLabel with ⟨ownerNode, foundOwner, same⟩
  rcases exists_node_of_label? childLabel with ⟨childNode, foundChild, equal⟩
  have ownerKind : ownerNode.kind = owner.kind := congrArg Label.kind same
  have childKind : childNode.kind = child.kind := congrArg Label.kind equal
  have slotNames : ownerNode.label.slotNames = owner.slotNames :=
    congrArg Label.slotNames same
  have free : childNode.isFree = true := by
    rcases arranged.loose foundChild nowhere with ⟨parent, previous, _⟩
    simp [Node.isFree, parent, previous]
  have apart : ¬ workspace.Surrounds id parent := fun around =>
    absurd (arranged.order_le_of_surrounds around) (not_le.mpr before)
  have outcome : workspace.perform (.attach parent name id) = _ :=
    arranged.attach_eq bounded foundOwner foundChild free apart name
  rw [ownerKind, childKind, slotNames] at outcome
  -- The checks of an attachment are the rules for a child, in the same order.
  unfold Blueprint.childFault?
  by_cases missing : name ∉ owner.slotNames
  · rw [if_pos missing] at outcome ⊢
    exact .inr ⟨_, _, rfl, outcome, rfl⟩
  rw [if_neg missing] at outcome ⊢
  by_cases misfit : child.kind.fits name = false
  · rw [if_pos misfit] at outcome ⊢
    exact .inr ⟨_, _, rfl, outcome, rfl⟩
  rw [if_neg misfit] at outcome ⊢
  by_cases full : Slot.isType name = true ∧ chains parent name ≠ []
  · rw [if_pos full] at outcome
    rw [if_pos ⟨full.1, decide_eq_true full.2⟩]
    exact .inr ⟨_, _, rfl, outcome, rfl⟩
  rw [if_neg full, ← arranged.target_eq] at outcome
  rw [if_neg (by simpa using full)]
  refine .inl ⟨rfl, ⟨⟨ownerNode, foundOwner, ?_⟩, ?_, apart, ?_⟩, outcome⟩
  · rw [Option.isSome_iff_ne_none, Ne, Node.slot?_eq_none_iff, slotNames]
    exact missing
  · exact ⟨childNode, foundChild, free, by rw [childKind]; simpa using misfit⟩
  · intro holdsType
    rw [arranged.target_eq, List.head?_eq_none_iff]
    by_contra taken
    exact full ⟨holdsType, taken⟩

end Workspace

namespace Loading

open Blueprint (StandsAt)

theorem perform_ok {loading : Loading} {edit : Edit} {edited : Workspace}
    (succeeds : loading.workspace.perform edit = .ok edited) (span : Span)
    (problem : EditError → LoadProblem) :
    loading.perform span problem edit = { loading with workspace := edited } := by
  rw [Loading.perform, succeeds]

theorem perform_error {loading : Loading} {edit : Edit} {error : EditError}
    (fails : loading.workspace.perform edit = .error error) (span : Span)
    (problem : EditError → LoadProblem) :
    loading.perform span problem edit = loading.report span (problem error) := by
  rw [Loading.perform, fails]

/-- A part of a file is loaded.  The chains of touched slots may have become
longer, and the roots are the new nodes that are known to hang nowhere. -/
structure Grows (before : Loading) (chains : NodeId → String → List NodeId)
    (touched : NodeId → String → Prop) (listing : List Blueprint)
    (violations : List Violation) (roots : List NodeId) (after : Loading)
    (grown : NodeId → String → List NodeId) : Prop where
  stacked : after.workspace.Stacked grown
  size_eq : after.workspace.size = before.workspace.size + listing.length
  label_eq : ∀ {id : Nat}, id < before.workspace.size →
    after.workspace.label? id = before.workspace.label? id
  /-- Chains are extended by new nodes only. -/
  added : ∀ owner name, ∃ added, grown owner name = chains owner name ++ added ∧
    ∀ id : Nat, id ∈ added → before.workspace.size ≤ id
  kept : ∀ {owner : Nat} {name}, owner < before.workspace.size →
    ¬ touched owner name → grown owner name = chains owner name
  errors_eq : ∃ found, after.errors = before.errors ++ found ∧
    found.map LoadError.violation? = violations.map some
  loose : ∀ id : Nat, id ∈ roots → before.workspace.size ≤ id ∧
    id < after.workspace.size ∧ ∀ owner name, id ∉ grown owner name
  holds : violations = [] → ∀ {id blueprint},
    StandsAt before.workspace.size listing id blueprint →
      after.workspace.Holds grown before.workspace.size listing id blueprint
  /-- No other new node hangs nowhere. -/
  hangs : violations = [] → ∀ {id : Nat}, before.workspace.size ≤ id →
    id < after.workspace.size → id ∈ roots ∨ ∃ owner name, id ∈ grown owner name

namespace Grows

variable {before mid after : Loading}
  {chains between grown : NodeId → String → List NodeId}
  {touched : NodeId → String → Prop} {first second listing : List Blueprint}
  {firstViolations secondViolations violations : List Violation}
  {firstRoots secondRoots roots : List NodeId}

/-- Nothing is loaded by loading nothing. -/
theorem refl (stacked : before.workspace.Stacked chains) :
    before.Grows chains touched [] [] [] before chains where
  stacked := stacked
  size_eq := rfl
  label_eq := fun _ => rfl
  added := fun _ _ => ⟨[], by simp, by simp⟩
  kept := fun _ _ => rfl
  errors_eq := ⟨[], by simp, rfl⟩
  loose := by simp
  holds := by
    rintro _ id blueprint ⟨_, impossible⟩
    simp at impossible
  hangs := by
    intro _ id old new
    omega

theorem weaken {more : NodeId → String → Prop}
    (grows : before.Grows chains touched listing violations roots after grown)
    (covers : ∀ owner name, touched owner name → more owner name) :
    before.Grows chains more listing violations roots after grown :=
  { grows with
    kept := fun old apart =>
      grows.kept old fun touches => apart (covers _ _ touches) }

theorem size_le
    (grows : before.Grows chains touched listing violations roots after grown) :
    before.workspace.size ≤ after.workspace.size := by
  rw [grows.size_eq]
  exact Nat.le_add_right ..

theorem mem_grown
    (grows : before.Grows chains touched listing violations roots after grown)
    {owner id : NodeId} {name : String} (member : id ∈ chains owner name) :
    id ∈ grown owner name := by
  rcases grows.added owner name with ⟨added, equal, _⟩
  rw [equal]
  exact List.mem_append_left added member

/-- A node in no chain gets into none by what is loaded after it. -/
theorem notMem_grown
    (grows : before.Grows chains touched listing violations roots after grown)
    {id : Nat} (old : id < before.workspace.size)
    (nowhere : ∀ owner name, id ∉ chains owner name) (owner : NodeId)
    (name : String) : id ∉ grown owner name := by
  intro member
  rcases grows.added owner name with ⟨added, equal, new⟩
  rw [equal] at member
  rcases List.mem_append.mp member with early | late
  · exact nowhere owner name early
  · exact absurd (new id late) (not_le.mpr old)

/-- A node that is not touched keeps holding what it holds. -/
theorem holds_of_holds
    (grows : before.Grows chains touched listing violations roots after grown)
    {start id : Nat} {part : List Blueprint} {blueprint : Blueprint}
    (held : before.workspace.Holds chains start part id blueprint)
    (untouched : ∀ name, ¬ touched id name) :
    after.workspace.Holds grown start part id blueprint := by
  have old := Workspace.lt_size_of_label? held.label_eq
  refine ⟨(grows.label_eq old).trans held.label_eq, fun name => ?_⟩
  rw [grows.kept old (untouched name)]
  exact held.chain name

/-- Two parts are loaded one after the other. -/
theorem trans
    (grows : before.Grows chains touched first firstViolations firstRoots mid
      between)
    (next : mid.Grows between touched second secondViolations secondRoots after
      grown)
    (older : ∀ {owner : Nat} {name}, touched owner name →
      owner < before.workspace.size) :
    before.Grows chains touched (first ++ second)
      (firstViolations ++ secondViolations) (firstRoots ++ secondRoots) after
      grown := by
  have sizes := grows.size_le
  have moreSizes := next.size_le
  refine
    { stacked := next.stacked, size_eq := ?_, label_eq := ?_, added := ?_,
      kept := ?_, errors_eq := ?_, loose := ?_, holds := ?_, hangs := ?_ }
  · rw [next.size_eq, grows.size_eq, List.length_append, Nat.add_assoc]
  · intro id old
    rw [next.label_eq (by omega), grows.label_eq old]
  · intro owner name
    rcases grows.added owner name with ⟨added, equal, new⟩
    rcases next.added owner name with ⟨others, otherEqual, otherNew⟩
    refine ⟨added ++ others, by rw [otherEqual, equal, List.append_assoc], ?_⟩
    intro id member
    rcases List.mem_append.mp member with early | late
    · exact new id early
    · exact sizes.trans (otherNew id late)
  · intro owner name old apart
    rw [next.kept (by omega) apart, grows.kept old apart]
  · rcases grows.errors_eq with ⟨found, errors, reported⟩
    rcases next.errors_eq with ⟨others, moreErrors, moreReported⟩
    refine ⟨found ++ others, ?_, ?_⟩
    · rw [moreErrors, errors, List.append_assoc]
    · rw [List.map_append, reported, moreReported, List.map_append]
  · intro id member
    rcases List.mem_append.mp member with early | late
    · rcases grows.loose id early with ⟨new, bound, nowhere⟩
      exact ⟨new, by omega, next.notMem_grown bound nowhere⟩
    · rcases next.loose id late with ⟨new, bound, nowhere⟩
      exact ⟨by omega, bound, nowhere⟩
  · intro clean id blueprint stands
    rw [List.append_eq_nil_iff] at clean
    rcases stands.of_append with early | late
    · have untouched : ∀ name, ¬ touched id name := by
        intro name touches
        exact absurd (older touches) (not_lt.mpr early.1)
      exact (next.holds_of_holds (grows.holds clean.1 early) untouched).left
    · rw [← grows.size_eq] at late
      have held := next.holds clean.2 late
      rw [grows.size_eq] at held
      exact held.right
  · intro clean id new bound
    rw [List.append_eq_nil_iff] at clean
    by_cases early : id < mid.workspace.size
    · rcases grows.hangs clean.1 new early with isRoot | ⟨owner, name, member⟩
      · exact .inl (List.mem_append_left _ isRoot)
      · exact .inr ⟨owner, name, next.mem_grown member⟩
    · rcases next.hangs clean.2 (by omega) bound with isRoot | hanging
      · exact .inl (List.mem_append_right _ isRoot)
      · exact .inr hanging

/-! ## Attaching what was loaded -/

/-- An error reports one more violation. -/
theorem report
    (grows : before.Grows chains touched listing violations roots after grown)
    {problem : LoadProblem} {fault : Fault}
    (isFault : problem.fault? = some fault) (span : Span) :
    before.Grows chains touched listing (violations ++ [⟨fault, span⟩]) []
      (after.report span problem) grown := by
  refine
    { stacked := grows.stacked, size_eq := grows.size_eq,
      label_eq := grows.label_eq, added := grows.added, kept := grows.kept,
      errors_eq := ?_, loose := by simp, holds := by simp, hangs := by simp }
  rcases grows.errors_eq with ⟨found, errors, reported⟩
  refine ⟨found ++ [⟨problem, span⟩], ?_, ?_⟩
  · rw [Loading.report, errors, List.append_assoc]
  · rw [List.map_append, reported, List.map_append, List.map_singleton,
      LoadError.violation?, isFault]
    rfl

/-- The node that was loaded last is attached. -/
theorem link {child : Nat} (stacked : before.workspace.Stacked chains)
    (grows : before.Grows chains (fun _ _ => False) listing violations [child]
      after grown)
    {parent : Nat} {name : String}
    (attachable : after.workspace.Attachable parent name child)
    (old : parent < before.workspace.size) :
    before.Grows chains (fun owner slot => owner = parent ∧ slot = name) listing
      violations []
      { after with
        workspace := after.workspace.link parent name
          (after.workspace.target? parent name) child }
      (Workspace.extend grown parent name child) := by
  rcases grows.loose child (List.mem_singleton.mpr rfl) with ⟨new, bound, _⟩
  rcases attachable.free with ⟨childNode, foundChild, free, _⟩
  have target_eq := grows.stacked.target_eq parent name
  refine
    { stacked := ?_, size_eq := ?_, label_eq := ?_, added := ?_, kept := ?_,
      errors_eq := grows.errors_eq, loose := by simp, holds := ?_, hangs := ?_ }
  · apply grows.stacked.link_last attachable
    rw [List.forall_mem_cons, grows.kept old id]
    refine ⟨old.trans_le new, fun id member => ?_⟩
    exact (stacked.lt_size_of_mem member).trans_le new
  · rw [Workspace.size_link, grows.size_eq]
  · intro id isOld
    rw [Workspace.label?_link, grows.label_eq isOld]
  · intro owner slot
    rcases grows.added owner slot with ⟨added, equal, isNew⟩
    by_cases here : owner = parent ∧ slot = name
    · rcases here with ⟨rfl, rfl⟩
      refine ⟨added ++ [child], ?_, ?_⟩
      · rw [Workspace.extend_self, equal, List.append_assoc]
      · simpa [or_imp, forall_and] using ⟨isNew, new⟩
    · exact ⟨added, by rw [Workspace.extend_of_ne here, equal], isNew⟩
  · intro owner slot isOld apart
    rw [Workspace.extend_of_ne apart, grows.kept isOld id]
  · intro clean id blueprint stands
    have held := grows.holds clean stands
    have differs : id ≠ parent := by
      have above := stands.1
      omega
    refine ⟨?_, fun slot => ?_⟩
    · rw [Workspace.label?_link]
      exact held.label_eq
    · rw [Workspace.extend_of_ne fun here => differs here.1]
      exact held.chain slot
  · intro clean id isNew inside
    rw [Workspace.size_link] at inside
    rcases grows.hangs clean isNew inside with isChild | ⟨owner, slot, member⟩
    · refine .inr ⟨parent, name, ?_⟩
      rw [Workspace.extend_self, List.mem_singleton.mp isChild]
      simp
    · exact .inr ⟨owner, slot, Workspace.mem_extend.mpr (.inl member)⟩

/-- A loaded node is attached to the slot of an older one, or it is reported
why it does not belong there. -/
theorem attach {owner child : Blueprint} {id : Nat}
    (stacked : before.workspace.Stacked chains)
    (grows : before.Grows chains (fun _ _ => False) listing violations
      [before.workspace.size] after grown)
    (ownerLabel : before.workspace.label? id = some owner.label)
    (childLabel :
      after.workspace.label? before.workspace.size = some child.label)
    (name : String) {fault : Option Fault}
    (judged : owner.childFault? name (decide (chains id name ≠ [])) child =
      fault) :
    ∃ attached,
      before.Grows chains (fun other slot => other = id ∧ slot = name) listing
        (violations ++ (fault.map fun fault => ⟨fault, child.kindSpan⟩).toList)
        []
        (after.perform child.kindSpan (owner.attachProblem name)
          (.attach id name before.workspace.size)) attached ∧
      attached id name = chains id name ++
        if fault = none then [before.workspace.size] else [] := by
  have old := Workspace.lt_size_of_label? ownerLabel
  have kept : grown id name = chains id name := grows.kept old fun none => none
  have nowhere : ∀ owner name, before.workspace.size ∉ grown owner name :=
    (grows.loose _ (List.mem_singleton.mpr rfl)).2.2
  rw [← grows.label_eq old] at ownerLabel
  rw [← kept] at judged ⊢
  rcases grows.stacked.attach_cases le_of_lt ownerLabel childLabel nowhere old
    name with ⟨sound, attachable, succeeds⟩ | ⟨_, error, broken, fails, told⟩
  · cases judged.symm.trans sound
    refine ⟨Workspace.extend grown id name before.workspace.size, ?_, ?_⟩
    · rw [perform_ok succeeds]
      simpa using grows.link stacked attachable old
    · rw [Workspace.extend_self, if_pos rfl]
  · cases judged.symm.trans broken
    refine ⟨grown, ?_, by simp⟩
    rw [perform_error fails]
    exact (grows.weaken fun _ _ none => none.elim).report told child.kindSpan

end Grows

end Loading

end BlockForge
