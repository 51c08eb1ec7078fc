import BlockForge.Workspace.Edit
import Mathlib.Data.List.Nodup
import Mathlib.Tactic.SplitIfs

/-!
# The slots of a node

Every node starts with the slots of its kind.  A mutation can add member slots,
always the first ones that are missing, and never removes a slot or changes
what hangs in one.  So the names of the slots of a node are those of its kind,
followed by the names of the first members.
-/

namespace BlockForge

namespace Slot

/-- Members are numbered as the fields of options are. -/
theorem member_eq_indexed : member = FieldKey.indexed type := rfl

@[simp]
theorem toList_member (index : Nat) :
    (member index).toList = type.toList ++ Nat.toDigits 10 index := by
  rw [member_eq_indexed, FieldKey.toList_indexed]

theorem member_injective : Function.Injective member := by
  rw [member_eq_indexed]
  exact FieldKey.indexed_injective type

/-- Every member slot holds a single type constraint. -/
@[simp]
theorem isType_member (index : Nat) : isType (member index) = true := by
  have follows : afterType? (member index) = some (Nat.toDigits 10 index) := by
    have start : type.toList.isPrefixOf (member index).toList = true := by
      rw [toList_member, List.isPrefixOf_iff_prefix]
      exact List.prefix_append _ _
    have rest :
        (member index).toList.drop type.length = Nat.toDigits 10 index := by
      rw [toList_member]
      exact List.drop_left
    rw [afterType?, if_pos start, rest]
  rw [isType, follows]
  apply List.all_eq_true.mpr
  intro digit digitMember
  exact Nat.isDigit_of_mem_toDigits (by decide) (by decide) digitMember

@[simp]
theorem isType_type : isType type = true := by decide

@[simp]
theorem isType_inputs : isType inputs = false := by decide

@[simp]
theorem isType_fields : isType fields = false := by decide

theorem member_ne_inputs (index : Nat) : member index ≠ inputs := by
  intro equal
  have holdsType := isType_member index
  rw [equal, isType_inputs] at holdsType
  cases holdsType

theorem member_ne_fields (index : Nat) : member index ≠ fields := by
  intro equal
  have holdsType := isType_member index
  rw [equal, isType_fields] at holdsType
  cases holdsType

theorem member_ne_type (index : Nat) : member index ≠ type := by
  intro equal
  have lists := congrArg String.toList equal
  rw [toList_member] at lists
  exact Nat.toDigits_ne_nil (List.append_right_eq_self.mp lists)

/-- No kind starts with a member slot. -/
theorem member_notMem_slotNames (kind : Kind) (index : Nat) :
    member index ∉ kind.slotNames := by
  cases kind <;>
    simp [Kind.slotNames, member_ne_inputs, member_ne_fields, member_ne_type]

end Slot

namespace Kind

theorem slotNames_nodup (kind : Kind) : kind.slotNames.Nodup := by
  cases kind <;> decide

/-- The slot names of a kind, and of its first members. -/
def slotsWith (kind : Kind) (count : Nat) : List String :=
  kind.slotNames ++ (List.range count).map Slot.member

theorem slotsWith_nodup (kind : Kind) (count : Nat) :
    (kind.slotsWith count).Nodup := by
  apply List.Nodup.append kind.slotNames_nodup
  · exact List.nodup_range.map Slot.member_injective
  · intro name ofKind ofMember
    rcases List.mem_map.mp ofMember with ⟨index, _, rfl⟩
    exact Slot.member_notMem_slotNames kind index ofKind

theorem mem_slotsWith {kind : Kind} {count : Nat} {name : String} :
    name ∈ kind.slotsWith count ↔
      name ∈ kind.slotNames ∨ ∃ index < count, Slot.member index = name := by
  simp [slotsWith]

theorem mem_slotsWith_member {kind : Kind} {count index : Nat} :
    Slot.member index ∈ kind.slotsWith count ↔ index < count := by
  rw [slotsWith, List.mem_append, List.mem_map_of_injective
    Slot.member_injective, List.mem_range]
  exact or_iff_right (Slot.member_notMem_slotNames kind index)

end Kind

namespace Node

theorem growSlots_succ (slots : List Slot) (count : Nat) :
    growSlots slots (count + 1) =
      if (growSlots slots count).any
          (fun slot => slot.name = Slot.member count) then
        growSlots slots count
      else growSlots slots count ++ [⟨Slot.member count, none⟩] := by
  simp [growSlots, List.range_succ]

/-- Growing only adds slots in which nothing hangs. -/
theorem exists_growSlots_eq_append (slots : List Slot) (count : Nat) :
    ∃ added,
      growSlots slots count = slots ++ added ∧
        ∀ slot ∈ added, slot.target = none := by
  induction count with
  | zero =>
      exact ⟨[], by simp [growSlots], by simp⟩
  | succ count grown =>
      rcases grown with ⟨added, equal, unoccupied⟩
      rw [growSlots_succ]
      split_ifs
      · exact ⟨added, equal, unoccupied⟩
      · refine ⟨added ++ [⟨Slot.member count, none⟩], ?_, ?_⟩
        · rw [equal, List.append_assoc]
        · intro slot member
          rcases List.mem_append.mp member with old | new
          · exact unoccupied slot old
          · rw [List.mem_singleton.mp new]

/-- Growing to a number of members leaves at least as many. -/
theorem map_name_growSlots {kind : Kind} {slots : List Slot} {members : Nat}
    (names : slots.map Slot.name = kind.slotsWith members) (count : Nat) :
    (growSlots slots count).map Slot.name =
      kind.slotsWith (max members count) := by
  induction count with
  | zero => simpa [growSlots] using names
  | succ count grown =>
      have present :
          (growSlots slots count).any
              (fun slot => slot.name = Slot.member count) = true ↔
            count < members := by
        have asMember :
            (growSlots slots count).any
                (fun slot => slot.name = Slot.member count) = true ↔
              Slot.member count ∈ (growSlots slots count).map Slot.name := by
          simp only [List.any_eq_true, List.mem_map, decide_eq_true_eq]
        rw [asMember, grown, Kind.mem_slotsWith_member]
        omega
      rw [growSlots_succ]
      split_ifs with old
      · rw [grown]
        have bound := present.mp old
        congr 1
        omega
      · have bound : ¬ count < members := fun less => old (present.mpr less)
        have largest : max members (count + 1) = count + 1 := by omega
        have before : max members count = count := by omega
        rw [List.map_append, grown, largest, before]
        simp [Kind.slotsWith, List.range_succ]

/-- What hangs in a slot of this name. -/
def target? (node : Node) (name : String) : Option NodeId :=
  (node.slot? name).bind Slot.target

theorem target?_mem_slots {node : Node} {name : String} {target : NodeId}
    (found : node.target? name = some target) :
    ∃ slot ∈ node.slots, slot.name = name ∧ slot.target = some target := by
  rcases Option.bind_eq_some_iff.mp found with ⟨slot, located, occupied⟩
  exact
    ⟨slot, List.mem_of_find?_eq_some located,
      by simpa using List.find?_some located, occupied⟩

/-- Where slot names are distinct, a slot is found by its name. -/
theorem slot?_eq_some_of_mem {node : Node}
    (distinct : (node.slots.map Slot.name).Nodup) {slot : Slot}
    (member : slot ∈ node.slots) : node.slot? slot.name = some slot := by
  unfold slot?
  generalize node.slots = slots at distinct member
  induction slots with
  | nil => cases member
  | cons head rest rest_ih =>
      rw [List.map_cons, List.nodup_cons] at distinct
      rcases List.mem_cons.mp member with rfl | inRest
      · simp
      · have differs : head.name ≠ slot.name := by
          intro equal
          exact distinct.1 (equal ▸ List.mem_map_of_mem inRest)
        rw [List.find?_cons_of_neg (by simpa using differs)]
        exact rest_ih distinct.2 inRest

/-- The slots of a new node are empty. -/
@[simp]
theorem target?_ofKind (id : NodeId) (kind : Kind) (name : String) :
    (ofKind id kind).target? name = none := by
  rw [Option.eq_none_iff_forall_ne_some]
  intro target found
  rcases target?_mem_slots found with ⟨slot, member, _, occupied⟩
  simp only [ofKind, List.mem_map] at member
  rcases member with ⟨_, _, rfl⟩
  cases occupied

/-- A mutation leaves everything hanging where it hangs. -/
@[simp]
theorem target?_setMutation (mutation : Mutation) (node : Node)
    (name : String) :
    (node.setMutation mutation).target? name = node.target? name := by
  cases mutation with
  | dropdown _ => rfl
  | typeGroup count =>
      rcases exists_growSlots_eq_append node.slots count with
        ⟨added, equal, unoccupied⟩
      have nothing :
          (added.find? fun slot => slot.name = name).bind Slot.target =
            none := by
        cases located : added.find? fun slot => slot.name = name with
        | none => rfl
        | some slot =>
            exact unoccupied slot (List.mem_of_find?_eq_some located)
      simp only [target?, slot?, setMutation, equal, List.find?_append]
      cases node.slots.find? fun slot => slot.name = name with
      | none => simpa using nothing
      | some slot => rfl

theorem target?_setTarget {node : Node} {name : String}
    (present : (node.slot? name).isSome) (head : NodeId) (other : String) :
    (node.setTarget name head).target? other =
      if other = name then some head else node.target? other := by
  unfold target? slot? at *
  simp only [setTarget, List.find?_map, Function.comp_def]
  have sameName :
      (fun slot : Slot =>
        decide ((if slot.name = name then
          { slot with target := some head } else slot).name = other)) =
        fun slot => decide (slot.name = other) := by
    funext slot
    split_ifs <;> rfl
  rw [sameName]
  split_ifs with equal
  · subst equal
    rcases Option.isSome_iff_exists.mp present with ⟨slot, located⟩
    have named : slot.name = other := by simpa using List.find?_some located
    simp [located, named]
  · cases located : node.slots.find? fun slot => slot.name = other with
    | none => rfl
    | some slot =>
        have named : slot.name = other := by simpa using List.find?_some located
        simp [named, equal]

@[simp]
theorem map_name_setTarget (node : Node) (name : String) (head : NodeId) :
    (node.setTarget name head).slots.map Slot.name =
      node.slots.map Slot.name := by
  simp only [setTarget, List.map_map]
  apply List.map_congr_left
  intro slot _
  simp only [Function.comp_apply]
  split_ifs <;> rfl

end Node

end BlockForge
