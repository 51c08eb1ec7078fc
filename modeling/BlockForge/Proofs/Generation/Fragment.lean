import BlockForge.Proofs.Generation.Description
import BlockForge.Proofs.Generation.Walk
import BlockForge.Proofs.Json.Layout

/-!
# Fragments of a definition

The fragment that the generator of definitions produces for a node lays out the
value of the node, and the warnings that it adds are the reports of the node.
The fragments of type constraints come first, then one lemma per form of
argument; `exists_codes` sums them up for all arguments of a block.
-/

namespace BlockForge.Definition

open Json (Value Lays LaysEntry)
open Json.NumberLiteral (isPlain)

/-- A pass gives a text that lays out a value. -/
def Renders (pass : Reporting String) (value : Value)
    (reports : List Warning) : Prop :=
  ∃ text, Gives Warning.addTo pass text reports ∧ Lays isPlain text value

/-- The empty text shows that there is no value. -/
def Shows (text : String) : Option Value → Prop
  | none => text = ""
  | some value => Lays isPlain text value

section

variable {tree : BlockTree} {node : NodeId}

/-! ## Readings -/

theorem gives_read {α : Type} (reading : FieldValue → Option α) (otherwise : α)
    (tree : BlockTree) (node : NodeId) (key : String) :
    Gives Warning.addTo (read reading otherwise tree node key)
      (readingOf reading otherwise tree node key)
      (unreadable reading tree node key) := by
  unfold read readingOf unreadable
  cases stored : tree.field node key with
  | none => exact Gives.done _
  | some value =>
      dsimp only
      rw [Option.bind_some]
      cases reading value with
      | some result => exact Gives.done result
      | none => exact (Gives.one _).bind_pure _

theorem gives_readNumber (tree : BlockTree) (node : NodeId) (key : String) :
    Gives Warning.addTo (readNumber tree node key) (numberOf tree node key)
      (unreadable FieldValue.asNumber tree node key) :=
  gives_read _ _ tree node key

theorem gives_numberField (tree : BlockTree) (node : NodeId) (key : String) :
    Gives Warning.addTo (numberField tree node key)
      (Json.numberText (numberOf tree node key))
      (unreadable FieldValue.asNumber tree node key) :=
  (gives_readNumber tree node key).bind_pure Json.numberText

theorem gives_boolField (tree : BlockTree) (node : NodeId) (key : String) :
    Gives Warning.addTo (boolField tree node key)
      (Json.boolText (readingOf FieldValue.asBool false tree node key))
      (unreadable FieldValue.asBool tree node key) :=
  (gives_read _ _ tree node key).bind_pure Json.boolText

/-! ## Entries -/

theorem laysEntry_quote (key text : String) :
    LaysEntry isPlain (key, Json.quote text) (key, .string text) :=
  ⟨rfl, Json.lays_quote text⟩

theorem laysEntry_numberText (key : String) (number : Binary64) :
    LaysEntry isPlain (key, Json.numberText number)
      (key, Json.numberValue number) :=
  ⟨rfl, Json.lays_numberText number⟩

theorem laysEntry_boolText (key : String) (value : Bool) :
    LaysEntry isPlain (key, Json.boolText value) (key, .bool value) :=
  ⟨rfl, Json.lays_boolText value⟩

theorem lays_alignEntries (tree : BlockTree) (node : NodeId) :
    List.Forall₂ (LaysEntry isPlain) (alignEntries tree node)
      (alignMembers tree node) := by
  unfold alignEntries alignMembers
  dsimp only
  split_ifs
  · exact .nil
  · exact .cons (laysEntry_quote "align" _) .nil

theorem lays_boundEntries (key : String) (bound : Binary64) :
    List.Forall₂ (LaysEntry isPlain) (boundEntries key bound)
      (boundMembers key bound) := by
  unfold boundEntries boundMembers
  split_ifs
  · exact .cons (laysEntry_numberText key bound) .nil
  · exact .nil

/-! ## Fields -/

theorem lays_namedField (jsonType key : String) {text : String} {value : Value}
    (lays : Lays isPlain text value) (tree : BlockTree) (node : NodeId) :
    Lays isPlain (namedField jsonType key text tree node)
      (namedValue jsonType key value tree node) :=
  Json.lays_object
    (.cons (laysEntry_quote "type" jsonType)
      (.cons (laysEntry_quote "name" _) (.cons ⟨rfl, lays⟩ .nil)))

theorem renders_numericInput (tree : BlockTree) (node : NodeId) :
    Renders (numericInput tree node) (numericValue tree node)
      (kindReports tree node .numericInput) := by
  have value := gives_numberField tree node FieldKey.value
  have min := gives_readNumber tree node FieldKey.min
  have max := gives_readNumber tree node FieldKey.max
  have precision := gives_readNumber tree node FieldKey.precision
  have reports : kindReports tree node .numericInput =
      unreadable FieldValue.asNumber tree node FieldKey.value ++
        (unreadable FieldValue.asNumber tree node FieldKey.min ++
          (unreadable FieldValue.asNumber tree node FieldKey.max ++
            unreadable FieldValue.asNumber tree node FieldKey.precision)) := by
    simp [kindReports]
  rw [reports]
  refine ⟨_, value.bind (min.bind (max.bind (precision.bind_pure _))), ?_⟩
  apply Json.lays_object
  refine List.rel_append (List.rel_append (List.rel_append ?_ ?_) ?_) ?_
  · exact .cons (laysEntry_quote "type" "field_number")
      (.cons (laysEntry_quote "name" _)
        (.cons (laysEntry_numberText "value" _) .nil))
  · exact lays_boundEntries "min" _
  · exact lays_boundEntries "max" _
  · split_ifs
    · exact .nil
    · exact lays_boundEntries "precision" _

theorem renders_fieldImage (tree : BlockTree) (node : NodeId) :
    Renders (fieldImage tree node) (imageValue tree node)
      (kindReports tree node .fieldImage) := by
  have width := gives_numberField tree node FieldKey.width
  have height := gives_numberField tree node FieldKey.height
  have flip := gives_boolField tree node FieldKey.flipRtl
  have reports : kindReports tree node .fieldImage =
      unreadable FieldValue.asNumber tree node FieldKey.width ++
        (unreadable FieldValue.asNumber tree node FieldKey.height ++
          unreadable FieldValue.asBool tree node FieldKey.flipRtl) := by
    simp [kindReports]
  rw [reports]
  refine ⟨_, width.bind (height.bind (flip.bind_pure _)), ?_⟩
  exact Json.lays_object
    (.cons (laysEntry_quote "type" "field_image")
      (.cons (laysEntry_quote "src" _)
        (.cons (laysEntry_numberText "width" _)
          (.cons (laysEntry_numberText "height" _)
            (.cons (laysEntry_quote "alt" _)
              (.cons (laysEntry_boolText "flipRtl" _) .nil))))))

/-! ## Dropdowns -/

theorem renders_dropdownOption (tree : BlockTree) (node : NodeId) (index : Nat)
    (kind : OptionKind) :
    Renders (dropdownOption tree node index kind)
      (optionValue tree node index kind) (optionReports tree node index kind) := by
  cases kind with
  | text =>
      refine ⟨_, (Gives.done _).bind_nil (Gives.done _), ?_⟩
      exact Json.lays_array
        (.cons (Json.lays_quote _) (.cons (Json.lays_quote _) .nil))
  | image =>
      have width :=
        gives_numberField tree node (FieldKey.indexed FieldKey.width index)
      have height :=
        gives_numberField tree node (FieldKey.indexed FieldKey.height index)
      have reports : optionReports tree node index .image =
          unreadable FieldValue.asNumber tree node
              (FieldKey.indexed FieldKey.width index) ++
            (unreadable FieldValue.asNumber tree node
              (FieldKey.indexed FieldKey.height index) ++ []) := by
        simp [optionReports]
      rw [reports]
      refine ⟨_, width.bind (height.bind
        ((Gives.done _).bind_nil (Gives.done _))), ?_⟩
      refine Json.lays_array (.cons ?_ (.cons (Json.lays_quote _) .nil))
      exact Json.lays_object
        (.cons (laysEntry_quote "src" _)
          (.cons (laysEntry_numberText "width" _)
            (.cons (laysEntry_numberText "height" _)
              (.cons (laysEntry_quote "alt" _) .nil))))

theorem renders_dropdownOptions (tree : BlockTree) (node : NodeId)
    (kinds : List OptionKind) :
    ∀ index, ∃ texts,
      Gives Warning.addTo (dropdownOptions tree node index kinds) texts
          ((kinds.mapIdx fun place =>
            optionReports tree node (index + place)).flatten) ∧
        List.Forall₂ (Lays isPlain) texts
          (kinds.mapIdx fun place => optionValue tree node (index + place)) := by
  induction kinds with
  | nil => exact fun index => ⟨[], Gives.done [], .nil⟩
  | cons kind kinds kinds_ih =>
      intro index
      rcases renders_dropdownOption tree node index kind with
        ⟨text, gives, lays⟩
      rcases kinds_ih (index + 1) with ⟨texts, givesRest, laysRest⟩
      have shift : ∀ place, index + 1 + place = index + (place + 1) := by
        intro place
        omega
      simp only [shift] at givesRest laysRest
      refine ⟨text :: texts, ?_, ?_⟩
      · rw [List.mapIdx_cons, List.flatten_cons]
        exact gives.bind (givesRest.bind_pure _)
      · rw [List.mapIdx_cons]
        exact .cons lays laysRest

theorem renders_fieldDropdown (tree : BlockTree) (node : NodeId) :
    Renders (fieldDropdown tree node) (kindValue tree node .fieldDropdown)
      (kindReports tree node .fieldDropdown) := by
  rcases renders_dropdownOptions tree node (dropdownKinds tree node) 0 with
    ⟨texts, gives, lays⟩
  simp only [Nat.zero_add] at gives lays
  exact ⟨_, gives.bind_pure _,
    lays_namedField "field_dropdown" "options" (Json.lays_array lays) tree node⟩

/-! ## Type constraints -/

theorem constraintWithin_eq {rank : NodeId → Nat} (coherent : tree.Coherent rank)
    {first : Nat} :
    ∀ {second id}, tree.size < first + rank id → tree.size < second + rank id →
      constraintWithin tree first id = constraintWithin tree second id := by
  induction first with
  | zero =>
      intro second id enough
      have bounded := coherent.rank_le id
      omega
  | succ first first_ih =>
      intro second id enough enoughSecond
      cases second with
      | zero =>
          have bounded := coherent.rank_le id
          omega
      | succ second =>
          have members : ∀ index,
              (tree.slotTarget id (Slot.member index)).bind
                  (constraintWithin tree first) =
                (tree.slotTarget id (Slot.member index)).bind
                  (constraintWithin tree second) := by
            intro index
            cases target : tree.slotTarget id (Slot.member index) with
            | none => rfl
            | some member =>
                have less := coherent.slot_lt target
                exact first_ih (by omega) (by omega)
          simp only [constraintWithin, members]

/-- A type group has the values of its members, if one of them has one. -/
theorem constraintValue_typeGroup {rank : NodeId → Nat}
    (coherent : tree.Coherent rank)
    (group : tree.kind node = some .typeGroup) :
    constraintValue tree node =
      let members := (List.range (memberCount tree node)).filterMap fun index =>
        (tree.slotTarget node (Slot.member index)).bind (constraintValue tree)
      if members = [] then none else some (.array members) := by
  have members : ∀ index,
      (tree.slotTarget node (Slot.member index)).bind
          (constraintWithin tree tree.size) =
        (tree.slotTarget node (Slot.member index)).bind
          (constraintValue tree) := by
    intro index
    cases target : tree.slotTarget node (Slot.member index) with
    | none => rfl
    | some member =>
        have less := coherent.slot_lt target
        exact constraintWithin_eq coherent (by omega) (by omega)
  simp only [constraintValue, constraintWithin, group, members]

/-- Texts that show nothing are left out. -/
theorem lays_nonempty {texts : List String} {values : List (Option Value)}
    (shows : List.Forall₂ Shows texts values) :
    List.Forall₂ (Lays isPlain) (nonempty texts) (values.filterMap id) := by
  induction shows with
  | nil => exact .nil
  | cons first others others_ih =>
      rename_i text value texts values
      cases value with
      | none =>
          cases first
          exact others_ih
      | some value =>
          have kept : nonempty (text :: texts) = text :: nonempty texts := by
            simp [nonempty, Json.Lays.ne_empty first]
          rw [kept]
          exact .cons first others_ih

theorem shows_typeGroup {texts : List String} {values : List (Option Value)}
    (shows : List.Forall₂ Shows texts values) :
    Shows
      (if (nonempty texts).isEmpty then "" else Json.inlineArray (nonempty texts))
      (if values.filterMap id = [] then none
        else some (.array (values.filterMap id))) := by
  have lays := lays_nonempty shows
  cases kept : nonempty texts with
  | nil =>
      rw [kept] at lays
      generalize values.filterMap id = members at lays ⊢
      cases lays
      rfl
  | cons text texts =>
      rw [kept] at lays
      generalize values.filterMap id = members at lays ⊢
      have array := Json.lays_inlineArray lays (by simp)
      cases lays
      exact array

/-- A type slot gives the fragment of the constraint in it, and nothing without
a constraint. -/
theorem gives_slotTarget {rank : NodeId → Nat} (coherent : tree.Coherent rank)
    {owner : NodeId} {name : String} {depth : Nat}
    (enough : tree.size ≤ depth + rank owner)
    (codes : ∀ {target}, tree.slotTarget owner name = some target →
      (producer tree).Codes tree rank Warning.addTo target
        (fun text => Shows text (constraintValue tree target)) []) :
    ∃ text,
      Shows text ((tree.slotTarget owner name).bind (constraintValue tree)) ∧
        Gives Warning.addTo
          (match tree.slotTarget owner name with
            | some target => (producer tree).walkWithin tree depth target true
            | none => return "")
          text [] := by
  cases held : tree.slotTarget owner name with
  | none => exact ⟨"", rfl, Gives.done ""⟩
  | some target =>
      have less := coherent.slot_lt held
      exact (codes held).walkWithin coherent (by omega)

/-- The fragments of the members of a type group make up its own. -/
theorem gives_typeGroup {rank : NodeId → Nat}
    (coherent : tree.Coherent rank) {id : NodeId}
    (ofKind : tree.kind id = some .typeGroup) {depth : Nat}
    (enough : tree.size ≤ depth + rank id)
    (codes : ∀ {index target},
      tree.slotTarget id (Slot.member index) = some target →
        (producer tree).Codes tree rank Warning.addTo target
          (fun text => Shows text (constraintValue tree target)) []) :
    ∃ text, Shows text (constraintValue tree id) ∧
      Gives Warning.addTo
        (typeGroup ((producer tree).walkWithin tree depth) tree id) text [] := by
  have members : ∀ index ∈ List.range (memberCount tree id),
      ∃ text,
        Shows text ((tree.slotTarget id (Slot.member index)).bind
            (constraintValue tree)) ∧
          Gives Warning.addTo
            (memberCode ((producer tree).walkWithin tree depth) tree id index)
            text [] :=
    fun index _ => gives_slotTarget coherent enough codes
  rcases Gives.mapM members with ⟨texts, shows, gives⟩
  have values : List.Forall₂ Shows texts
      ((List.range (memberCount tree id)).map fun index =>
        (tree.slotTarget id (Slot.member index)).bind
          (constraintValue tree)) := by
    rw [List.forall₂_map_right_iff]
    exact shows.flip
  have noEntries : (List.range (memberCount tree id)).flatMap
      (fun _ => ([] : List Warning)) = [] := by
    simp
  rw [noEntries] at gives
  refine ⟨_, ?_, gives.bind_pure _⟩
  have group := shows_typeGroup values
  rw [List.filterMap_map] at group
  rw [constraintValue_typeGroup coherent ofKind]
  exact group

/-- The generator gives every type constraint a fragment that shows its
value. -/
theorem codes_constraint {rank : NodeId → Nat} (coherent : tree.Coherent rank)
    {id : NodeId} {kind : Kind} (ofKind : tree.kind id = some kind)
    (constraint : kind.isTypeConstraint = true) :
    tree.isLive id = true →
      (producer tree).Codes tree rank Warning.addTo id
        (fun text => Shows text (constraintValue tree id)) [] := by
  refine coherent.constraint_induction
    (fun id => tree.isLive id = true →
      (producer tree).Codes tree rank Warning.addTo id
        (fun text => Shows text (constraintValue tree id)) [])
    ?_ ofKind constraint
  intro id kind ofKind constraint members live
  refine ⟨kind, ofKind, .inr live, fun depth deep => ?_⟩
  have value : ∀ {known : Value},
      constraintWithin tree (tree.size + 1) id = some known →
        ∀ {text}, Lays isPlain text known →
          Shows text (constraintValue tree id) := by
    intro known found text lays
    rw [constraintValue, found]
    exact lays
  cases kind with
  | typeNull =>
      refine ⟨"", ?_, Gives.done ""⟩
      simp [constraintValue, constraintWithin, ofKind, Shows]
  | typeBoolean =>
      exact ⟨_, value (by simp only [constraintWithin, ofKind])
        (Json.lays_quote "Boolean"), Gives.done _⟩
  | typeNumber =>
      exact ⟨_, value (by simp only [constraintWithin, ofKind])
        (Json.lays_quote "Number"), Gives.done _⟩
  | typeString =>
      exact ⟨_, value (by simp only [constraintWithin, ofKind])
        (Json.lays_quote "String"), Gives.done _⟩
  | typeList =>
      exact ⟨_, value (by simp only [constraintWithin, ofKind])
        (Json.lays_quote "Array"), Gives.done _⟩
  | typeOther =>
      refine ⟨typeOther tree id, ?_, Gives.done _⟩
      simp only [constraintValue, constraintWithin, ofKind, typeOther]
      split_ifs
      · rfl
      · exact Json.lays_quote _
  | typeGroup =>
      apply gives_typeGroup coherent ofKind deep
      intro index member held
      have inChain := coherent.mem_chain_of_slotTarget held
      exact members inChain (coherent.isLive_of_mem_chain live inChain)
  | _ => cases constraint

/-! ## Inputs -/

theorem gives_typeCheck {rank : NodeId → Nat} (coherent : tree.Coherent rank)
    (hasSlot : tree.hasSlot node Slot.type = true)
    (live : tree.isLive node = true) {depth : Nat}
    (enough : tree.size ≤ depth + rank node) :
    ∃ text,
      Shows text
          ((tree.slotTarget node Slot.type).bind (constraintValue tree)) ∧
        Gives Warning.addTo
          (typeCheck ((producer tree).walkWithin tree depth) tree node) text
          [] := by
  unfold typeCheck
  rw [if_pos hasSlot]
  apply gives_slotTarget coherent enough
  intro constraint held
  have inChain := coherent.mem_chain_of_slotTarget held
  rcases coherent.exists_kind_of_mem_type Slot.isType_type inChain with
    ⟨kind, ofKind, isConstraint⟩
  exact codes_constraint coherent ofKind isConstraint
    (coherent.isLive_of_mem_chain live inChain)

theorem renders_input {rank : NodeId → Nat} (coherent : tree.Coherent rank)
    (jsonType : String) (hasSlot : tree.hasSlot node Slot.type = true)
    (live : tree.isLive node = true) {depth : Nat}
    (enough : tree.size ≤ depth + rank node) :
    Renders (input jsonType ((producer tree).walkWithin tree depth) tree node)
      (inputValue jsonType tree node) [] := by
  rcases gives_typeCheck coherent hasSlot live enough with ⟨check, shows, gives⟩
  refine ⟨_, gives.bind_pure _, ?_⟩
  apply Json.lays_object
  refine List.rel_append (List.rel_append ?_ ?_) ?_
  · exact .cons (laysEntry_quote "type" jsonType)
      (.cons (laysEntry_quote "name" _) .nil)
  · exact lays_alignEntries tree node
  · unfold checkMembers
    generalize (tree.slotTarget node Slot.type).bind (constraintValue tree) =
      value at shows
    cases value with
    | none =>
        have empty : check = "" := shows
        rw [if_pos empty]
        exact .nil
    | some value =>
        have lays : Lays isPlain check value := shows
        rw [if_neg lays.ne_empty]
        exact .cons ⟨rfl, lays⟩ .nil

/-! ## Arguments -/

/-- The generator gives every input and every field a fragment that lays out its
value. -/
theorem codes_argument {rank : NodeId → Nat} (coherent : tree.Coherent rank)
    {kind : Kind} (ofKind : tree.kind node = some kind)
    (argument : kind.isInput = true ∨ kind.isField = true)
    (live : tree.isLive node = true) :
    (producer tree).Codes tree rank Warning.addTo node
      (fun code => Lays isPlain code (argumentValue tree node))
      (reports tree node) := by
  have value : argumentValue tree node = kindValue tree node kind := by
    simp [argumentValue, ofKind]
  have reported : reports tree node = kindReports tree node kind := by
    simp [reports, ofKind]
  rw [value, reported]
  refine ⟨kind, ofKind, .inr live, fun depth enough => ?_⟩
  have renders : Renders
      ((producer tree).produce ((producer tree).walkWithin tree depth) node kind)
      (kindValue tree node kind) (kindReports tree node kind) := by
    cases kind with
    | dummyInput =>
        exact ⟨_, Gives.done _, Json.lays_object
          (.cons (laysEntry_quote "type" _) (lays_alignEntries tree node))⟩
    | inputValue =>
        exact renders_input coherent _
          (coherent.hasSlot_of_mem ofKind (by decide)) live enough
    | inputStatement =>
        exact renders_input coherent _
          (coherent.hasSlot_of_mem ofKind (by decide)) live enough
    | textInput =>
        exact ⟨_, Gives.done _, lays_namedField _ _ (Json.lays_quote _) tree node⟩
    | textLabel =>
        exact ⟨_, Gives.done _, lays_namedField _ _ (Json.lays_quote _) tree node⟩
    | numericInput => exact renders_numericInput tree node
    | angleInput =>
        exact ⟨_, (gives_numberField tree node _).bind_pure _,
          lays_namedField _ _ (Json.lays_numberText _) tree node⟩
    | fieldDropdown => exact renders_fieldDropdown tree node
    | fieldCheckbox =>
        exact ⟨_, (gives_boolField tree node _).bind_pure _,
          lays_namedField _ _ (Json.lays_boolText _) tree node⟩
    | fieldColour =>
        exact ⟨_, Gives.done _, lays_namedField _ _ (Json.lays_quote _) tree node⟩
    | fieldVariable =>
        exact ⟨_, Gives.done _, lays_namedField _ _ (Json.lays_quote _) tree node⟩
    | fieldImage => exact renders_fieldImage tree node
    | _ => rcases argument with impossible | impossible <;> cases impossible
  rcases renders with ⟨text, gives, lays⟩
  exact ⟨text, lays, gives⟩

end

end BlockForge.Definition
