import BlockForge.Proofs.Generation.Fragment

/-!
# The document of a block

The fragments of the arguments are joined to lines of an array in two steps, the
fields of an item and then the items of the block; `array_nonempty` shows that
the array has all of them as its items.  `renders_blockCreator` puts the whole
document together, and `exists_generated` reads it back.
-/

namespace BlockForge.Definition

open Json (Value Lays LaysEntry)
open Json.NumberLiteral (isPlain)

/-! ## Joined fragments -/

/-- Texts joined as the items of an array. -/
def joined (texts : List String) : String :=
  ",\n".intercalate texts

theorem joined_cons_of_ne_nil (text : String) {texts : List String}
    (some : texts ≠ []) : joined (text :: texts) = text ++ ",\n" ++ joined texts :=
  String.intercalate_cons_of_ne_nil some

theorem joined_eq_empty_iff {texts : List String}
    (nonempty : ∀ text ∈ texts, text ≠ "") : joined texts = "" ↔ texts = [] := by
  cases texts with
  | nil => exact ⟨fun _ => rfl, fun _ => rfl⟩
  | cons text texts =>
      refine ⟨fun empty => ?_, fun none => by cases none⟩
      have first : text ≠ "" := nonempty text (by simp)
      cases texts with
      | nil => exact absurd (by simpa [joined] using empty) first
      | cons next texts =>
          rw [joined_cons_of_ne_nil text (by simp)] at empty
          simp [String.append_eq_empty_iff] at empty

theorem foldr_join {codes : List String} (nonempty : ∀ code ∈ codes, code ≠ "") :
    codes.foldr join "" = joined codes := by
  induction codes with
  | nil => rfl
  | cons code codes codes_ih =>
      rw [List.forall_mem_cons] at nonempty
      rw [List.foldr_cons, codes_ih nonempty.2, join]
      by_cases none : codes = []
      · subst none
        simp [joined]
      · rw [if_neg fun empty =>
          none ((joined_eq_empty_iff nonempty.2).mp empty),
          joined_cons_of_ne_nil code none]

/-- Joining joined groups joins all their texts. -/
theorem joined_map_joined {groups : List (List String)}
    (some : ∀ group ∈ groups, group ≠ []) :
    joined (groups.map joined) = joined groups.flatten := by
  induction groups with
  | nil => rfl
  | cons group groups groups_ih =>
      rw [List.forall_mem_cons] at some
      rw [List.map_cons, List.flatten_cons]
      by_cases none : groups = []
      · subst none
        simp [joined]
      · have others : groups.flatten ≠ [] := by
          rcases List.exists_cons_of_ne_nil none with ⟨second, rest, rfl⟩
          simp [some.2 second (by simp)]
        rw [joined_cons_of_ne_nil _ (by simpa using none), groups_ih some.2]
        exact (String.intercalate_append_of_ne_nil some.1 others).symm

/-- Groups without texts leave no trace. -/
theorem nonempty_map_joined {groups : List (List String)}
    (texts : ∀ group ∈ groups, ∀ text ∈ group, text ≠ "") :
    nonempty (groups.map joined) =
      (groups.filter fun group => !group.isEmpty).map joined := by
  induction groups with
  | nil => rfl
  | cons group groups groups_ih =>
      rw [List.forall_mem_cons] at texts
      have empty := joined_eq_empty_iff texts.1
      have others := groups_ih texts.2
      by_cases none : group = []
      · simpa [nonempty, none, joined] using others
      · have kept : joined group ≠ "" := fun same => none (empty.mp same)
        have first : nonempty (joined group :: groups.map joined) =
            joined group :: nonempty (groups.map joined) := by
          simp [nonempty, kept]
        rw [List.map_cons, first, others]
        simp [none]

theorem flatten_filter_isEmpty (groups : List (List String)) :
    (groups.filter fun group => !group.isEmpty).flatten = groups.flatten := by
  induction groups with
  | nil => rfl
  | cons group groups groups_ih =>
      cases group with
      | nil => simpa using groups_ih
      | cons text texts => simp [groups_ih]

theorem array_of_ne_nil {texts : List String} (some : texts ≠ []) :
    Json.array texts = Json.enclose "[" "]" (joined texts) := by
  have notEmpty : texts.isEmpty = false := by simpa using some
  simp only [Json.array, notEmpty]
  rfl

/-- An array of joined groups is the array of all their texts. -/
theorem array_nonempty {groups : List (List String)}
    (texts : ∀ group ∈ groups, ∀ text ∈ group, text ≠ "") :
    Json.array (nonempty (groups.map joined)) = Json.array groups.flatten ∧
      ((nonempty (groups.map joined)).isEmpty ↔ groups.flatten = []) := by
  have some : ∀ group ∈ groups.filter fun group => !group.isEmpty,
      group ≠ [] := by
    intro group member
    simpa using (List.mem_filter.mp member).2
  rw [nonempty_map_joined texts, ← flatten_filter_isEmpty groups]
  generalize groups.filter (fun group => !group.isEmpty) = full at some
  have body := joined_map_joined some
  cases full with
  | nil => simp
  | cons group rest =>
      have notEmpty : (group :: rest).flatten ≠ [] := by
        simp [some group (by simp)]
      refine ⟨?_, by simp [some group (by simp)]⟩
      rw [array_of_ne_nil (by simp), array_of_ne_nil notEmpty, body]

/-! ## The block creator -/

/-- Texts lay out the values of arguments. -/
def LaysArguments (tree : BlockTree) (nodes : List NodeId)
    (texts : List String) : Prop :=
  List.Forall₂ (fun node text => Lays isPlain text (argumentValue tree node))
    nodes texts

theorem LaysArguments.ne_empty {tree : BlockTree} {nodes : List NodeId}
    {texts : List String} (lays : LaysArguments tree nodes texts) :
    ∀ text ∈ texts, text ≠ "" :=
  Json.forall_mem_of_forall₂ lays.flip fun lays => lays.ne_empty

section

variable {tree : BlockTree} {rank : NodeId → Nat} {root : NodeId}

/-- The fields of an item give texts that lay them out, joined to one. -/
theorem gives_fieldCodes (coherent : tree.Coherent rank) {item : NodeId}
    (live : tree.isLive item = true) {depth : Nat}
    (enough : tree.size ≤ depth + rank item) :
    ∃ texts, LaysArguments tree (tree.fieldsOf item) texts ∧
      Gives Warning.addTo
        (slotCode ((producer tree).walkWithin tree depth) tree item Slot.fields)
        (joined texts) ((tree.fieldsOf item).flatMap (reports tree)) := by
  have fields : ∀ field ∈ tree.fieldsOf item,
      (producer tree).Codes tree rank Warning.addTo field
        (fun code => Lays isPlain code (argumentValue tree field))
        (reports tree field) := by
    intro field inFields
    rcases coherent.exists_kind_of_mem_fieldsOf inFields with
      ⟨kind, ofKind, isField⟩
    exact codes_argument coherent ofKind (.inr isField)
      (coherent.isLive_of_mem_chain live inFields)
  have joins : ∀ code, (producer tree).join code "" = code := fun _ => rfl
  rcases Producer.gives_slotCode coherent joins fields enough with
    ⟨texts, laysChain, gives⟩
  have lays : LaysArguments tree (tree.fieldsOf item) texts := laysChain
  refine ⟨texts, lays, ?_⟩
  rw [← foldr_join lays.ne_empty]
  exact gives

/-- An item gives a group of texts for its fields and one for itself; the latter
is empty if the item is left out. -/
theorem gives_itemCodes (coherent : tree.Coherent rank)
    (creator : tree.kind root = some .blockCreator) {item : NodeId}
    (member : item ∈ tree.items root) {depth : Nat}
    (enough : tree.size ≤ depth + rank root) :
    ∃ groups : List (List String),
      LaysArguments tree (tree.argumentsOf item) groups.flatten ∧
      Gives Warning.addTo
        (itemCodes ((producer tree).walkWithin tree depth) tree item)
        (nonempty (groups.map joined))
        ((tree.argumentsOf item).flatMap (reports tree)) := by
  have live := coherent.isLive_of_mem_items creator member
  have less := coherent.rank_lt_of_mem member
  have deep : tree.size < depth + rank item := by omega
  rcases gives_fieldCodes coherent live deep.le with
    ⟨fieldCodes, laysFields, givesFields⟩
  unfold itemCodes BlockTree.argumentsOf
  rw [List.flatMap_append]
  by_cases elided : isElided tree item = true
  -- The item itself gives the empty text, which is dropped like an empty group.
  · simp only [elided, if_true]
    refine ⟨[fieldCodes, []], by simpa using laysFields, ?_⟩
    exact givesFields.bind ((Gives.done "").bind_nil (Gives.done _))
  · rcases coherent.exists_kind_of_mem_items member with
      ⟨kind, ofKind, argument⟩
    have codes := codes_argument coherent ofKind argument live
    rcases codes.walkWithin coherent deep with ⟨ownCode, laysOwn, givesOwn⟩
    have single : joined [ownCode] = ownCode := String.intercalate_singleton
    have laysBoth : LaysArguments tree (tree.fieldsOf item ++ [item])
        (fieldCodes ++ [ownCode]) :=
      List.rel_append laysFields (.cons laysOwn .nil)
    simp only [elided, Bool.false_eq_true, if_false]
    refine ⟨[fieldCodes, [ownCode]], by simpa using laysBoth, ?_⟩
    rw [List.map_cons, List.map_cons, single, List.flatMap_singleton]
    exact givesFields.bind (givesOwn.bind_pure _)

/-- The items of a block give groups of texts that lay out its arguments. -/
theorem gives_items (coherent : tree.Coherent rank)
    (creator : tree.kind root = some .blockCreator) {depth : Nat}
    (enough : tree.size ≤ depth + rank root) :
    ∃ groups : List (List String),
      LaysArguments tree (tree.argumentNodes root) groups.flatten ∧
        ∃ codes : List (List String),
          codes.flatten = nonempty (groups.map joined) ∧
            Gives Warning.addTo
              ((tree.items root).mapM
                (itemCodes ((producer tree).walkWithin tree depth) tree))
              codes ((tree.argumentNodes root).flatMap (reports tree)) := by
  let grouped := fun (item : NodeId) (code : List String) =>
    ∃ groups : List (List String),
      LaysArguments tree (tree.argumentsOf item) groups.flatten ∧
        code = nonempty (groups.map joined)
  have each : ∀ item ∈ tree.items root, ∃ code, grouped item code ∧
      Gives Warning.addTo
        (itemCodes ((producer tree).walkWithin tree depth) tree item) code
        ((tree.argumentsOf item).flatMap (reports tree)) := by
    intro item member
    rcases gives_itemCodes coherent creator member enough with
      ⟨groups, lays, gives⟩
    exact ⟨_, ⟨groups, lays, rfl⟩, gives⟩
  rcases Gives.mapM each with ⟨codes, all, gives⟩
  rw [← List.flatMap_assoc] at gives
  have together : ∃ groups : List (List String),
      LaysArguments tree (tree.argumentNodes root) groups.flatten ∧
        codes.flatten = nonempty (groups.map joined) := by
    unfold BlockTree.argumentNodes
    clear gives each
    generalize tree.items root = items at all ⊢
    induction all with
    | nil => exact ⟨[], .nil, rfl⟩
    | cons first others others_ih =>
        rcases first with ⟨group, lays, code⟩
        rcases others_ih with ⟨groups, laysRest, codes⟩
        refine ⟨group ++ groups, ?_, ?_⟩
        · rw [List.flatten_append]
          exact List.rel_append lays laysRest
        · rw [List.flatten_cons, code, codes, List.map_append]
          exact (List.filter_append ..).symm
  rcases together with ⟨groups, lays, flattened⟩
  exact ⟨groups, lays, codes, flattened, gives⟩

theorem gives_noLiveFields {next : Reporting String} {text : String}
    (gives : Gives Warning.addTo next text []) (root : NodeId) (count : Nat) :
    Gives Warning.addTo
      (if count = 0 then warn .noLiveFields root >>= fun _ => next else next)
      text (if count = 0 then [⟨.noLiveFields, root⟩] else []) := by
  split_ifs
  · exact (Gives.one _).bind gives
  · exact gives

/-- The entries of the arguments: the placeholders and the arguments themselves,
none without arguments. -/
theorem lays_arguments {nodes : List NodeId} {groups : List (List String)}
    (lays : LaysArguments tree nodes groups.flatten) :
    List.Forall₂ (LaysEntry isPlain)
      ((if nodes.length = 0 then []
          else [("message0", Json.quote (placeholders nodes.length))]) ++
        (if (nonempty (groups.map joined)).isEmpty then []
          else [("args0", Json.array (nonempty (groups.map joined)))]))
      (if nodes.map (argumentValue tree) = [] then []
        else [("message0",
            .string (placeholders (nodes.map (argumentValue tree)).length)),
          ("args0", .array (nodes.map (argumentValue tree)))]) := by
  have texts : ∀ group ∈ groups, ∀ text ∈ group, text ≠ "" := by
    intro group inGroups text inGroup
    exact lays.ne_empty text (List.mem_flatten.mpr ⟨group, inGroups, inGroup⟩)
  rcases array_nonempty texts with ⟨array, isEmpty⟩
  rw [array, List.length_map]
  have values : List.Forall₂ (Lays isPlain) groups.flatten
      (nodes.map (argumentValue tree)) := by
    rw [List.forall₂_map_right_iff]
    exact lays.flip
  have length := lays.length_eq
  by_cases none : nodes = []
  · subst none
    have noTexts : groups.flatten = [] :=
      List.length_eq_zero_iff.mp length.symm
    simp only [List.length_nil, isEmpty.mpr noTexts, List.map_nil]
    exact .nil
  · have some : nodes.length ≠ 0 := by simpa using none
    have someTexts : ¬ (nonempty (groups.map joined)).isEmpty = true := by
      intro empty
      rw [isEmpty.mp empty] at length
      exact some length
    rw [if_neg some, if_neg someTexts, if_neg (by simpa using none)]
    exact .cons (laysEntry_quote "message0" _)
      (.cons ⟨rfl, Json.lays_array values⟩ .nil)

/-- The hue of blocks without a category stands for itself. -/
theorem isPlain_defaultHue :
    isPlain ⟨false, Nat.toDigits 10 defaultHue, [], 0⟩ = true := by
  decide +kernel

/-- The fragment of a block creator is the document of its block. -/
theorem renders_blockCreator (coherent : tree.Coherent rank)
    (creator : tree.kind root = some .blockCreator) {depth : Nat}
    (enough : tree.size ≤ depth + rank root) :
    Renders (blockCreator ((producer tree).walkWithin tree depth) tree root)
      (documentValue tree root) (documentReports tree root) := by
  rcases gives_items coherent creator enough with
    ⟨groups, lays, codes, flattened, gives⟩
  have count : (tree.descendants root).length -
      (1 + (tree.descendants root).countP (fun id =>
          (tree.kind id).any Kind.isTypeConstraint) +
        (tree.chain root Slot.inputs).countP (isElided tree)) =
        (tree.argumentNodes root).length := by
    have length := coherent.length_descendants creator
    change _ - (_ + (tree.items root).countP (isElided tree)) = _
    omega
  have below : Gives Warning.addTo
      (liftM (tree.descendants? root) : Reporting (List NodeId))
      (tree.descendants root) [] :=
    Gives.lift (coherent.descendants?_eq_some root)
  have counted : Gives Warning.addTo
      (liftM (tree.descendantCount? root) : Reporting Nat)
      (tree.descendants root).length [] :=
    Gives.lift (coherent.descendantCount?_eq_some root)
  have reported : documentReports tree root =
      (tree.argumentNodes root).flatMap (reports tree) ++
        if (tree.argumentNodes root).length = 0 then [⟨.noLiveFields, root⟩]
        else [] := by
    simp only [documentReports, List.length_eq_zero_iff]
  rw [reported]
  unfold blockCreator
  refine Exists.intro ?text (And.intro
    (gives.bind (below.bind_nil (counted.bind_nil ?finish))) ?lays)
  case finish =>
    dsimp only
    rw [count, flattened]
    exact gives_noLiveFields (Gives.done _) root _
  case lays =>
    apply Json.lays_object
    have arguments := lays_arguments lays
    simp only [List.append_assoc]
    refine List.rel_append (.cons (laysEntry_quote "type" _) .nil) ?_
    rw [← List.append_assoc]
    refine List.rel_append arguments (List.rel_append ?_ (List.rel_append ?_ ?_))
    · cases (InputLayout.ofOption
        (tree.text root FieldKey.inputLayout)).inputsInline? with
      | none => exact .nil
      | some inline => exact .cons (laysEntry_boolText "inputsInline" inline) .nil
    · rw [List.forall₂_map_left_iff, List.forall₂_map_right_iff,
        List.forall₂_same]
      exact fun key _ => ⟨rfl, Json.lays_null⟩
    · refine .cons ⟨rfl, ?_⟩ (.cons (laysEntry_quote "tooltip" _)
        (.cons (laysEntry_quote "helpUrl" _) .nil))
      cases Category.ofOption? (tree.text root FieldKey.blockCategory) with
      | none => exact Json.lays_toString isPlain_defaultHue
      | some known => exact Json.lays_quote known.colour

theorem codes_blockCreator (coherent : tree.Coherent rank)
    (creator : tree.kind root = some .blockCreator) :
    (producer tree).Codes tree rank Warning.addTo root
      (fun code => Lays isPlain code (documentValue tree root))
      (documentReports tree root) := by
  refine ⟨.blockCreator, creator, .inl rfl, fun depth enough => ?_⟩
  rcases renders_blockCreator coherent creator enough with ⟨text, gives, lays⟩
  exact ⟨text, lays, gives⟩

/-- The definition of a block is generated, its document lays out the value of
the block, and its warnings are the reports. -/
theorem exists_laid (coherent : tree.Coherent rank)
    (creator : tree.kind root = some .blockCreator) :
    ∃ definition,
      Definition.generate? tree root =
          some (definition, (documentReports tree root).foldl Warning.addTo []) ∧
        Lays isPlain definition.document (documentValue tree root) := by
  have deep : tree.size < 2 * tree.size + 1 + rank root := by omega
  rcases (codes_blockCreator coherent creator).walkWithin coherent deep with
    ⟨text, lays, gives⟩
  have walked : (walk tree root true).run [] =
      some (text, (documentReports tree root).foldl Warning.addTo []) :=
    gives []
  refine ⟨⟨text, typeName tree root⟩, ?_, lays⟩
  simp only [generate?, walked, creator, if_true, Option.map_some]

/-- The document of a block that is generated is read as the value of the
block. -/
theorem exists_generated (coherent : tree.Coherent rank)
    (creator : tree.kind root = some .blockCreator) :
    ∃ definition,
      Definition.generate? tree root =
          some (definition, (documentReports tree root).foldl Warning.addTo []) ∧
        Json.read? definition.document = some (documentValue tree root) := by
  rcases exists_laid coherent creator with ⟨definition, generated, lays⟩
  exact ⟨definition, generated, Json.read?_of_lays lays⟩

end

end BlockForge.Definition
