import BlockForge.Generation.Artifact

/-!
# Names in glue code

Text that a user wrote reaches glue code through cleaned names only.  This holds
for every tree from which glue code is generated, however its links run: a pass
that ends has only added variables with cleaned names, and reported nothing.

`Keeps` states that a pass keeps a property of its state wherever it ends.  One
step of a walk keeps it if the code of a node does, and
`Producer.keeps_walkWithin` derives this for whole walks by induction on the
depth.  `Glue.generate?_named` says what follows for the glue code of a node, and
`Glue.generate?_eq_some_iff` that it comes without warnings.
-/

namespace BlockForge

/-- Wherever a pass ends, it keeps a property of the state. -/
def Keeps {σ α : Type} (holds : σ → Prop) (pass : Pass σ α) : Prop :=
  ∀ state result after, pass.run state = some (result, after) →
    holds state → holds after

namespace Keeps

variable {σ α β : Type} {holds : σ → Prop}

theorem done (result : α) : Keeps holds (pure result : Pass σ α) := by
  rintro state _ after ⟨⟩ held
  exact held

theorem bind {pass : Pass σ α} {next : α → Pass σ β}
    (keeps : Keeps holds pass) (continues : ∀ result, Keeps holds (next result)) :
    Keeps holds (pass >>= next) := by
  intro state result after ends held
  rw [StateT.run_bind] at ends
  rcases Option.bind_eq_some_iff.mp ends with ⟨⟨first, between⟩, starts, goesOn⟩
  exact continues first between result after goesOn
    (keeps state first between starts held)

theorem mapM {item : α → Pass σ β} (each : ∀ member, Keeps holds (item member))
    (list : List α) : Keeps holds (list.mapM item) := by
  induction list with
  | nil => exact done []
  | cons head rest rest_ih =>
      rw [List.mapM_cons]
      exact (each head).bind fun _ => rest_ih.bind fun _ => done _

theorem slotCode {steps : Walk σ}
    (walks : ∀ node thisOnly, Keeps holds (steps node thisOnly))
    (tree : BlockTree) (node : NodeId) (name : String) :
    Keeps holds (slotCode steps tree node name) := by
  unfold BlockForge.slotCode
  split
  · exact walks _ false
  · exact done ""

end Keeps

/-- A walk keeps what the code of every node keeps as long as the walks below
the node do. -/
theorem Producer.keeps_walkWithin {σ : Type} {holds : σ → Prop}
    {producer : Producer σ}
    (produces : ∀ {steps : Walk σ},
      (∀ node thisOnly, Keeps holds (steps node thisOnly)) →
        ∀ node kind, Keeps holds (producer.produce steps node kind))
    (tree : BlockTree) (depth : Nat) :
    ∀ node thisOnly, Keeps holds (producer.walkWithin tree depth node thisOnly) := by
  induction depth with
  | zero =>
      intro node thisOnly state result after ends
      cases ends
  | succ depth depth_ih =>
      intro node thisOnly
      unfold walkWithin
      split
      · exact Keeps.done ""
      · rename_i kind _
        split
        · exact Keeps.done ""
        · refine (produces depth_ih node kind).bind fun code => ?_
          split
          · exact Keeps.done code
          · rename_i next _
            split
            · exact Keeps.done code
            · exact (depth_ih next false).bind fun _ => Keeps.done _

namespace Variable

/-- Cleaned names give local variables that are names. -/
theorem isName_localName {declared : Variable}
    (isName : Text.IsName declared.parameter) :
    Text.IsName declared.localName := by
  have word : Text.IsName declared.role.word := by
    cases declared.role <;> decide
  intro char member
  rw [localName, String.toList_append, String.toList_append, List.mem_append,
    List.mem_append] at member
  rcases member with (inWord | separator) | inName
  · exact word char inWord
  · rw [List.mem_singleton.mp separator]
    decide
  · exact isName.lowerVisible char inName

end Variable

namespace Glue

/-- Variables whose parameters are names. -/
def AllNamed (arguments : List Variable) : Prop :=
  ∀ declared ∈ arguments, Text.IsName declared.parameter

/-- Glue code that holds nothing but names of the text that a user wrote: the
name under which it registers a block, and the parameters. -/
structure Named (glue : Glue) : Prop where
  name : Text.IsName glue.name
  arguments : AllNamed glue.arguments
  declaration_eq : glue.declaration = declarationText glue.name glue.arguments

/-- What holds of the state throughout a pass. -/
structure State.Clean (state : State) : Prop where
  named : AllNamed state.arguments
  silent : state.warnings = []

theorem keeps_declare (tree : BlockTree) (node : NodeId) (role : Role) :
    Keeps State.Clean (declare tree node role) := by
  rintro state _ after ⟨⟩ ⟨named, silent⟩
  refine ⟨?_, silent⟩
  intro declared member
  rcases List.mem_append.mp member with earlier | new
  · exact named declared earlier
  · rw [List.mem_singleton.mp new]
    exact Text.isName_cleanName _

theorem keeps_produce (tree : BlockTree) {steps : Walk State}
    (walks : ∀ node thisOnly, Keeps State.Clean (steps node thisOnly))
    (node : NodeId) (kind : Kind) :
    Keeps State.Clean (produce tree steps node kind) := by
  have items : ∀ item, Keeps State.Clean (itemCode steps tree item) :=
    fun item => (walks item true).bind fun _ =>
      (Keeps.slotCode walks tree item Slot.fields).bind fun _ => Keeps.done _
  have reads : Keeps State.Clean (get : Declaring State) := by
    rintro state _ after ⟨⟩ held
    exact held
  unfold produce
  split
  · exact (Keeps.mapM items _).bind fun _ => reads.bind fun _ => Keeps.done _
  · split
    · exact keeps_declare tree node _
    · exact Keeps.done ""

section

variable {tree : BlockTree} {root : NodeId} {glue : Glue}

/-- Whatever the links of a tree are, its glue code holds cleaned names, and
nothing is reported. -/
theorem withWarnings?_clean {warnings : List Warning}
    (generates : withWarnings? tree root = some (glue, warnings)) :
    glue.Named ∧ warnings = [] := by
  rcases Option.map_eq_some_iff.mp generates with
    ⟨⟨body, state⟩, walked, made⟩
  have keeps : Keeps State.Clean (walk tree root true) :=
    Producer.keeps_walkWithin (keeps_produce tree) tree _ root true
  have clean := keeps _ _ _ walked ⟨fun _ member => (nomatch member), rfl⟩
  cases made
  refine ⟨{ name := ?_, arguments := clean.named, declaration_eq := rfl },
    clean.silent⟩
  dsimp only
  split
  · exact Text.isName_cleanName _
  · intro char member
    cases member

theorem generate?_eq_some_iff :
    generate? tree root = some glue ↔
      withWarnings? tree root = some (glue, []) := by
  rw [generate?, Option.map_eq_some_iff]
  constructor
  · rintro ⟨⟨_, warnings⟩, generates, rfl⟩
    rw [generates, (withWarnings?_clean generates).2]
  · exact fun generates => ⟨_, generates, rfl⟩

theorem generate?_named (generates : generate? tree root = some glue) :
    glue.Named :=
  (withWarnings?_clean (generate?_eq_some_iff.mp generates)).1

end

end Glue

end BlockForge
