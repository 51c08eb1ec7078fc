import BlockForge.Proofs.Generation.GlueText
import BlockForge.Proofs.Text.Lowering

/-!
# Local variables

The glue code reads every argument of a block into a local variable.  The local
is called after the kind of the argument and the lower-case form of its name, so
two arguments of one kind share a local if their names differ in the case of
letters only, and never otherwise (`Variable.localName_eq_iff`).

A local that is shared holds what was assigned to it last: the call then gets
one argument twice and the other one not at all.  `run_locals_distinct_iff` says
that this happens exactly where locals are shared.
-/

namespace BlockForge

/-- In a list of assignments each one is the last of its name exactly if no name
comes twice. -/
theorem lookup_reverse_iff {α β : Type} [DecidableEq α] {pairs : List (α × β)}
    (distinct : pairs.Nodup) :
    (∀ pair ∈ pairs, pairs.reverse.lookup pair.1 = some pair.2) ↔
      (pairs.map Prod.fst).Nodup := by
  constructor
  · intro last
    apply List.Nodup.map_on ?_ distinct
    intro first inPairs second alsoInPairs same
    have value := last first inPairs
    rw [same, last second alsoInPairs] at value
    exact Prod.ext same (Option.some.inj value).symm
  · intro names pair member
    rcases List.append_of_mem (List.mem_reverse.mpr member) with
      ⟨before, after, split⟩
    have others : ((before ++ pair :: after).map Prod.fst).Nodup := by
      rw [← split, List.map_reverse]
      exact List.nodup_reverse.mpr names
    rw [List.map_append, List.map_cons, List.nodup_append] at others
    refine List.lookup_eq_some_iff.mpr ⟨before, after, split, ?_⟩
    intro earlier inBefore
    have differs := others.2.2 _ (List.mem_map_of_mem inBefore) _
      List.mem_cons_self
    simpa using Ne.symm differs

namespace Role

theorem underscore_notMem_word (role : Role) : '_' ∉ role.word.toList := by
  cases role <;> decide

/-- The expression that reads an argument tells the name of the argument. -/
theorem eq_of_accessor_eq {role : Role} {parameter other : String}
    (same : role.accessor parameter = role.accessor other) :
    parameter = other := by
  rcases role.exists_accessor_eq with ⟨opening, closing, accessor, _⟩
  rw [accessor, accessor, String.append_left_inj,
    String.append_right_inj] at same
  exact same

end Role

namespace Variable

/-- The first underscore of a local ends the word for the kind. -/
theorem splitOnce_localName (declared : Variable) :
    splitOnce ['_'] declared.localName.toList =
      some (declared.role.word.toList,
        (Text.lowerVisible declared.parameter).toList) := by
  have split := splitOnce_append declared.role.underscore_notMem_word []
    (Text.lowerVisible declared.parameter).toList
  simpa [localName] using split

/-- Two arguments share a local exactly if they are of one kind and their names
differ in the case of letters only. -/
theorem localName_eq_iff {declared other : Variable}
    (isName : Text.IsName declared.parameter)
    (otherIsName : Text.IsName other.parameter) :
    declared.localName = other.localName ↔
      declared.role = other.role ∧
        Text.SameLetters declared.parameter other.parameter := by
  rw [← Text.lowerVisible_eq_iff isName otherIsName]
  constructor
  · intro same
    have parts := splitOnce_localName declared
    rw [same, splitOnce_localName, Option.some.injEq, Prod.mk.injEq,
      String.toList_inj, String.toList_inj] at parts
    exact ⟨Role.word_injective parts.1.symm, parts.2.symm⟩
  · rintro ⟨role, lower⟩
    rw [localName, localName, role, lower]

/-- What the statement of an argument assigns. -/
def assigned (declared : Variable) : String × String :=
  (declared.localName, declared.role.accessor declared.parameter ++ ";")

theorem eq_of_assigned_eq {declared other : Variable}
    (isName : Text.IsName declared.parameter)
    (otherIsName : Text.IsName other.parameter)
    (same : declared.assigned = other.assigned) : declared = other := by
  rw [assigned, assigned, Prod.mk.injEq, localName_eq_iff isName otherIsName,
    String.append_left_inj] at same
  rcases declared with ⟨role, parameter⟩
  rcases other with ⟨otherRole, otherParameter⟩
  rcases same with ⟨⟨sameRole, _⟩, accessor⟩
  cases (sameRole : role = otherRole)
  exact congrArg (Variable.mk _) (Role.eq_of_accessor_eq accessor)

theorem localName_ne_code (declared : Variable) :
    declared.localName ≠ "code" := by
  intro same
  have parts := splitOnce_localName declared
  rw [same] at parts
  cases parts

end Variable

namespace Glue

/-- The expression that a body assigns to a variable last. -/
def lastAssigned? (body name : String) : Option String :=
  (assignments body.toList).reverse.lookup name

theorem nodup_localName_iff {arguments : List Variable}
    (named : AllNamed arguments) :
    (arguments.map Variable.localName).Nodup ↔
      arguments.Pairwise fun declared other =>
        declared.role = other.role →
          ¬ Text.SameLetters declared.parameter other.parameter := by
  rw [List.Nodup, List.pairwise_map]
  apply List.Pairwise.iff_of_mem
  intro declared other inArguments alsoInArguments
  rw [Ne, Variable.localName_eq_iff (named declared inArguments)
    (named other alsoInArguments), not_and]

section

variable {tree : BlockTree} {root : NodeId} {glue : Glue}
  (reads : ReadsArguments tree root glue)

include reads

/-- What a local holds in the end was assigned to it by an argument: the call is
assigned to another variable. -/
theorem ReadsArguments.lastAssigned?_eq (declared : Variable) :
    lastAssigned? glue.body declared.localName =
      (glue.arguments.map Variable.assigned).reverse.lookup
        declared.localName := by
  rcases reads.assignments_eq with ⟨expression, assigns⟩
  rw [lastAssigned?, assigns, List.reverse_append, List.reverse_singleton,
    List.singleton_append, List.lookup_cons,
    beq_eq_false_iff_ne.mpr declared.localName_ne_code]
  rfl

/-- Of arguments with different names each one is still in its local when the
block is called exactly if no local is shared. -/
theorem ReadsArguments.nodup_localName_iff_lastAssigned? (named : glue.Named)
    (distinct : (glue.arguments.map Variable.parameter).Nodup) :
    (glue.arguments.map Variable.localName).Nodup ↔
      ∀ declared ∈ glue.arguments,
        lastAssigned? glue.body declared.localName =
          some (declared.role.accessor declared.parameter ++ ";") := by
  have differ : (glue.arguments.map Variable.assigned).Nodup := by
    apply List.Nodup.map_on ?_ distinct.of_map
    intro declared inArguments other alsoInArguments same
    exact Variable.eq_of_assigned_eq (named.arguments declared inArguments)
      (named.arguments other alsoInArguments) same
  have names : glue.arguments.map Variable.localName =
      (glue.arguments.map Variable.assigned).map Prod.fst := by
    rw [List.map_map]
    rfl
  rw [names, ← lookup_reverse_iff differ, List.forall_mem_map]
  simp only [reads.lastAssigned?_eq]
  rfl

end

end Glue

namespace Workspace

/-- Whatever edits build a workspace, two arguments of a block are read into one
local exactly if they are of one kind and their names differ in the case of
letters only.  Where no two arguments have the same name, each argument is still
in its local when the block is called exactly if no local is shared. -/
theorem run_locals_distinct_iff (edits : List Edit) {root : NodeId}
    (creator : (run edits).kind? root = some .blockCreator) :
    ∃ glue, Glue.generate? (run edits).tree root = some glue ∧
      ((glue.arguments.map Variable.localName).Nodup ↔
        glue.arguments.Pairwise fun declared other =>
          declared.role = other.role →
            ¬ Text.SameLetters declared.parameter other.parameter) ∧
      ((glue.arguments.map Variable.parameter).Nodup →
        ((glue.arguments.map Variable.localName).Nodup ↔
          ∀ declared ∈ glue.arguments,
            Glue.lastAssigned? glue.body declared.localName =
              some (declared.role.accessor declared.parameter ++ ";"))) := by
  rcases exists_glue_run edits creator with ⟨glue, generates, named, reads⟩
  exact ⟨glue, generates, Glue.nodup_localName_iff named.arguments,
    reads.nodup_localName_iff_lastAssigned? named⟩

/-- Edits that build a block whose arguments have different names. -/
def parametersEdits : List Edit :=
  sampleEdits ++ [.setField 2 FieldKey.fieldName (.text "steps")]

theorem run_locals_distinct_iff_parameters :
    (run parametersEdits).kind? 0 = some .blockCreator ∧
      ∃ glue, Glue.generate? (run parametersEdits).tree 0 = some glue ∧
        (glue.arguments.map Variable.parameter).Nodup ∧
        (glue.arguments.map Variable.localName).Nodup ∧
        ∀ declared ∈ glue.arguments,
          Glue.lastAssigned? glue.body declared.localName =
            some (declared.role.accessor declared.parameter ++ ";") := by
  have creator : (run parametersEdits).kind? 0 = some .blockCreator := by
    decide +kernel
  rcases run_locals_distinct_iff parametersEdits creator with
    ⟨glue, generates, _, holds⟩
  rcases exists_glue_run parametersEdits creator with
    ⟨same, generatesSame, _, reads⟩
  cases generates.symm.trans generatesSame
  have parameters : (glue.arguments.map Variable.parameter).Nodup := by
    rw [reads.arguments_eq]
    decide +kernel
  have locals : (glue.arguments.map Variable.localName).Nodup := by
    rw [reads.arguments_eq]
    decide +kernel
  exact ⟨creator, glue, generates, parameters, locals,
    (holds parameters).mp locals⟩

/-- Edits that build a block with two fields whose names differ in the case of a
letter. -/
def casedEdits : List Edit :=
  [.addNode .blockCreator, .addNode .textInput, .addNode .textInput,
    .setField 1 FieldKey.fieldName (.text "A"),
    .setField 2 FieldKey.fieldName (.text "a"),
    .attach 0 "INPUTS" 1, .attach 0 "INPUTS" 2]

/-- Of two fields of one kind the second one is read into the local of the first
one. -/
theorem run_locals_shared :
    (run casedEdits).kind? 0 = some .blockCreator ∧
      ∃ glue, Glue.generate? (run casedEdits).tree 0 = some glue ∧
        glue.arguments.map Variable.parameter = ["A", "a"] ∧
        (glue.arguments.map Variable.parameter).Nodup ∧
        glue.arguments.map Variable.localName = ["text_a", "text_a"] ∧
        ¬ (glue.arguments.map Variable.localName).Nodup ∧
        Glue.lastAssigned? glue.body "text_a" =
          some "block.getFieldValue('a');" := by
  have creator : (run casedEdits).kind? 0 = some .blockCreator := by
    decide +kernel
  rcases exists_glue_run casedEdits creator with ⟨glue, generates, _, reads⟩
  have declared : glue.arguments = [⟨.text, "A"⟩, ⟨.text, "a"⟩] := by
    rw [reads.arguments_eq]
    decide +kernel
  have last := reads.lastAssigned?_eq ⟨.text, "a"⟩
  rw [declared] at last
  refine ⟨creator, glue, generates, ?_⟩
  rw [declared]
  refine ⟨rfl, by decide, by decide +kernel, by decide +kernel, ?_⟩
  exact last.trans (by decide +kernel)

end Workspace

end BlockForge
