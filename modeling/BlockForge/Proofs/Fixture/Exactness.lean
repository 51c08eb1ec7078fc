import BlockForge.Fixture.Verdict
import BlockForge.Proofs.BlockFile.Reachable
import BlockForge.Proofs.Generation.Artifact
import BlockForge.Proofs.Json.Scalable
import Mathlib.Tactic.MkIffOfInductiveProp

/-!
# Verdicts are exact

`Expectations.Met` says when a fixture should pass, without an order of checks:
an error occurs as it is expected, or an artifact is generated that has all the
texts, the message and the warnings that are expected.

A fixture passes exactly then, with one exception.  The message is read from the
definition by a reader that refuses the literals of some finite numbers, so a
fixture that asks for the message of a block with such a number fails
(`Expectations.Refused`), although its definition is a document.
`Fixture.run_exact` puts both together.
-/

namespace BlockForge

open Json (Value)
open Json.NumberLiteral (isScalable isPlain)

theorem Text.occursIn_iff {needle text : String} :
    Text.occursIn needle text = true ↔ needle.toList <:+: text.toList := by
  rw [Text.occursIn, Text.occursFrom_iff]
  constructor
  · rintro ⟨before, after, found⟩
    exact ⟨before, after, found.symm⟩
  · rintro ⟨before, after, found⟩
    exact ⟨before, after, found.symm⟩

/-- The number of arguments that a definition lists. -/
def Definition.argumentCount (document : Value) : Nat :=
  match document.member? "args0" with
  | some (.array arguments) => arguments.length
  | _ => 0

namespace Expectations

/-! ## What is expected -/

/-- An error is expected, and the text for it occurs in the error that there
is. -/
def ErrorMet (expected : Expectations) (actual : String) : Prop :=
  ∃ part, expected.error = some part ∧ part.toList <:+: actual.toList

/-- All texts of a list occur in a text. -/
def AllOccur (texts : List String) (actual : String) : Prop :=
  ∀ text ∈ texts, text.toList <:+: actual.toList

/-- No error is expected, and the texts that are expected occur in the parts of
an artifact. -/
@[mk_iff]
structure TextsMet (expected : Expectations) (artifact : Artifact) : Prop where
  error : expected.error = .none
  definition : AllOccur expected.definitionParts artifact.definition.document
  declaration : AllOccur expected.declarationParts artifact.glue.declaration
  body : AllOccur expected.bodyParts artifact.glue.body

/-- The message that is expected, if any, has a placeholder for each argument of
a definition. -/
def MessageMet (expected : Expectations) (document : Value) : Prop :=
  ∀ wanted ∈ expected.message,
    wanted = placeholders (Definition.argumentCount document)

/-- The warnings that are expected, if any, are as many as there are, and the
text for each occurs in the one at its place. -/
def WarningsMet (expected : Expectations) (warnings : List Warning) : Prop :=
  ∀ texts ∈ expected.warnings,
    List.Forall₂
      (fun text warning => text.toList <:+: warning.problem.message.toList)
      texts warnings

/-- What comes of a block file is as it is expected. -/
inductive Met (expected : Expectations) :
    Except (List LoadError) Workspace → Prop
  | load {errors : List LoadError}
      (error : expected.ErrorMet
        ("; ".intercalate (errors.map LoadError.message))) :
      Met expected (.error errors)
  | generation {workspace : Workspace} {problem : Problem}
      (fails : workspace.tree.generate? = some (.error problem))
      (error : expected.ErrorMet problem.message) :
      Met expected (.ok workspace)
  | success {workspace : Workspace} {generated : Generated} {document : Value}
      (generates : workspace.tree.generate? = some (.ok generated))
      (reads : Json.read? generated.artifact.definition.document =
        some document)
      (texts : expected.TextsMet generated.artifact)
      (message : expected.MessageMet document)
      (warnings : expected.WarningsMet generated.warnings) :
      Met expected (.ok workspace)

/-- The message of a block is asked for whose definition has a number of which
the literal is refused. -/
def AsksRefused (expected : Expectations) (document : Value) : Prop :=
  expected.message.isSome = true ∧
    ∃ number ∈ document.numbers, Json.takesNumber isScalable number = false

/-- Everything goes well up to the message, which cannot be read from the
definition. -/
inductive Refused (expected : Expectations) :
    Except (List LoadError) Workspace → Prop
  | mk {workspace : Workspace} {generated : Generated} {document : Value}
      (generates : workspace.tree.generate? = some (.ok generated))
      (reads : Json.read? generated.artifact.definition.document =
        some document)
      (texts : expected.TextsMet generated.artifact)
      (asks : expected.AsksRefused document) :
      Refused expected (.ok workspace)

section

variable {expected : Expectations} {workspace : Workspace}
  {generated : Generated} {document : Value}
  (generates : workspace.tree.generate? = some (.ok generated))
  (reads : Json.read? generated.artifact.definition.document = some document)

include generates reads

theorem met_iff_of_generates :
    expected.Met (.ok workspace) ↔
      expected.TextsMet generated.artifact ∧ expected.MessageMet document ∧
        expected.WarningsMet generated.warnings := by
  constructor
  · intro met
    cases met with
    | generation fails =>
        rw [generates] at fails
        cases fails
    | success succeeds read texts message warnings =>
        rw [generates] at succeeds
        cases succeeds
        rw [reads] at read
        cases read
        exact ⟨texts, message, warnings⟩
  · rintro ⟨texts, message, warnings⟩
    exact .success generates reads texts message warnings

theorem refused_iff_of_generates :
    expected.Refused (.ok workspace) ↔
      expected.TextsMet generated.artifact ∧ expected.AsksRefused document := by
  constructor
  · rintro ⟨succeeds, read, texts, asks⟩
    rw [generates] at succeeds
    cases succeeds
    rw [reads] at read
    cases read
    exact ⟨texts, asks⟩
  · rintro ⟨texts, asks⟩
    exact ⟨generates, reads, texts, asks⟩

end

/-! ## Checks -/

/-- A mismatch that says that the definition cannot be read. -/
def Unreadable (mismatch : Option Mismatch) : Prop :=
  ∃ fault, mismatch = some (.unreadable fault)

theorem unreadable_orElse (first second : Option Mismatch) :
    Unreadable (first <|> second) ↔
      Unreadable first ∨ first = .none ∧ Unreadable second := by
  simp only [Unreadable, Option.orElse_eq_some, exists_or, exists_and_left]

variable {expected : Expectations}

theorem errorMismatch?_eq_none_iff (stage : Stage) (actual : String) :
    expected.errorMismatch? stage actual = .none ↔ expected.ErrorMet actual := by
  unfold errorMismatch? ErrorMet
  cases expected.error with
  | none => simp
  | some part => simp [Text.occursIn_iff]

theorem not_unreadable_errorMismatch? (stage : Stage) (actual : String) :
    ¬ Unreadable (expected.errorMismatch? stage actual) := by
  rintro ⟨fault, same⟩
  unfold errorMismatch? at same
  split at same
  · split_ifs at same
    cases same
  · cases same

theorem textMismatch?_eq_none_iff (part actual : String) (texts : List String) :
    textMismatch? part actual texts = .none ↔ AllOccur texts actual := by
  simp [textMismatch?, AllOccur, Text.occursIn_iff]

theorem not_unreadable_textMismatch? (part actual : String)
    (texts : List String) :
    ¬ Unreadable (textMismatch? part actual texts) := by
  rintro ⟨fault, same⟩
  rcases Option.map_eq_some_iff.mp same with ⟨text, _, impossible⟩
  cases impossible

theorem firstWarningMismatch?_eq_none_iff {warnings texts : List String}
    (sameLength : warnings.length = texts.length) (index : Nat) :
    firstWarningMismatch? index warnings texts = .none ↔
      List.Forall₂ (fun text warning => text.toList <:+: warning.toList) texts
        warnings := by
  induction texts generalizing warnings index with
  | nil =>
      cases List.length_eq_zero_iff.mp sameLength
      simp [firstWarningMismatch?]
  | cons text texts texts_ih =>
      cases warnings with
      | nil => cases sameLength
      | cons warning warnings =>
          have others := texts_ih (Nat.succ.inj sameLength) (index + 1)
          rw [List.forall₂_cons, ← others, ← Text.occursIn_iff]
          cases occurs : Text.occursIn text warning <;>
            simp [firstWarningMismatch?, occurs]

theorem not_unreadable_firstWarningMismatch? :
    ∀ (index : Nat) (warnings texts : List String),
      ¬ Unreadable (firstWarningMismatch? index warnings texts)
  | _, [], _ => by simp [Unreadable, firstWarningMismatch?]
  | _, _ :: _, [] => by simp [Unreadable, firstWarningMismatch?]
  | index, warning :: warnings, text :: texts => by
      rw [firstWarningMismatch?]
      split_ifs
      · exact not_unreadable_firstWarningMismatch? (index + 1) warnings texts
      · simp [Unreadable]

theorem warningMismatch?_eq_none_iff (warnings : List Warning) :
    expected.warningMismatch?
        (warnings.map fun warning => warning.problem.message) = .none ↔
      expected.WarningsMet warnings := by
  unfold warningMismatch? WarningsMet
  cases expected.warnings with
  | none => simp
  | some texts =>
      simp only [Option.bind_some, Option.mem_some_iff, forall_eq']
      by_cases sameLength :
          (warnings.map fun warning => warning.problem.message).length =
            texts.length
      · rw [if_neg (not_not_intro sameLength),
          firstWarningMismatch?_eq_none_iff sameLength,
          List.forall₂_map_right_iff]
      · rw [if_pos sameLength]
        refine ⟨fun impossible => (by cases impossible), fun met => ?_⟩
        rw [List.length_map] at sameLength
        exact absurd met.length_eq.symm sameLength

theorem not_unreadable_warningMismatch? (actual : List String) :
    ¬ Unreadable (expected.warningMismatch? actual) := by
  rintro ⟨fault, same⟩
  rcases Option.bind_eq_some_iff.mp same with ⟨texts, _, found⟩
  split_ifs at found
  · cases found
  · exact not_unreadable_firstWarningMismatch? 0 actual texts ⟨fault, found⟩

/-! ## The message -/

/-- The message of a definition has a placeholder for each of its arguments. -/
def CountsArguments (document : Value) : Prop :=
  ((document.member? "message0").bind Value.text?).getD "" =
    placeholders (Definition.argumentCount document)

theorem countsArguments_documentValue (tree : BlockTree) (root : NodeId) :
    CountsArguments (Definition.documentValue tree root) := by
  rcases Definition.member?_documentValue tree root with ⟨message, arguments⟩
  rw [CountsArguments, Definition.argumentCount, message, arguments]
  split_ifs <;> rfl

section

variable {definition : String} {document : Value}
  (lays : Json.Lays isPlain definition document)
  (counts : CountsArguments document)

include lays counts

/-- The message is read, or a number is refused. -/
theorem messageOf_of_lays :
    ((∀ number ∈ document.numbers, Json.takesNumber isScalable number = true) →
        messageOf definition =
          .ok (placeholders (Definition.argumentCount document))) ∧
      ((∃ number ∈ document.numbers,
          Json.takesNumber isScalable number = false) →
        ∃ fault, messageOf definition = .error fault) := by
  rcases Json.readWith_of_lays_isPlain lays isScalable with ⟨taken, refused⟩
  constructor
  · intro all
    rw [messageOf, taken all, ← counts]
    rfl
  · intro some
    rcases refused some with ⟨rest, stopped⟩
    exact ⟨.outOfRange rest, by rw [messageOf, stopped]; rfl⟩

/-- What is said about the message of a definition that is laid out: nothing if
it is as expected and can be read. -/
theorem messageMismatch?_of_lays (expected : Expectations) :
    (expected.messageMismatch? definition = .none ↔
        expected.MessageMet document ∧ ¬ expected.AsksRefused document) ∧
      (Unreadable (expected.messageMismatch? definition) ↔
        expected.AsksRefused document) := by
  rcases messageOf_of_lays lays counts with ⟨taken, refused⟩
  unfold messageMismatch? MessageMet AsksRefused
  cases expected.message with
  | none => simp [Unreadable]
  | some wanted =>
      by_cases some : ∃ number ∈ document.numbers,
          Json.takesNumber isScalable number = false
      · rcases refused some with ⟨fault, stopped⟩
        simp [stopped, some, Unreadable]
      · have read := taken (by simpa using some)
        simp only [Option.bind_some, read, some, and_false, not_false_eq_true,
          and_true, Option.mem_some_iff, forall_eq', iff_false]
        split_ifs with same
        · simp [Unreadable, same]
        · simp [Unreadable, Ne.symm same]

end

/-! ## All checks -/

theorem generatedMismatch?_of_lays (expected : Expectations)
    {generated : Generated} {document : Value}
    (lays : Json.Lays isPlain generated.artifact.definition.document document)
    (counts : CountsArguments document) :
    (expected.generatedMismatch? generated = .none ↔
        expected.TextsMet generated.artifact ∧
          (expected.MessageMet document ∧ ¬ expected.AsksRefused document) ∧
            expected.WarningsMet generated.warnings) ∧
      (Unreadable (expected.generatedMismatch? generated) ↔
        expected.TextsMet generated.artifact ∧
          expected.AsksRefused document) := by
  have error : expected.error.map Mismatch.noError = .none ↔
      expected.error = .none := Option.map_eq_none_iff
  have notUnreadable : ¬ Unreadable (expected.error.map Mismatch.noError) := by
    rintro ⟨fault, same⟩
    rcases Option.map_eq_some_iff.mp same with ⟨part, _, impossible⟩
    cases impossible
  rcases messageMismatch?_of_lays lays counts expected with ⟨none, unreadable⟩
  unfold generatedMismatch?
  constructor
  · simp only [Option.orElse_eq_none, error, textMismatch?_eq_none_iff, none,
      warningMismatch?_eq_none_iff, textsMet_iff, and_assoc]
  · simp only [unreadable_orElse, notUnreadable, not_unreadable_textMismatch?,
      not_unreadable_warningMismatch?, unreadable, error,
      textMismatch?_eq_none_iff, textsMet_iff, and_false, false_or, or_false,
      and_assoc]

/-- What is said about a block file of which the workspace, if there is one, is
one that edits can build. -/
theorem mismatch?_of_reachable (expected : Expectations)
    {loaded : Except (List LoadError) Workspace}
    (reachable : ∀ workspace, loaded = .ok workspace → workspace.Reachable) :
    (expected.mismatch? loaded = .none ↔
        expected.Met loaded ∧ ¬ expected.Refused loaded) ∧
      (Unreadable (expected.mismatch? loaded) ↔ expected.Refused loaded) := by
  unfold mismatch?
  cases loaded with
  | error errors =>
      have notRefused : ¬ expected.Refused (.error errors) := by
        intro impossible
        cases impossible
      simp only [errorMismatch?_eq_none_iff, not_unreadable_errorMismatch?,
        notRefused, not_false_eq_true, and_true]
      refine ⟨.load, fun met => ?_⟩
      cases met with
      | load error => exact error
  | ok workspace =>
      rcases (reachable workspace rfl).exists_outcome with
        ⟨problem | generated, generates⟩
      · have notRefused : ¬ expected.Refused (.ok workspace) := by
          rintro ⟨succeeds⟩
          rw [generates] at succeeds
          cases succeeds
        simp only [generates, errorMismatch?_eq_none_iff,
          not_unreadable_errorMismatch?, notRefused, not_false_eq_true,
          and_true]
        refine ⟨.generation generates, fun met => ?_⟩
        cases met with
        | generation fails error =>
            rw [generates] at fails
            cases fails
            exact error
        | success succeeds =>
            rw [generates] at succeeds
            cases succeeds
      · rcases (reachable workspace rfl).exists_lays generates with
          ⟨root, _, _, lays⟩
        rcases generatedMismatch?_of_lays expected lays
          (countsArguments_documentValue _ _) with ⟨none, unreadable⟩
        rw [met_iff_of_generates generates (Json.read?_of_lays lays),
          refused_iff_of_generates generates (Json.read?_of_lays lays)]
        simp only [generates]
        refine ⟨none.trans ?_, unreadable⟩
        tauto

/-- The numbers of a document have at most 307 digits before the point. -/
def NumbersShort (document : Value) : Prop :=
  ∀ number ∈ document.numbers, ∃ literal,
    Json.writtenLiteral? number = some literal ∧ literal.whole.length ≤ 307

/-- No definition of a block is refused if its numbers are short. -/
theorem not_refused_of_short {loaded : Except (List LoadError) Workspace}
    (short : ∀ {workspace generated document}, loaded = .ok workspace →
      workspace.tree.generate? = some (.ok generated) →
        Json.read? generated.artifact.definition.document = some document →
          NumbersShort document) :
    ¬ expected.Refused loaded := by
  rintro ⟨generates, reads, texts, asked, number, member, refused⟩
  rcases short rfl generates reads number member with ⟨literal, writes, few⟩
  rw [Json.takesNumber_of_length_le writes few] at refused
  cases refused

/-- A verdict is exact: the fixture passes if what comes of its block file is as
expected, except where a definition is refused, and that is the one case in
which a definition counts as unreadable. -/
structure Judges (expected : Expectations)
    (loaded : Except (List LoadError) Workspace) (verdict : Verdict) :
    Prop where
  passes_iff : verdict.passes = true ↔
    expected.Met loaded ∧ ¬ expected.Refused loaded
  unreadable_iff : Unreadable verdict.mismatch ↔ expected.Refused loaded
  passes_iff_of_short :
    (∀ {workspace generated document}, loaded = .ok workspace →
      workspace.tree.generate? = some (.ok generated) →
        Json.read? generated.artifact.definition.document = some document →
          NumbersShort document) →
    (verdict.passes = true ↔ expected.Met loaded)

theorem judges_mismatch? (expected : Expectations) (source : String)
    (description : Option String) :
    expected.Judges (BlockFile.load source)
      ⟨description, expected.mismatch? (BlockFile.load source)⟩ := by
  have reachable : ∀ workspace, BlockFile.load source = .ok workspace →
      workspace.Reachable := fun _ loads => BlockFile.reachable_load loads
  rcases mismatch?_of_reachable expected reachable with ⟨none, unreadable⟩
  have passes : (Verdict.mk description
      (expected.mismatch? (BlockFile.load source))).passes = true ↔
        expected.Met (BlockFile.load source) ∧
          ¬ expected.Refused (BlockFile.load source) :=
    Option.isNone_iff_eq_none.trans none
  exact
    { passes_iff := passes
      unreadable_iff := unreadable
      passes_iff_of_short := fun short =>
        passes.trans (and_iff_left (not_refused_of_short short)) }

end Expectations

/-- A file that loads has blueprints. -/
theorem BlockFile.exists_blueprints {source : String} {entries : Toml.Entries}
    {workspace : Workspace} (reads : Toml.readDocument? source = some entries)
    (loads : load source = .ok workspace) :
    ∃ blueprints, Blueprint.ofDocument entries = .ok blueprints := by
  simp only [load, reads] at loads
  cases shaped : Blueprint.ofDocument entries with
  | error error =>
      rw [shaped] at loads
      cases loads
  | ok blueprints => exact ⟨blueprints, rfl⟩

namespace Fixture

theorem run_eq {source : String} {entries : Toml.Entries} {sheet : FixtureSheet}
    (reads : Toml.readDocument? source = some entries)
    (decodes : FixtureSheet.ofDocument entries = .ok sheet) :
    run source =
      ⟨sheet.description,
        sheet.expected.mismatch? (BlockFile.load source)⟩ := by
  simp only [run, reads, decodes]

/-- The verdict on a text that holds expectations is exact. -/
theorem run_exact {source : String} {entries : Toml.Entries}
    {sheet : FixtureSheet}
    (reads : Toml.readDocument? source = some entries)
    (decodes : FixtureSheet.ofDocument entries = .ok sheet) :
    sheet.expected.Judges (BlockFile.load source) (run source) := by
  rw [run_eq reads decodes]
  exact Expectations.judges_mismatch? ..

/-- A fixture that asks for the message of a block with one argument, the
default of which is the largest finite number. -/
def largestSource : String :=
  "[expect]\nmessage = \"%1\"\n\n[[block]]\ntype = \"block_creator\"\n\n" ++
    "[[block.slots.INPUTS]]\ntype = \"numeric_input\"\n" ++
    "fields = \x7b VALUE = 1.7976931348623157e308 \x7d\n"

theorem eq_ok_of_toOption {ε α : Type} {result : Except ε α} {value : α}
    (found : result.toOption = some value) : result = .ok value := by
  cases result with
  | error error => cases found
  | ok own =>
      cases found
      rfl

theorem exists_sheet_largestSource :
    ∃ entries sheet, Toml.readDocument? largestSource = some entries ∧
      FixtureSheet.ofDocument entries = .ok sheet ∧
        sheet.expected = { Expectations.none with message := some "%1" } := by
  have decoded : ((Toml.readDocument? largestSource).bind fun entries =>
      (FixtureSheet.ofDocument entries).toOption).map FixtureSheet.expected =
        some { Expectations.none with message := some "%1" } := by
    decide +kernel
  rcases Option.map_eq_some_iff.mp decoded with ⟨sheet, found, expected⟩
  rcases Option.bind_eq_some_iff.mp found with ⟨entries, reads, decodes⟩
  exact ⟨entries, sheet, reads, eq_ok_of_toOption decodes, expected⟩

theorem run_exact_largest :
    ∃ entries sheet, Toml.readDocument? largestSource = some entries ∧
      FixtureSheet.ofDocument entries = .ok sheet ∧
        sheet.expected.Judges (BlockFile.load largestSource)
          (run largestSource) := by
  rcases exists_sheet_largestSource with ⟨entries, sheet, reads, decodes, _⟩
  exact ⟨entries, sheet, reads, decodes, run_exact reads decodes⟩

theorem exists_load_largestSource :
    ∃ workspace, BlockFile.load largestSource = .ok workspace ∧
      workspace.tree.roots = [0] ∧
        Definition.argumentCount (Definition.documentValue workspace.tree 0) =
            1 ∧
          Json.largest ∈
            (Definition.documentValue workspace.tree 0).numbers := by
  have loaded : (BlockFile.load largestSource).toOption.map (fun workspace =>
      (workspace.tree.roots,
        Definition.argumentCount (Definition.documentValue workspace.tree 0),
        decide (Json.largest ∈
          (Definition.documentValue workspace.tree 0).numbers))) =
      some ([0], 1, true) := by
    decide +kernel
  rcases Option.map_eq_some_iff.mp loaded with ⟨workspace, found, same⟩
  simp only [Prod.mk.injEq, decide_eq_true_iff] at same
  exact ⟨workspace, eq_ok_of_toOption found, same⟩

/-- A block whose definition has the largest number is as expected, and still
its fixture fails: the definition counts as unreadable. -/
theorem run_largest_unreadable :
    ∃ entries sheet blueprints,
      Toml.readDocument? largestSource = some entries ∧
        FixtureSheet.ofDocument entries = .ok sheet ∧
          Blueprint.ofDocument entries = .ok blueprints ∧
            sheet.expected.Met (BlockFile.load largestSource) ∧
              (run largestSource).passes = false ∧
                ∃ fault, (run largestSource).mismatch =
                  some (.unreadable fault) := by
  rcases exists_sheet_largestSource with
    ⟨entries, sheet, reads, decodes, expected⟩
  rcases exists_load_largestSource with
    ⟨workspace, loads, roots, arguments, member⟩
  rcases BlockFile.exists_blueprints reads loads with ⟨blueprints, shapes⟩
  have reachable := BlockFile.reachable_load loads
  have creator : workspace.tree.kind 0 = some .blockCreator :=
    BlockTree.kind_of_mem_roots (by simp [roots])
  rcases reachable.exists_generate? creator with ⟨generated, generates⟩
  rcases reachable.exists_lays generates with ⟨root, others, listed, lays⟩
  rw [roots] at listed
  cases listed
  have texts : sheet.expected.TextsMet generated.artifact := by
    constructor <;> simp [expected, Expectations.none, Expectations.AllOccur]
  have met : sheet.expected.Met (BlockFile.load largestSource) := by
    rw [loads, Expectations.met_iff_of_generates generates
      (Json.read?_of_lays lays)]
    refine ⟨texts, ?_, by simp [expected, Expectations.none,
      Expectations.WarningsMet]⟩
    intro wanted asked
    simp only [expected, Option.mem_some_iff] at asked
    rw [arguments, ← asked]
    rfl
  have refused : sheet.expected.Refused (BlockFile.load largestSource) := by
    rw [loads, Expectations.refused_iff_of_generates generates
      (Json.read?_of_lays lays)]
    exact ⟨texts, by simp [expected], _, member, Json.takesNumber_largest⟩
  have judges := Expectations.judges_mismatch? sheet.expected largestSource
    sheet.description
  rw [← run_eq reads decodes] at judges
  have fails : (run largestSource).passes = false := by
    simp [← Bool.not_eq_true, judges.passes_iff, refused]
  exact ⟨entries, sheet, blueprints, reads, decodes, shapes, met, fails,
    judges.unreadable_iff.mpr refused⟩

end Fixture

end BlockForge
