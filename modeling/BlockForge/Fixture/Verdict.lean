import BlockForge.BlockFile.Load
import BlockForge.Fixture.Expectation
import BlockForge.Generation.Artifact
import BlockForge.Json.Reader
import BlockForge.Text.Occurrence

/-!
# Verdicts on fixtures

A fixture passes if loading and generating go as it expects.  `mismatch?` finds
the first expectation that is not met; `Fixture.run` does so for the text of a
fixture.
-/

namespace BlockForge

/-- What can fail on the way from a text to an artifact. -/
inductive Stage where
  | load
  | generation
deriving DecidableEq, Repr

/-- The word for a stage. -/
def Stage.word : Stage → String
  | load => "load"
  | generation => "generation"

/-- Why a fixture fails. -/
inductive Mismatch where
  /-- The text is no document. -/
  | noDocument
  /-- The document is no fixture. -/
  | shape (problem : Toml.ShapeProblem)
  /-- A stage fails though no error is expected. -/
  | unexpectedError (stage : Stage) (actual : String)
  /-- A stage fails in another way than expected. -/
  | otherError (expected actual : String)
  /-- No stage fails though an error is expected. -/
  | noError (expected : String)
  /-- A text does not occur in a part of the artifact. -/
  | missingText (part expected actual : String)
  /-- The definition cannot be read. -/
  | unreadable (fault : String)
  | otherMessage (expected actual : String)
  | warningCount (expected : Nat) (actual : List String)
  | otherWarning (index : Nat) (expected actual : String)
  /-- Generating the block would never end. -/
  | endless
deriving DecidableEq, Repr

namespace Mismatch

/-- The words for a mismatch. -/
def message : Mismatch → String
  | noDocument => "fixture error: not a TOML document"
  | shape problem => "fixture error: " ++ problem.message
  | unexpectedError stage actual =>
    "unexpected " ++ stage.word ++ " error: " ++ actual
  | otherError expected actual =>
    "expected error containing \"" ++ expected ++ "\", got: " ++ actual
  | noError expected =>
    "expected error containing \"" ++ expected
      ++ "\", but generation succeeded"
  | missingText part expected actual =>
    part ++ " does not contain " ++ Text.quoted expected ++ "\n  actual:\n"
      ++ Text.indent "    " actual
  | unreadable fault => "definition is not valid JSON: " ++ fault
  | otherMessage expected actual =>
    "message0 mismatch\n  expected: " ++ Text.quoted expected
      ++ "\n  actual:   " ++ Text.quoted actual
  | warningCount expected actual =>
    let shown :=
      if actual.isEmpty then "    (none)"
      else "\n".intercalate (actual.map fun warning => "  - " ++ warning)
    "expected " ++ toString expected ++ " warning(s), got "
      ++ toString actual.length ++ "\n  actual warnings:\n" ++ shown
  | otherWarning index expected actual =>
    "warning[" ++ toString index ++ "]: expected message containing \""
      ++ expected ++ "\", got: " ++ actual
  | endless => "generation does not end"

end Mismatch

namespace Expectations

/-- The mismatch of an error of a stage, unless it is expected. -/
def errorMismatch? (expected : Expectations) (stage : Stage)
    (actual : String) : Option Mismatch :=
  match expected.error with
  | some part =>
    if Text.occursIn part actual then .none else some (.otherError part actual)
  | .none => some (.unexpectedError stage actual)

/-- The mismatch of the first text that does not occur in a part of the
artifact. -/
def textMismatch? (part actual : String) (texts : List String) :
    Option Mismatch :=
  (texts.find? fun text => !Text.occursIn text actual).map fun text =>
    .missingText part text actual

/-- The message of a block, read from its definition.

A reader of JSON may bound the depth of documents, usually by 128 levels, and
`Json.readWith` does not.  The definition of a block file has fewer levels: only
type groups inside type groups deepen it, each by one level, and a group takes
two levels of the file, where a header and a value have at most
`Toml.nestingLimit` each. -/
def messageOf (definition : String) : Except Json.Fault String := do
  let document ← Json.readWith Json.NumberLiteral.isScalable definition
  return ((document.member? "message0").bind Json.Value.text?).getD ""

/-- The mismatch of the message of a block. -/
def messageMismatch? (expected : Expectations) (definition : String) :
    Option Mismatch :=
  expected.message.bind fun wanted =>
    match messageOf definition with
    | .error fault => some (.unreadable (fault.message definition))
    | .ok actual =>
      if actual = wanted then .none else some (.otherMessage wanted actual)

/-- The mismatch of the first warning in which its text does not occur. -/
def firstWarningMismatch? (index : Nat) :
    List String → List String → Option Mismatch
  | actual :: warnings, expected :: texts =>
    if Text.occursIn expected actual then
      firstWarningMismatch? (index + 1) warnings texts
    else some (.otherWarning index expected actual)
  | _, _ => .none

/-- The mismatch of the warnings. -/
def warningMismatch? (expected : Expectations) (actual : List String) :
    Option Mismatch :=
  expected.warnings.bind fun texts =>
    if actual.length ≠ texts.length then
      some (.warningCount texts.length actual)
    else firstWarningMismatch? 0 actual texts

/-- The first mismatch of what is generated. -/
def generatedMismatch? (expected : Expectations) (generated : Generated) :
    Option Mismatch :=
  let definition := generated.artifact.definition.document
  let glue := generated.artifact.glue
  let warnings :=
    generated.warnings.map fun warning => warning.problem.message
  (expected.error.map Mismatch.noError)
    <|> textMismatch? "definition" definition expected.definitionParts
    <|> textMismatch? "declaration" glue.declaration expected.declarationParts
    <|> textMismatch? "body" glue.body expected.bodyParts
    <|> expected.messageMismatch? definition
    <|> expected.warningMismatch? warnings

/-- The first mismatch of what comes of a block file. -/
def mismatch? (expected : Expectations)
    (loaded : Except (List LoadError) Workspace) : Option Mismatch :=
  match loaded with
  | .error errors =>
    expected.errorMismatch? .load
      ("; ".intercalate (errors.map LoadError.message))
  | .ok workspace =>
    match workspace.tree.generate? with
    | .none => some .endless
    | some (.error problem) =>
      expected.errorMismatch? .generation problem.message
    | some (.ok generated) => expected.generatedMismatch? generated

end Expectations

/-- The verdict on a fixture: its description, and why it fails if it does. -/
structure Verdict where
  description : Option String
  mismatch : Option Mismatch
deriving DecidableEq, Repr

namespace Verdict

/-- Whether the fixture passes. -/
def passes (verdict : Verdict) : Bool := verdict.mismatch.isNone

/-- How a fixture is called: by its description, or else by the name of its
file. -/
def label (verdict : Verdict) (fileLabel : String) : String :=
  verdict.description.getD fileLabel

end Verdict

namespace Fixture

/-- The end of the names of fixture files. -/
def suffix : String := ".test.toml"

/-- The name of a fixture file without its end. -/
def fileLabel (fileName : String) : String :=
  let chars := fileName.toList
  if suffix.toList.isSuffixOf chars then
    String.ofList (chars.take (chars.length - suffix.length))
  else "?"

/-- The verdict on the text of a fixture. -/
def run (source : String) : Verdict :=
  match Toml.readDocument? source with
  | none => ⟨none, some .noDocument⟩
  | some entries =>
    match FixtureSheet.ofDocument entries with
    | .error error => ⟨none, some (.shape error.problem)⟩
    | .ok sheet =>
      ⟨sheet.description, sheet.expected.mismatch? (BlockFile.load source)⟩

end Fixture

end BlockForge
