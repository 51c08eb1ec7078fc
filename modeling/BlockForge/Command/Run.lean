import BlockForge.Command.FixtureRun
import BlockForge.Command.Invocation
import BlockForge.Diagnostic.Layout
import BlockForge.Workspace.Outline

/-!
# Running the program

What the program answers to its arguments: an exit code and the texts on its
two output channels.  The answer depends on the arguments and on what lies at
the path that they name, and on nothing else.
-/

namespace BlockForge

/-- What a run of the program gives. -/
structure Output where
  exit : Nat
  stdout : String
  stderr : String
deriving DecidableEq, Repr

namespace Output

/-- Put lines together, each with a line end. -/
def ofLines (lines : List String) : String :=
  String.join (lines.map fun line => line ++ "\n")

/-- The output of a run that succeeds. -/
def success (stdout stderr : String) : Output := ⟨0, stdout, stderr⟩

/-- The output of a run that fails. -/
def failure (stderr : String) : Output := ⟨1, "", stderr⟩

end Output

/-- The text that is printed of an artifact. -/
def Part.text (artifact : Artifact) : Part → String
  | definition => artifact.definition.document ++ "\n"
  | declaration => artifact.glue.declaration
  | body => artifact.glue.body ++ "\n"
  | glue => artifact.combinedGlue ++ "\n"
  | bundle => artifact.bundle.toJson ++ "\n"
  | all =>
    "// definition\n" ++ artifact.definition.document ++ "\n\n// declaration"
      ++ artifact.glue.declaration ++ "\n// body\n" ++ artifact.glue.body
      ++ "\n\n// export\n" ++ artifact.bundle.toJson ++ "\n"

/-- The text of the outline of a workspace. -/
def Workspace.outlineText (workspace : Workspace) : String :=
  Output.ofLines ((workspace.outline?.getD []).map OutlineLine.text)

namespace Invocation

/-- What lies at the path of an invocation. -/
abbrev Found := Except FileFault FileTree

/-- Load a block file and go on with its workspace. -/
def withWorkspace (file : String) (found : Found)
    (answer : Workspace → Output) : Output :=
  match found.bind FileTree.read with
  | .error fault =>
    .failure ("error: cannot read '" ++ file ++ "': " ++ fault.message ++ "\n")
  | .ok source =>
    match BlockFile.load source with
    | .error errors =>
      .failure (String.join (errors.map fun error =>
        (error.diagnostic file source).render))
    | .ok workspace => answer workspace

/-- Generate the block of a workspace and go on with its artifact; warnings are
reported first. -/
def withArtifact (answer : Artifact → Output) (workspace : Workspace) :
    Output :=
  match workspace.tree.generate? with
  | none => .failure "error: generation does not end\n"
  | some (.error problem) => .failure problem.diagnostic.render
  | some (.ok ⟨artifact, warnings⟩) =>
    let reported := warnings.map fun warning => warning.diagnostic.render
    let output := answer artifact
    { output with stderr := String.join reported ++ output.stderr }

/-- What an invocation gives, depending on what lies at its path. -/
def run (invocation : Invocation) (found : Found) : Output :=
  match invocation.action with
  | .generate file part =>
    withWorkspace file found <| withArtifact fun artifact =>
      .success (part.text artifact) ""
  | .outline file =>
    withWorkspace file found fun workspace =>
      .success workspace.outlineText ""
  | .check file =>
    withWorkspace file found <| withArtifact fun artifact =>
      .success ""
        ("ok: " ++ file ++ " generates block '"
          ++ artifact.definition.blockType ++ "'\n")
  | .test path requests =>
    let report := Fixture.runAll invocation.colour path requests found
    ⟨if report.passes then 0 else 1, "", Output.ofLines report.lines⟩
  | .listCategories path =>
    .success "" (Output.ofLines (Fixture.categoryLines path found))

end Invocation

/-- How to call the program: a stand-in for the help, whose words and layout are
those of the parser of arguments and are not modelled. -/
def usage : String :=
  Output.ofLines
    ["Block definition and glue code generator",
      "",
      "Usage: blockdef [OPTIONS] <COMMAND>",
      "",
      "Commands:",
      "  generate <FILE>  Generate the artifacts for a composition file",
      "  check <FILE>     Load and generate without printing",
      "  test <PATH>      Run .test.toml fixture files",
      "  help             Print this message",
      "",
      "Options:",
      "  -p, --part <PART>          Which artifact to print: definition,",
      "                             declaration, body, glue, export or all",
      "      --tree                 Dump the loaded composition tree",
      "  -c, --category <CATEGORY>  Run only tests in these categories",
      "      --list-categories      List available categories",
      "      --no-color             Disable colored output",
      "  -v, --verbose              Log more",
      "  -h, --help                 Print help",
      "  -V, --version              Print version"]

/-- What the program gives where nothing is to be done.  The exit code and the
channel are those of the parser of arguments; of a misuse it would also say what
is wrong. -/
def Interruption.output : Interruption → Output
  | help => .success usage ""
  | version => .success "blockdef 0.1.0\n" ""
  | misuse => ⟨2, "", usage⟩

/-- What the program gives for its arguments; `find` tells what lies at a
path. -/
def runProgram (find : String → Invocation.Found) (arguments : List String) :
    Output :=
  match Invocation.ofArguments arguments with
  | .error interruption => interruption.output
  | .ok invocation => invocation.run (find invocation.action.path)

end BlockForge
