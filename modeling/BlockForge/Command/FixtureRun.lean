import BlockForge.Command.FileTree
import BlockForge.Fixture.Category
import BlockForge.Fixture.Verdict

/-!
# Running fixtures

All fixtures below a folder are run category by category, and the report tells
which of them pass, why the others fail, and how many there are of each.  A
single file is run without regard to its name.
-/

namespace BlockForge

namespace Fixture

/-- A fixture file. -/
structure File where
  /-- The parts of its path below the folder that is searched. -/
  parts : List String
  /-- The path as messages show it. -/
  path : String
  text : String
deriving DecidableEq, Repr

namespace File

/-- The name of a fixture file. -/
def name (file : File) : String := file.parts.getLastD ""

/-- The category of a fixture file: the folders that lead to it.  Backslashes
in their names count as slashes. -/
def category (file : File) : String :=
  let path := "/".intercalate file.parts.dropLast
  String.ofList (path.toList.map fun char =>
    if char = '\\' then '/' else char)

end File

/-- The path of what lies below a folder. -/
def joinPath (folder : String) (parts : List String) : String :=
  let start :=
    if folder.toList.getLast? = some '/' then folder else folder ++ "/"
  start ++ "/".intercalate parts

/-- The fixture files below a folder. -/
def discover (folder : String) (tree : FileTree) : List File :=
  let found := tree.files []
  let fixtures := found.filter fun file =>
    suffix.toList.isSuffixOf (file.1.getLastD "").toList
  fixtures.map fun file => ⟨file.1, joinPath folder file.1, file.2⟩

/-- The categories of fixture files, in ascending order. -/
def categoriesOf (files : List File) : List String :=
  Category.select (files.map File.category) []

/-- The fixture files of a category, in ascending order of their paths. -/
def filesOf (files : List File) (category : String) : List File :=
  (files.filter fun file => file.category = category).mergeSort
    fun file other => !decide (other.parts < file.parts)

/-- How the report of fixtures shows what matters. -/
inductive Mark where
  | good
  | bad
  | strong
deriving DecidableEq, Repr

/-- The number by which a terminal knows a mark. -/
def Mark.code : Mark → String
  | good => "32"
  | bad => "31"
  | strong => "1"

/-- A text with a mark, if the report has colours. -/
def Mark.apply (mark : Mark) (colour : Bool) (text : String) : String :=
  if colour then "\x1b[" ++ mark.code ++ "m" ++ text ++ "\x1b[0m" else text

/-- A fixture that was run. -/
structure Outcome where
  path : String
  label : String
  mismatch : Option Mismatch
deriving DecidableEq, Repr

namespace Outcome

/-- Run a fixture file. -/
def ofFile (file : File) : Outcome :=
  let verdict := run file.text
  ⟨file.path, verdict.label (fileLabel file.name), verdict.mismatch⟩

/-- The line of the report for a fixture. -/
def line (colour : Bool) (outcome : Outcome) : String :=
  let word :=
    if outcome.mismatch.isNone then Mark.good.apply colour "PASS"
    else Mark.bad.apply colour "FAIL"
  "  " ++ word ++ "  " ++ outcome.label

/-- The lines of the report that say why a fixture fails. -/
def failureLines (outcome : Outcome) : List String :=
  match outcome.mismatch with
  | none => []
  | some mismatch =>
    "" :: ("  --- " ++ outcome.path ++ " ---")
      :: (Text.splitLines mismatch.message).map fun line => "  " ++ line

end Outcome

/-- The lines of the report below its list of fixtures. -/
def summaryLines (colour : Bool) (outcomes : List Outcome) : List String :=
  let failures := outcomes.filter fun outcome => outcome.mismatch.isSome
  let passed := toString (outcomes.length - failures.length)
  if failures.isEmpty then
    ["", "test result: " ++ Mark.good.apply colour "ok" ++ ". " ++ passed
      ++ " passed, 0 failed"]
  else
    ["", "failures:"] ++ failures.flatMap Outcome.failureLines
      ++ ["", "test result: " ++ Mark.bad.apply colour "FAILED" ++ ". " ++ passed
        ++ " passed, " ++ toString failures.length ++ " failed (of "
        ++ toString outcomes.length ++ ")"]

/-- The report on fixtures: whether all of them pass, and its lines. -/
structure Report where
  passes : Bool
  lines : List String
deriving DecidableEq, Repr

/-- The report on some categories; without them there is no fixture at all in
the list. -/
def reportOn (colour : Bool) (groups : List (Option String × List File)) :
    Report :=
  let run := groups.map fun group => (group.1, group.2.map Outcome.ofFile)
  let outcomes := run.flatMap Prod.snd
  let groupLines := fun (group : Option String × List Outcome) =>
    let title :=
      match group.1 with
      | some category =>
        ["", Mark.strong.apply colour (Category.shownName category)]
      | none => []
    title ++ group.2.map (Outcome.line colour)
  ⟨outcomes.all fun outcome => outcome.mismatch.isNone,
    run.flatMap groupLines ++ summaryLines colour outcomes⟩

/-- What the report says where there are no fixtures. -/
def noFixtures (path : String) : String :=
  "no " ++ suffix ++ " files found in " ++ path

/-- What the report says about a request that selects no category. -/
def unmatchedLine (available : List String) (request : String) : String :=
  "warning: category '" ++ request ++ "' not found (available: "
    ++ ", ".intercalate (available.map Category.shownName) ++ ")"

/-- Run the fixtures of some categories below a folder. -/
def runFolder (colour : Bool) (path : String) (requests : List String)
    (tree : FileTree) : Report :=
  let files := discover path tree
  let available := categoriesOf files
  let selected := Category.selectWith (filesOf files) available requests
  let unmatched :=
    (Category.unmatched available requests).map (unmatchedLine available)
  if files.isEmpty then ⟨false, [noFixtures path]⟩
  else if selected.isEmpty then
    ⟨false, unmatched ++ ["no matching categories found"]⟩
  else
    let groups := selected.map fun group => (some group.1, group.2)
    let report := reportOn colour groups
    { report with lines := unmatched ++ report.lines }

/-- Run a single fixture. -/
def runFile (colour : Bool) (path text : String) : Report :=
  reportOn colour [(none, [⟨FileTree.pathParts path, path, text⟩])]

/-- Run the fixtures at a path. -/
def runAll (colour : Bool) (path : String) (requests : List String) :
    Except FileFault FileTree → Report
  | .ok (.file text) => runFile colour path text
  | .ok tree => runFolder colour path requests tree
  | .error _ => ⟨false, [noFixtures path]⟩

/-- The lines that list the categories of fixtures at a path. -/
def categoryLines (path : String) :
    Except FileFault FileTree → List String
  | .ok (.file _) => ["(single file, no categories)"]
  | .ok tree =>
    let files := discover path tree
    if files.isEmpty then [noFixtures path]
    else
      "available categories:" :: (categoriesOf files).map fun category =>
        "  " ++ Category.shownName category ++ " ("
          ++ toString (filesOf files category).length ++ " tests)"
  | .error _ => [noFixtures path]

end Fixture

end BlockForge
