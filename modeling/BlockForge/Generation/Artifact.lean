import BlockForge.Generation.Definition
import BlockForge.Generation.Glue

/-!
# The artifact of a block

Everything that is generated from a workspace: the definition and the glue code
of its first block creator, and an export object that bundles them.
-/

namespace BlockForge

/-- What separates the declaration from the body in combined glue code. -/
def glueDelimiter : String := "!DELIMITER!"

/-- Split a text on the first place where a pattern starts. -/
def splitOnce (pattern : List Char) : List Char →
    Option (List Char × List Char)
  | [] => if pattern.isEmpty then some ([], []) else none
  | char :: rest =>
    if pattern.isPrefixOf (char :: rest) then
      some ([], (char :: rest).drop pattern.length)
    else
      (splitOnce pattern rest).map fun (before, after) => (char :: before, after)

/-- A pattern is found behind a text without the character that it starts
with. -/
theorem splitOnce_append {mark : Char} {before : List Char}
    (absent : mark ∉ before) (rest after : List Char) :
    splitOnce (mark :: rest) (before ++ mark :: (rest ++ after)) =
      some (before, after) := by
  induction before with
  | nil => simp [splitOnce]
  | cons char before before_ih =>
    rw [List.mem_cons, not_or] at absent
    simp [splitOnce, absent.1, before_ih absent.2]

/-- Split combined glue code into declaration and body.  A text without
delimiter is a declaration only. -/
def splitGlue (glue : String) : String × String :=
  match splitOnce glueDelimiter.toList glue.toList with
  | some (before, after) => (String.ofList before, String.ofList after)
  | none => (glue, "")

/-- A block, bundled for being saved with others. -/
structure BlockExport where
  fileName : String
  category : String
  description : String
  jsonCode : String
  interpreterDeclaration : String
  jsCode : String
  customName : String
deriving DecidableEq, Repr

namespace BlockExport

/-- The entries of an export object. -/
def entries (bundle : BlockExport) : List (String × String) :=
  [("fileName", bundle.fileName),
    ("category", bundle.category),
    ("description", bundle.description),
    ("jsonCode", bundle.jsonCode),
    ("interpreterDeclaration", bundle.interpreterDeclaration),
    ("jsCode", bundle.jsCode),
    ("customName", bundle.customName)]

/-- An export object as a JSON document. -/
def toJson (bundle : BlockExport) : String :=
  Json.object (bundle.entries.map fun entry => (entry.1, Json.quote entry.2))

end BlockExport

/-- What is generated from a workspace. -/
structure Artifact where
  definition : Definition
  glue : Glue
  bundle : BlockExport
deriving DecidableEq, Repr

/-- The declaration and the body of the glue code in one text. -/
def Artifact.combinedGlue (artifact : Artifact) : String :=
  artifact.glue.declaration ++ glueDelimiter ++ artifact.glue.body

/-- An artifact and the warnings that came up. -/
structure Generated where
  artifact : Artifact
  warnings : List Warning
deriving DecidableEq, Repr

namespace BlockTree

/-- The block creators that hang nowhere. -/
def roots (tree : BlockTree) : List NodeId :=
  tree.topBlocks.filter fun node => tree.kind node = some .blockCreator

/-- The export object of a block. -/
def exportBlock (tree : BlockTree) (root : NodeId) (definition : Definition)
    (glue : Glue) : BlockExport :=
  let option := tree.text root FieldKey.blockCategory
  { fileName := glue.name ++ ".js"
    category := ((Category.ofOption? option).map Category.label).getD option
    description := tree.text root FieldKey.description
    jsonCode := definition.document
    interpreterDeclaration := glue.declaration
    jsCode := glue.body
    customName := glue.name }

/-- Generate the artifact of the block of a node; none if a walk over the tree
has no end.  The warnings of both passes are put together. -/
def generateAt? (tree : BlockTree) (root : NodeId) : Option Generated := do
  let (definition, reported) ← Definition.generate? tree root
  let (glue, others) ← Glue.withWarnings? tree root
  let bundle := tree.exportBlock root definition glue
  return ⟨⟨definition, glue, bundle⟩, Warning.merge reported others⟩

/-- Generate the artifact of the first block creator.

The result is none if a walk over the tree has no end.  Otherwise it is an
artifact with warnings, unless there is no block creator at all.  No pass knows of
other block creators, so the warning about them is put in front at the end. -/
def generate? (tree : BlockTree) : Option (Except Problem Generated) :=
  match tree.roots with
  | [] => some (.error .noRoot)
  | root :: others => do
    let generated ← tree.generateAt? root
    let several : List Warning :=
      if others.isEmpty then []
      else [⟨.multipleRoots (others.length + 1), root⟩]
    return .ok { generated with warnings := several ++ generated.warnings }

end BlockTree

end BlockForge
