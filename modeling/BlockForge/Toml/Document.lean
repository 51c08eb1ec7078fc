import BlockForge.Toml.Literal

/-!
# Documents

A document is a list of lines: assignments, and headers of tables.  A header in
single brackets starts a table, one in double brackets a further table in a
list; the assignments below a header belong to its table.

`Document.read?` gives the root table of a document, or nothing if the text is
no document: a line cannot be read, a key is assigned twice, a table has two
headers, or a header names something that is no table.
-/

namespace BlockForge.Toml

/-- The header of a table. -/
structure Header where
  /-- Whether the header adds a table to a list. -/
  inList : Bool
  path : List Key
  key : Key
  span : Span

/-- A line of a document. -/
inductive Statement where
  | assignment (content : Assignment)
  | header (content : Header)

/-- A header and the assignments below it. -/
structure Section where
  header : Header
  assignments : List Assignment

/-- Split a document into the assignments above the first header and the
sections. -/
def sectioned : List Statement → List Assignment × List Section
  | [] => ([], [])
  | .assignment content :: rest =>
    let (assignments, sections) := sectioned rest
    (content :: assignments, sections)
  | .header content :: rest =>
    let (assignments, sections) := sectioned rest
    ([], ⟨content, assignments⟩ :: sections)

namespace Section

/-- The span of the table of a section: from its header to the end of its last
value. -/
def span (block : Section) : Span :=
  let stop := block.assignments.foldl (fun stop assignment =>
    (assignment.value.span?.map Span.stop).getD stop) block.header.span.stop
  ⟨block.header.span.start, stop⟩

/-- The table of a section, added to what the headers of inner tables have
already put into it. -/
def table? (block : Section) (inner : Entries) : Option Value :=
  (block.assignments.foldlM assign inner).map
    (Value.table .header (some block.span))

/-- Put the table of a section into the table that its path leads to.

A table that was only implied so far moves to the end: from now on its own
header says where it was written. -/
def place (block : Section) (entries : Entries) : Option Entries := do
  let key := block.header.key
  let old := entries.value? key.text
  if block.header.inList then
    let table ← block.table? []
    match old with
    | none => return entries ++ [(key, .tables [table])]
    | some (.tables elements) =>
      return entries.setValue key.text (.tables (elements ++ [table]))
    | some _ => none
  else
    match old with
    | none => return entries ++ [(key, ← block.table? [])]
    | some (.table .implied _ inner) =>
      return entries.without key.text ++ [(key, ← block.table? inner)]
    | some _ => none

end Section

/-- Change the table that the path of a header leads to.  Tables on the way
that do not exist are implied; a list of tables stands for its last table. -/
def changeAt (change : Entries → Option Entries) :
    List Key → Entries → Option Entries
  | [], entries => change entries
  | part :: path, entries =>
    match entries.value? part.text with
    | none => do
      let inner ← changeAt change path []
      return entries ++ [(part, .table .implied none inner)]
    | some (.table .inline _ _) => none
    | some (.table origin span old) => do
      let inner ← changeAt change path old
      return entries.setValue part.text (.table origin span inner)
    | some (.tables elements) =>
      match elements.getLast? with
      | some (.table origin span old) => do
        let inner ← changeAt change path old
        return entries.setValue part.text
          (.tables (elements.dropLast ++ [.table origin span inner]))
      | _ => none
    | some _ => none

/-- The root table that the statements of a document build. -/
def assemble (statements : List Statement) : Option Entries := do
  let (assignments, sections) := sectioned statements
  let root ← assignments.foldlM assign []
  sections.foldlM (fun entries block =>
    changeAt block.place block.header.path entries) root

namespace Reader

/-- Read a header. -/
def header : Reader Header := do
  let ((inList, path, key), span) ← spanned do
    let inList ← accept "[["
    if !inList then expect "["
    let (path, key) ← dottedKey
    expect (if inList then "]]" else "]")
    return (inList, path, key)
  return ⟨inList, path, key, span⟩

/-- Read a line of a document that is not blank. -/
def statement : Reader Statement := do
  if ← sees "[" then
    let content ← header
    statementEnd
    return .header content
  else
    let content ← assignment value
    statementEnd
    return .assignment content

/-- Read the statements of a document. -/
def statements : Reader (List Statement) := do
  let _ ← accept "\uFEFF"
  whileSome do
    gap
    if ← atEnd then return none
    else return some (← statement)

end Reader

/-- Read the root table of a document. -/
def readDocument? (text : String) : Option Entries := do
  let (statements, _) ← Reader.statements (Cursor.ofText text)
  assemble statements

end BlockForge.Toml
