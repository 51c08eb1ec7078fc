import BlockForge.Text.Lines

/-!
# Trees of files

What a program finds on a disk: files with their texts, and folders with
entries.  `FileTree.find` follows a path from a folder; `FileTree.files` lists
all files below a folder with the parts of their paths.
-/

namespace BlockForge

/-- A file or a folder. -/
inductive FileTree where
  | file (text : String)
  | folder (entries : List (String × FileTree))

/-- Why nothing is read at a path. -/
inductive FileFault where
  | missing
  /-- A part of the path that should be a folder is a file. -/
  | notFolder
  | isFolder
  | nameTooLong
deriving DecidableEq, Repr

/-- The words for a fault. -/
def FileFault.message : FileFault → String
  | missing => "No such file or directory (os error 2)"
  | notFolder => "Not a directory (os error 20)"
  | isFolder => "Is a directory (os error 21)"
  | nameTooLong => "File name too long (os error 36)"

namespace FileTree

/-- The longest name that a part of a path may have, in bytes. -/
def nameLimit : Nat := 255

/-- The length that a path may not reach, in bytes. -/
def pathLimit : Nat := 4096

/-- The parts of a path. -/
def pathParts (path : String) : List String :=
  (Text.splitAtChar '/' path.toList).map String.ofList

/-- Follow the parts of a path.  The folders that lead to where the path has
come so far are at hand, the innermost first; the folder that the path starts
from has itself as the folder around it. -/
def follow (around : List FileTree) (here : FileTree) :
    List String → Except FileFault FileTree
  | [] => .ok here
  | part :: rest =>
    match here with
    | file _ => .error .notFolder
    | folder entries =>
      if part = "" ∨ part = "." then follow around here rest
      else if part = ".." then
        match around with
        | [] => follow [] here rest
        | outer :: others => follow others outer rest
      else if nameLimit < part.utf8ByteSize then .error .nameTooLong
      else
        match entries.lookup part with
        | none => .error .missing
        | some inner => follow (here :: around) inner rest

/-- What a path leads to, from a folder on.  An absolute path leads out of
it. -/
def find (tree : FileTree) (path : String) : Except FileFault FileTree :=
  if path = "" ∨ path.toList.head? = some '/' then .error .missing
  else if pathLimit ≤ path.utf8ByteSize then .error .nameTooLong
  else follow [] tree (pathParts path)

/-- The text of a file. -/
def read : FileTree → Except FileFault String
  | file text => .ok text
  | folder _ => .error .isFolder

mutual

/-- The files of a tree, each with the folders below the root that lead to it
and its name. -/
def files (path : List String) : FileTree → List (List String × String)
  | file text => [(path, text)]
  | folder entries => entryFiles path entries

/-- The files of the entries of a folder. -/
def entryFiles (path : List String) :
    List (String × FileTree) → List (List String × String)
  | [] => []
  | (name, tree) :: rest => files (path ++ [name]) tree ++ entryFiles path rest

end

/-- Put a file or an empty folder into a tree, below folders that are made as
they are needed. -/
def insertAt (content : Option String) : List String → FileTree → FileTree
  | [], _ =>
    match content with
    | some text => file text
    | none => folder []
  | part :: rest, folder entries =>
    match entries.lookup part with
    | some inner =>
      folder (entries.map fun entry =>
        if entry.1 = part then (part, insertAt content rest inner) else entry)
    | none => folder (entries ++ [(part, insertAt content rest (folder []))])
  | _ :: _, file text => file text

/-- The tree of a list of paths: files with their texts, and empty folders. -/
def ofPaths (paths : List (String × Option String)) : FileTree :=
  paths.foldl (fun tree path => insertAt path.2 (pathParts path.1) tree)
    (folder [])

end FileTree

end BlockForge
