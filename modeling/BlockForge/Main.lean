import BlockForge.Command.Run

/-!
# The program

The command line reads what lies at the path of an invocation, asks
`Invocation.run` for the answer and prints it.
-/

namespace BlockForge

/-- What a failure to read says about a path. -/
def faultOf : IO.Error → FileFault
  | .inappropriateType .. => .notFolder
  | .invalidArgument .. => .nameTooLong
  | _ => .missing

/-- Read an entry of a folder with everything below it.  Of files that are no
fixtures only the name matters. -/
partial def readEntry (entry : IO.FS.DirEntry) : IO (String × FileTree) := do
  let name := entry.fileName
  if ← entry.path.isDir then
    let entries ← (← entry.path.readDir).toList.mapM readEntry
    return (name, .folder entries)
  else if Fixture.suffix.toList.isSuffixOf name.toList then
    return (name, .file (← IO.FS.readFile entry.path))
  else return (name, .file "")

/-- Read what lies at a path. -/
def readPath (path : String) : IO Invocation.Found := do
  try
    let resolved ← IO.FS.realPath path
    if ← resolved.isDir then
      let entries ← (← resolved.readDir).toList.mapM readEntry
      return .ok (.folder entries)
    else return .ok (.file (← IO.FS.readFile path))
  catch error => return .error (faultOf error)

/-- Answer the arguments of a command line. -/
def answer (arguments : List String) : IO UInt32 := do
  let output ←
    match Invocation.ofArguments arguments with
    | .error interruption => pure interruption.output
    | .ok invocation =>
      invocation.run <$> readPath invocation.action.path
  IO.print output.stdout
  IO.eprint output.stderr
  return output.exit.toUInt32

end BlockForge

/-- The program. -/
def main (arguments : List String) : IO UInt32 := BlockForge.answer arguments
