import ValueGen.Command.Run

/-!
This module contains the program. It takes up the working directory with all that lies in it, runs
the command line on it, and changes the directory to what the run left behind.
-/

namespace ValueGen

namespace Program

def path (p : Place) : String := String.ofList (Text.join [Path.separator] p).chars

partial def readEntry (directory : Place) (e : IO.FS.DirEntry) : IO (List (Place × Node)) := do
  let place := directory ++ [Text.ofString e.fileName]
  if ← e.path.isDir then
    let inner ← (← e.path.readDir).toList.mapM (readEntry place)
    return (place, .directory) :: inner.flatten
  else
    return [(place, .file (← IO.FS.readBinFile e.path).toList)]

def readDisk : IO Disk := do
  let entries ← (← IO.currentDir).readDir
  return ⟨(← entries.toList.mapM (readEntry [])).flatten⟩

def print (s : IO.FS.Stream) (t : Text) : IO Unit := s.write ⟨t.toArray⟩

/--
Make the working directory, which was `before`, what it is `after`.
-/
def writeDisk (before after : Disk) : IO Unit := do
  for (place, _) in before.entries.reverse do
    if (after.node? place).isNone then
      IO.FS.removeFile (path place)
  for (place, node) in after.entries do
    if before.node? place != some node then
      match node with
      | .file content => IO.FS.writeBinFile (path place) ⟨content.toArray⟩
      | _ => IO.FS.createDirAll (path place)

end Program

end ValueGen

open ValueGen in
def main (args : List String) : IO UInt32 := do
  let before ← Program.readDisk
  let r := Command.run before (.inOrder false) (args.map Text.ofString)
  Program.writeDisk before r.disk
  Program.print (← IO.getStdout) r.output
  let errors ← IO.getStderr
  for l in r.log do
    Program.print errors (l.render ++ [10])
  match r.failure with
  | none => return 0
  | some f =>
    Program.print errors (Command.program ++ Text.ofString ": " ++ f.message ++ [10])
    return 1
