import ClassDiagram.Command.Basic

/-!
# The program

The outer layer of the command. It takes a picture of the files that the command line concerns,
lets the command work on the picture, and carries the changes and the output out.
-/

namespace ClassDiagram.Program

/-- A place as the system names it. -/
def systemName (place : Place) : String := "/" ++ "/".intercalate place

/-- What the system has at a place. A directory cannot be read as a file but can be listed. -/
def look (place : Place) : IO (Option Node) := do
  try
    return some (.file (← IO.FS.readBinFile (systemName place)).toList)
  catch _ =>
    let here ← IO.currentDir
    return if ← (here / systemName place).isDir then some .directory else none

/-- The file tree with all that the system has along a path. -/
def addPath (tree : FileTree) (path : Path) : IO FileTree :=
  (tree.stations path).foldlM (fun tree place ↦ do
    match ← look place with
    | some node => return tree.place place node
    | none => return tree) tree

/-- The working directory with everything above it. -/
def startTree : IO FileTree := do
  let here := (Path.ofString (← IO.currentDir).toString).names
  return (List.range here.length).foldl
    (fun tree count ↦ tree.place (here.take (count + 1)) .directory)
    { workingDirectory := here }

/-- Reads a stream to its end. -/
partial def readAll (stream : IO.FS.Stream) (bytes : ByteArray) : IO ByteArray := do
  let chunk ← stream.read 65536
  if chunk.isEmpty then return bytes else readAll stream (bytes ++ chunk)

/-- What a run works on: the bytes of the standard input, if it is to be read, and the files. -/
def prepare (settings : Settings) : IO (List UInt8 × FileTree) := do
  let tree ← settings.paths.foldlM addPath (← startTree)
  if settings.inputs = [] then return ((← readAll (← IO.getStdin) ByteArray.empty).toList, tree)
  else return ([], tree)

/-- Carries out one change of the file tree. -/
def carryOut : Place × Node → IO Unit
  | (place, .directory) => IO.FS.createDirAll (systemName place)
  | (place, .file bytes) => IO.FS.writeBinFile (systemName place) (ByteArray.mk bytes.toArray)

/-- Carries out what a command did, and gives the exit code. A fault that the command does not
handle is shown and ends the program with code 1. -/
def conclude (earlier : FileTree) (result : CommandResult) : IO UInt32 := do
  (FileTree.changes earlier result.tree).forM carryOut
  (← IO.getStdout).putStr result.output
  (← IO.getStderr).putStr result.errors
  match result.exit with
  | .code code => return code.toUInt32
  | .fault fault =>
    (← IO.getStderr).putStr (fault.message ++ "\n")
    return 1

end ClassDiagram.Program

open ClassDiagram in
/-- The program. A command line that starts no run concerns no files. -/
def main (arguments : List String) : IO UInt32 := do
  let (stdin, tree) ← match Options.ofArguments arguments with
    | .ok options => Program.prepare options.settings
    | .error _ => pure ([], {})
  Program.conclude tree (command Grammar.standard arguments stdin tree)
