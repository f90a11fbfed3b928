import ClassDiagram.Files.Path
import ClassDiagram.Table
import ClassDiagram.Text.Quotes

/-!
# File trees

A file tree is a value: reading looks into it, and writing gives a new tree. Paths are followed
name by name from the working directory or the root, so that a name behind something that is
missing or no directory is an error even if the name of the parent directory comes next.
-/

namespace ClassDiagram

/-- What stands at a place in a file tree. -/
inductive Node where
  | file (bytes : List UInt8)
  | directory
deriving DecidableEq, Repr

/-- A place in a file tree: the names that lead to it from the root. -/
abbrev Place := List String

/-- Files and directories by place. The root is always there. -/
structure FileTree where
  /-- Where paths without a root start. -/
  workingDirectory : Place := []
  nodes : Table Place Node := {}
deriving DecidableEq, Repr

/-- Why the system refuses an operation on a path. -/
inductive SystemFault where
  | missing
  | taken
  | notDirectory
  | isDirectory
  | tooLong
deriving DecidableEq, Repr

namespace SystemFault

/-- The number of an error. -/
def number : SystemFault → Nat
  | missing => 2
  | taken => 17
  | notDirectory => 20
  | isDirectory => 21
  | tooLong => 36

/-- The wording of an error. -/
def text : SystemFault → String
  | missing => "No such file or directory"
  | taken => "File exists"
  | notDirectory => "Not a directory"
  | isDirectory => "Is a directory"
  | tooLong => "File name too long"

end SystemFault

/-- Why an operation on a path failed. -/
inductive FileError where
  | system (fault : SystemFault) (path : Path)
  | zeroInPath
deriving DecidableEq, Repr

/-- The wording of the failure. -/
def FileError.message : FileError → String
  | system fault path =>
    "[Errno " ++ toString fault.number ++ "] " ++ fault.text ++ ": " ++ Text.literal path.toString
  | zeroInPath => "embedded null byte"

/-- The result of following a path: the place it leads to and what stands there, if anything. -/
structure Found where
  place : Place
  node : Option Node
deriving DecidableEq, Repr

namespace FileTree

/-- The greatest length of a name, in bytes. -/
def nameLimit : Nat := 255

/-- The length, in bytes, that a path must stay below. -/
def pathLimit : Nat := 4096

/-- What stands at a place. -/
def node? (tree : FileTree) (place : Place) : Option Node :=
  if place = [] then some .directory else tree.nodes.get? place

/-- Follows one name from a place. -/
def enter (tree : FileTree) (found : Found) (name : String) : Except SystemFault Found :=
  match found.node with
  | none => .error .missing
  | some (.file _) => .error .notDirectory
  | some .directory =>
    if name = ".." then .ok ⟨found.place.dropLast, some .directory⟩
    else if nameLimit < name.utf8ByteSize then .error .tooLong
    else
      let place := found.place ++ [name]
      .ok ⟨place, tree.node? place⟩

/-- The place where a path starts. -/
def startOf (tree : FileTree) (path : Path) : Place :=
  match path.anchor with
  | .working => tree.workingDirectory
  | .root | .doubleRoot => []

/-- Follows a path. The last name need not be there, the names before it must be directories. -/
def follow (tree : FileTree) (path : Path) : Except SystemFault Found :=
  if pathLimit ≤ path.toString.utf8ByteSize then .error .tooLong
  else path.names.foldlM tree.enter ⟨tree.startOf path, some .directory⟩

/-- The places that a path passes on its way, the last included. -/
def stations (tree : FileTree) (path : Path) : List Place :=
  (path.names.foldl
    (fun (visited : List Place × Place) name ↦
      let place := if name = ".." then visited.2.dropLast else visited.2 ++ [name]
      (visited.1 ++ [place], place))
    ([], tree.startOf path)).1

/-- What stands in a tree and did not stand so in an earlier one. -/
def changes (earlier later : FileTree) : List (Place × Node) :=
  later.nodes.entries.filter fun entry ↦ earlier.nodes.get? entry.1 ≠ some entry.2

/-- The fault of the system as a failure of an operation on the path. A path with a zero character
does not even reach the system. -/
def onPath {α : Type} (path : Path) (operation : Except SystemFault α) : Except FileError α :=
  if path.toString.toList.contains (Char.ofNat 0) then .error .zeroInPath
  else operation.mapError (.system · path)

/-- The bytes of the file at a path. -/
def read (tree : FileTree) (path : Path) : Except FileError (List UInt8) :=
  onPath path do
    match (← tree.follow path).node with
    | some (.file bytes) => return bytes
    | some .directory => .error .isDirectory
    | none => .error .missing

/-- Puts a node at a place. -/
def place (tree : FileTree) (place : Place) (node : Node) : FileTree :=
  { tree with nodes := tree.nodes.insert place node }

/-- Writes a file at a path, in a directory that is there. -/
def write (tree : FileTree) (path : Path) (bytes : List UInt8) : Except FileError FileTree :=
  onPath path do
    let found ← tree.follow path
    match found.node with
    | some .directory => .error .isDirectory
    | _ => return tree.place found.place (.file bytes)

/-- Makes the directory at a path, in a directory that is there. -/
def makeDirectory (tree : FileTree) (path : Path) : Except SystemFault FileTree := do
  let found ← tree.follow path
  match found.node with
  | some _ => .error .taken
  | none => return tree.place found.place .directory

/-- Whether a path leads to a directory. -/
def isDirectory (tree : FileTree) (path : Path) : Bool :=
  match tree.follow path with
  | .ok found => found.node == some .directory
  | .error _ => false

/-- Makes the directory at a path unless it is there. -/
def ensureDirectory (tree : FileTree) (path : Path) : FileTree × Except FileError Unit :=
  match tree.makeDirectory path with
  | .ok tree => (tree, .ok ())
  | .error fault =>
    (tree, if tree.isDirectory path then .ok () else .error (.system fault path))

/-- Makes the directory that is so many names below the anchor of a path, and every directory on
the way to it that is missing. What was made stays, also if a later part fails. -/
def ensureUpTo (tree : FileTree) (path : Path) : Nat → FileTree × Except FileError Unit
  | 0 => tree.ensureDirectory { path with names := [] }
  | count + 1 =>
    let target := { path with names := path.names.take (count + 1) }
    match tree.makeDirectory target with
    | .error .missing =>
      match tree.ensureUpTo path count with
      | (tree, .ok ()) => tree.ensureDirectory target
      | failed => failed
    | _ => tree.ensureDirectory target

/-- Makes the directory at a path and every directory on the way to it that is missing. -/
def ensureDirectories (tree : FileTree) (path : Path) : FileTree × Except FileError Unit :=
  match onPath path (.ok ()) with
  | .ok () => tree.ensureUpTo path path.names.length
  | .error failure => (tree, .error failure)

/-- Writes a file into a directory, which is made if it is missing. Gives the path of the file. -/
def save (tree : FileTree) (directory : Path) (name : String) (bytes : List UInt8) :
    FileTree × Except FileError Path :=
  match tree.ensureDirectories directory with
  | (tree, .error failure) => (tree, .error failure)
  | (tree, .ok ()) =>
    let path := directory.join (Path.ofString name)
    match tree.write path bytes with
    | .ok tree => (tree, .ok path)
    | .error failure => (tree, .error failure)

end FileTree

end ClassDiagram
