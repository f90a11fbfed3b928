import ClassDiagram.Encoding.TextFile
import ClassDiagram.Files.FileName
import ClassDiagram.Files.FileTree
import ClassDiagram.Output.Format

/-!
# Runs

A run reads every input, reports on it, and writes one rendering per input: to the output text, or
to a file in the output directory. The first failure ends the run, and what was written before it
stays. A setting that was left blank is a failure where the run needs it, and not before.

Files may be missing or refused, but the output text is supposed to take whatever is written to it.
-/

namespace ClassDiagram

/-- Where the renderings go: to the output text, to files in a directory, or to files in a directory
whose name was left blank. -/
inductive Destination where
  | output
  | directory (path : Path)
  | blank
deriving DecidableEq, Repr

/-- What a run is to do. -/
structure Settings where
  /-- The files to read. The standard input is read if there are none. -/
  inputs : List Path := []
  destination : Destination := .output
  format : FormatName := .given "dump"
  /-- Whether unrecognised lines are warned about and kept. -/
  strict : Bool := false
  /-- Whether undeclared names are warned about. -/
  checkReferences : Bool := false
  /-- The name of the encoding of the files, unless it was left blank. -/
  encoding : Option String := some "utf-8"
deriving DecidableEq, Repr

/-- What can end a run. -/
inductive RunFault where
  | cannotOpen (path : Path) (fault : SystemFault)
  | halted (halt : Halt DecodeError)
  | zeroInEncoding
  | encoding (fault : EncodingFault)
  | format (fault : UnknownFormat)
  | file (failure : FileError)
  | blankDirectory
  | blankEncoding
  | blankReporting
deriving DecidableEq, Repr

namespace RunFault

/-- The wording of a fault. -/
def message : RunFault → String
  | cannotOpen path fault =>
    "Cannot open " ++ path.toString ++ ": " ++ (FileError.system fault path).message
  | halted (.misplaced refusal) => refusal.message
  | halted (.unreadable lines cause) => unreadableMessage lines cause.message
  | halted (.broken cause) => cause.message
  | zeroInEncoding => "embedded null character"
  | encoding fault => fault.message
  | format fault => fault.message
  | file failure => failure.message
  | blankDirectory => "'list' object has no attribute 'mkdir'"
  | blankEncoding => "open() argument 'encoding' must be str or None, not list"
  | blankReporting => "unhashable type: 'list'"

/-- Whether the fault lies in an input that could not be opened or read. -/
def isInputError : RunFault → Bool
  | cannotOpen .. | halted (.unreadable ..) => true
  | _ => false

end RunFault

/-- Saves a document in a directory, under a name to which its suffix is added. The text is
encoded as UTF-8. -/
def Document.save (document : Document) (tree : FileTree) (directory : Path) (name : String) :
    FileTree × Except FileError Path :=
  tree.save directory (name ++ document.suffix) (document.text.toList.flatMap Utf8.encode)

/-- Opens a file as a source of lines. The file is looked for before the encoding is. -/
def openFile [Codecs] (tree : FileTree) (path : Path) (encoding : String) :
    Except RunFault (Source DecodeError) :=
  if encoding.toList.contains (Char.ofNat 0) then .error .zeroInEncoding
  else
    match tree.read path with
    | .error (.system fault path) => .error (.cannotOpen path fault)
    | .error failure => .error (.file failure)
    | .ok bytes =>
      match Codec.ofName encoding with
      | .error fault => .error (.encoding fault)
      | .ok codec => .ok (codec.source bytes)

/-- The result of reading an input: its model or what went wrong, and the events. -/
abbrev ReadResult := Except RunFault Model × List Event

/-- Reads a source. -/
def loadSource (grammar : Grammar) (strict : Bool) (source : Source DecodeError) : ReadResult :=
  let reading := parse grammar strict source
  (reading.model?.mapError .halted, reading.events)

/-- Reads a file, and reports its success. -/
def loadFile [Codecs] (grammar : Grammar) (strict : Bool) (encoding : String) (tree : FileTree)
    (path : Path) : ReadResult :=
  match openFile tree path encoding with
  | .error fault => (.error fault, [])
  | .ok source =>
    match loadSource grammar strict source with
    | (.ok model, events) =>
      (.ok model, events ++ [.parsed path model.entities.size model.relationships.length
        model.constraints.length])
    | failed => failed

/-- An input of a run. -/
inductive Input where
  | file (path : Path)
  | standard
deriving DecidableEq, Repr

/-- The name of an input in titles, reports and file names. -/
def Input.name : Input → String
  | file path => path.stem
  | standard => "stdin"

/-- What a run has done: the files after it, the output text, the events, the files written, and
what ended it early if anything did. -/
structure RunResult where
  tree : FileTree
  output : String := ""
  events : List Event := []
  written : List Path := []
  fault : Option RunFault := none
deriving DecidableEq, Repr

namespace Settings

/-- The inputs of a run. -/
def sources (settings : Settings) : List Input :=
  if settings.inputs = [] then [.standard] else settings.inputs.map .file

/-- Reads one input. -/
def readInput [Codecs] (settings : Settings) (grammar : Grammar) (stdin : Source DecodeError)
    (tree : FileTree) : Input → ReadResult
  | .file path =>
    match settings.encoding with
    | none => (.error .blankEncoding, [])
    | some encoding => loadFile grammar settings.strict encoding tree path
  | .standard => loadSource grammar settings.strict stdin

/-- The warnings about undeclared names, if they are asked for. -/
def warnings (settings : Settings) (name : String) (model : Model) : List Event :=
  if settings.checkReferences then model.dangling.map (.undeclared name) else []

/-- Delivers the rendering of an input. -/
def deliver (settings : Settings) (tree : FileTree) (name : String) (document : Document) :
    RunResult :=
  match settings.destination with
  | .output => { tree, output := document.text }
  | .blank => { tree, fault := some .blankDirectory }
  | .directory path =>
    match document.save tree path (FileName.sanitise name) with
    | (tree, .ok path) => { tree, events := [.wrote path], written := [path] }
    | (tree, .error failure) => { tree, fault := some (.file failure) }

/-- Handles one input. -/
def runInput [Codecs] (settings : Settings) (grammar : Grammar) (stdin : Source DecodeError)
    (tree : FileTree) (input : Input) : RunResult :=
  match settings.readInput grammar stdin tree input with
  | (.error fault, events) => { tree, events, fault := some fault }
  | (.ok model, events) =>
    let events := events ++ settings.warnings input.name model
    match Format.ofName settings.format with
    | .error fault => { tree, events, fault := some (.format fault) }
    | .ok format =>
      let result := settings.deliver tree input.name (format.document model (some input.name))
      { result with events := events ++ result.events }

/-- Handles the inputs in order, up to the first that fails. -/
def runInputs [Codecs] (settings : Settings) (grammar : Grammar) (stdin : Source DecodeError)
    (tree : FileTree) : List Input → RunResult
  | [] => { tree }
  | input :: rest =>
    let first := settings.runInput grammar stdin tree input
    match first.fault with
    | some _ => first
    | none =>
      let others := settings.runInputs grammar stdin first.tree rest
      { others with
        output := first.output ++ others.output
        events := first.events ++ others.events
        written := first.written ++ others.written }

/-- Every path that a run may look at or write to. -/
def paths (settings : Settings) : List Path :=
  settings.inputs ++
    match settings.destination with
    | .output | .blank => []
    | .directory path =>
      path :: settings.sources.flatMap fun input ↦
        [".txt", ".json", ".puml"].map fun suffix ↦
          path.join (Path.ofString (FileName.sanitise input.name ++ suffix))

/-- Carries out a run. -/
def run [Codecs] (settings : Settings) (grammar : Grammar) (stdin : Source DecodeError)
    (tree : FileTree) : RunResult :=
  settings.runInputs grammar stdin tree settings.sources

end Settings

end ClassDiagram
