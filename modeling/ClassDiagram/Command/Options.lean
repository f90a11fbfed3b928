import ClassDiagram.Command.Argument
import ClassDiagram.Event
import ClassDiagram.Output.Format
import ClassDiagram.Run
import ClassDiagram.Text.Number

/-!
# Options

The arguments act from left to right, and a later value replaces an earlier one. Two hyphens as the
value of a switch leave the setting blank, without a check of the value. Only the first
unbroken group of operands names the input files. Arguments without a meaning are complained about
at the end, so a request for help or a wrong value before the end comes first.
-/

namespace ClassDiagram

/-- What a command line asks for. -/
structure Options where
  settings : Settings := {}
  /-- The least level of the events that are shown, unless it was left blank. -/
  threshold : Option Level := some .info
deriving DecidableEq, Repr

/-- Why a command line starts no run. -/
inductive Stop where
  | help
  | usage (error : UsageError)
deriving DecidableEq, Repr

/-- What the arguments so far ask for, whether the group of input files is complete, and the
arguments without a meaning. -/
structure OptionState where
  options : Options := {}
  inputsTaken : Bool := false
  leftover : List String := []
deriving DecidableEq, Repr

namespace OptionState

/-- Replaces the settings. -/
def withSettings (state : OptionState) (change : Settings → Settings) : OptionState :=
  { state with options := { state.options with settings := change state.options.settings } }

/-- The least level that is shown at each reporting level. -/
def thresholds : List (Int × Level) := [(0, .warning), (1, .info), (2, .debug)]

/-- Carries out a switch that takes no value. -/
def flag (state : OptionState) : Switch → Except Stop OptionState
  | .strict => .ok (state.withSettings ({ · with strict := true }))
  | .checkReferences => .ok (state.withSettings ({ · with checkReferences := true }))
  | .help => .error .help
  | .outdir | .format | .encoding | .reporting => .ok state

/-- Carries out a switch with its value. -/
def assign (state : OptionState) (switch : Switch) (value : String) :
    Except Stop OptionState :=
  match switch with
  | .outdir =>
    .ok (state.withSettings ({ · with destination := .directory (Path.ofString value) }))
  | .encoding => .ok (state.withSettings ({ · with encoding := some value }))
  | .format =>
    if (Format.all.map (·.name)).contains value then
      .ok (state.withSettings ({ · with format := .given value }))
    else
      .error (.usage (.invalidChoice switch (Text.literal value)
        (Format.all.map fun format ↦ Text.literal format.name)))
  | .reporting =>
    match Text.integer? value with
    | none => .error (.usage (.invalidInteger switch value))
    | some number =>
      match thresholds.lookup number with
      | some threshold =>
        .ok { state with options := { state.options with threshold := some threshold } }
      | none =>
        .error (.usage (.invalidChoice switch (toString number)
          (thresholds.map fun entry ↦ toString entry.1)))
  | .help | .strict | .checkReferences => .ok state

/-- Leaves the setting of a switch blank. -/
def blank (state : OptionState) : Switch → OptionState
  | .outdir => state.withSettings ({ · with destination := .blank })
  | .format => state.withSettings ({ · with format := .blank })
  | .encoding => state.withSettings ({ · with encoding := none })
  | .reporting => { state with options := { state.options with threshold := none } }
  | .help | .strict | .checkReferences => state

/-- Carries out a switch with the text given as its value. -/
def set (state : OptionState) (switch : Switch) (value : String) : Except Stop OptionState :=
  if value = "--" then .ok (state.blank switch) else state.assign switch value

/-- The value of a switch, which is attached or the next operand, and the arguments that remain. -/
def valueFor (switch : Switch) (attached : Option String) (rest : List Argument) :
    Except Stop (String × List Argument) :=
  match attached, rest with
  | some value, _ => .ok (value, rest)
  | none, .operand value :: rest => .ok (value, rest)
  | none, _ => .error (.usage (.missingValue switch))

end OptionState

/-- What the letters of one argument ask for: switches without a value, and one with a value that
may end them. -/
structure Cluster where
  flags : List Switch
  /-- The switch that ends the cluster and needs a value, with the value if it is attached. -/
  last : Option (Switch × Option String) := none
deriving DecidableEq, Repr

/-- Reads the letters behind the letter of a switch that takes no value. A character that is no
letter of a switch makes a value of itself and the rest, which the switch before it does not
want. -/
def Cluster.ofLetters (switch : Switch) : List Char → Except Stop Cluster
  | [] => .ok { flags := [switch] }
  | letter :: rest =>
    match Switch.ofLetter? letter with
    | none => .error (.usage (.unwantedValue switch (String.ofList (letter :: rest))))
    | some next =>
      if next.takesValue then
        let value := if rest = [] then none else some (String.ofList rest)
        .ok { flags := [switch], last := some (next, value) }
      else do
        let cluster ← Cluster.ofLetters next rest
        return { cluster with flags := switch :: cluster.flags }

namespace OptionState

/-- Carries out a cluster. The value of its last switch is looked for first. -/
def runCluster (state : OptionState) (cluster : Cluster) (rest : List Argument) :
    Except Stop (OptionState × List Argument) := do
  match cluster.last with
  | some (switch, attached) =>
    let (value, rest) ← valueFor switch attached rest
    let state ← cluster.flags.foldlM flag state
    return (← state.set switch value, rest)
  | none => return (← cluster.flags.foldlM flag state, rest)

/-- Carries out a switch with what is attached to it. Behind the letter of a switch that takes no
value, a text that is not empty is a cluster. -/
def runSwitch (state : OptionState) (switch : Switch) (isShort : Bool)
    (attached : Option (List Char)) (rest : List Argument) :
    Except Stop (OptionState × List Argument) :=
  if switch.takesValue then do
    let (value, rest) ← valueFor switch (attached.map String.ofList) rest
    return (← state.set switch value, rest)
  else
    match attached with
    | none => do return (← state.flag switch, rest)
    | some text =>
      if isShort ∧ text ≠ [] then do
        state.runCluster (← Cluster.ofLetters switch text) rest
      else .error (.usage (.unwantedValue switch (String.ofList text)))

/-- The text of an operand or separator. -/
def operandText? : Argument → Option String
  | .operand text => some text
  | .separator => some "--"
  | _ => none

/-- Takes a group of operands: as the input files, or else as arguments without a meaning. -/
def takeOperands (state : OptionState) (group : List Argument) : OptionState :=
  if state.inputsTaken then
    { state with leftover := state.leftover ++ group.filterMap operandText? }
  else
    let files := (group.filter (· != .separator)).filterMap operandText?
    { state.withSettings ({ · with inputs := files.map Path.ofString }) with inputsTaken := true }

/-- Whether an argument belongs to a group of operands. -/
def isOperand (argument : Argument) : Bool := (operandText? argument).isSome

/-- Carries out the arguments from left to right. Every round takes at least one argument, so as
many rounds as there are arguments are enough. -/
def runAll (state : OptionState) : Nat → List Argument → Except Stop OptionState
  | 0, _ | _, [] => .ok state
  | rounds + 1, argument :: rest =>
    match argument with
    | .unknown text => runAll { state with leftover := state.leftover ++ [text] } rounds rest
    | .short switch attached => do
      let (state, rest) ← state.runSwitch switch true attached rest
      state.runAll rounds rest
    | .long switch attached => do
      let (state, rest) ← state.runSwitch switch false attached rest
      state.runAll rounds rest
    | .operand _ | .separator =>
      (state.takeOperands (argument :: rest.takeWhile isOperand)).runAll rounds
        (rest.dropWhile isOperand)

end OptionState

/-- The options that a command line asks for. -/
def Options.ofArguments (texts : List String) : Except Stop Options := do
  let arguments ← (Argument.ofTexts texts).mapError .usage
  let state ← ({} : OptionState).runAll arguments.length arguments
  if state.leftover = [] then return state.options
  else .error (.usage (.unrecognised state.leftover))

end ClassDiagram
