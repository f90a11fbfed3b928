import ClassDiagram.Command.Options
import ClassDiagram.Command.Usage

/-!
# The command

The command as a function: from the arguments, the bytes of the standard input and the files, to
the exit, the texts on the two output streams, and the files afterwards.
-/

namespace ClassDiagram

/-- How a command ends: with an exit code, or by a fault that it does not handle. -/
inductive Exit where
  | code (code : Nat)
  | fault (fault : RunFault)
deriving DecidableEq, Repr

/-- What a command does: how it ends, the texts on the two output streams, and the files
afterwards. -/
structure CommandResult where
  exit : Exit
  output : String := ""
  errors : String := ""
  tree : FileTree
deriving DecidableEq, Repr

/-- The reports of the events that reach a level, one to a line. -/
def reports (threshold : Level) (events : List Event) : String :=
  String.join ((events.filter fun event ↦ threshold.rank ≤ event.level.rank).map
    fun event ↦ event.report ++ "\n")

/-- Carries out a run, and reports the events that reach a level. The standard input is in UTF-8,
whatever the encoding of the files. -/
def Settings.runReporting [Codecs] (settings : Settings) (threshold : Level) (grammar : Grammar)
    (stdin : List UInt8) (tree : FileTree) : CommandResult :=
  let result := settings.run grammar (Encoding.utf8.codec.source stdin) tree
  let errors := reports threshold result.events
  match result.fault with
  | none => { exit := .code 0, output := result.output, errors, tree := result.tree }
  | some fault =>
    if fault.isInputError then
      { exit := .code 1, output := result.output
        errors := errors ++ "ERROR: " ++ fault.message ++ "\n", tree := result.tree }
    else { exit := .fault fault, output := result.output, errors, tree := result.tree }

/-- Carries out a command that has been understood. No run starts without a level of reporting. -/
def Options.run [Codecs] (options : Options) (grammar : Grammar) (stdin : List UInt8)
    (tree : FileTree) : CommandResult :=
  match options.threshold with
  | none => { exit := .fault .blankReporting, tree }
  | some threshold => options.settings.runReporting threshold grammar stdin tree

/-- Carries out a command line. -/
def command [Codecs] (grammar : Grammar) (arguments : List String) (stdin : List UInt8)
    (tree : FileTree) : CommandResult :=
  match Options.ofArguments arguments with
  | .ok options => options.run grammar stdin tree
  | .error .help => { exit := .code 0, output := Usage.help, tree }
  | .error (.usage error) =>
    { exit := .code 2, errors := Usage.complaint error.message, tree }

end ClassDiagram
