import ClassDiagram.Reader
import ClassDiagram.Text.Basic

/-!
# Sources of lines

A source delivers lines and then ends, fails, or breaks off. Which of these an error means that it
raises in place of a line is told by the kind of the error: `Ending.ofError`. `Reader.read` takes in
the lines one by one, so a fault in a line is met before anything that the source does after that
line. A failure to read is reported with the number of lines read, and a source that breaks off
passes its cause on as it is. `Reader.feedAll_append` says that the lines may be taken in in two
parts.
-/

namespace ClassDiagram

/-- How a source stops delivering lines. -/
inductive Ending (ε : Type) where
  | finished
  /-- The next line cannot be read. -/
  | failed (cause : ε)
  /-- Something unrelated to reading went wrong. -/
  | broken (cause : ε)
deriving DecidableEq, Repr

/-- The kinds of errors that are told apart where a source raises one. An error may be of several
kinds, or of none. -/
structure ErrorKinds (ε : Type) where
  /-- The error only says that there are no more lines. -/
  stops : ε → Bool
  system : ε → Bool
  /-- The error comes from a value that cannot be used, such as bytes that cannot be decoded. -/
  value : ε → Bool

/-- How a source stops that raises an error in place of its next line. An error that says that there
are no more lines is taken as their end, whatever else it may be. -/
def Ending.ofError {ε : Type} (kinds : ErrorKinds ε) (error : ε) : Ending ε :=
  if kinds.stops error then .finished
  else if kinds.system error || kinds.value error then .failed error
  else .broken error

/-- Lines in order and how they end. -/
structure Source (ε : Type) where
  lines : List String
  ending : Ending ε := .finished
deriving DecidableEq, Repr

namespace Source

variable {ε : Type}

/-- A source that delivers lines and then ends by itself or raises an error. -/
def delivering (kinds : ErrorKinds ε) (lines : List String) (raised : Option ε) : Source ε where
  lines := lines
  ending :=
    match raised with
    | none => .finished
    | some error => .ofError kinds error

/-- The lines of a text, cut at line feeds. After a final line feed comes one empty line. -/
def ofText (text : String) : Source ε :=
  ⟨(Text.splitOn '\n' text.toList).map String.ofList, .finished⟩

/-- The lines of a text as a stream delivers them, each with its line feed. -/
def ofStream (text : String) : Source ε :=
  ⟨(Text.streamLines text.toList).map String.ofList, .finished⟩

end Source

/-- What stopped a reader before the end of its source. -/
inductive Halt (ε : Type) where
  | misplaced (refusal : Misplaced)
  /-- Reading failed after so many lines. -/
  | unreadable (lines : Nat) (cause : ε)
  | broken (cause : ε)
deriving DecidableEq, Repr

/-- The wording of a failure to read, given the wording of its cause. -/
def unreadableMessage (lines : Nat) (cause : String) : String :=
  "Failed to read input after line " ++ toString lines ++ ": " ++ cause

/-- A reader after some lines, what it reported, and what stopped it if anything did. -/
structure Reading (ε : Type) where
  reader : Reader
  events : List Event := []
  halt : Option ε := none
deriving DecidableEq, Repr

namespace Reader

variable {ε : Type}

/-- Takes in lines that are numbered from `number` on, up to the first that is refused. -/
def feedAll (grammar : Grammar) (strict : Bool) (reader : Reader) (number : Int) :
    List String → Reading Misplaced
  | [] => { reader }
  | raw :: rest =>
    match reader.feed grammar strict number raw with
    | .error refusal => { reader, halt := some refusal }
    | .ok (next, events) =>
      let reading := next.feedAll grammar strict (number + 1) rest
      { reading with events := events ++ reading.events }

/-- Lines may be taken in in two parts, of which the second comes only if no line of the first is
refused. -/
theorem feedAll_append (grammar : Grammar) (strict : Bool) (reader : Reader) (number : Int)
    (first second : List String) :
    reader.feedAll grammar strict number (first ++ second) =
      let head := reader.feedAll grammar strict number first
      match head.halt with
      | some _ => head
      | none =>
        let tail := head.reader.feedAll grammar strict (number + first.length) second
        { tail with events := head.events ++ tail.events } := by
  induction first generalizing reader number with
  | nil => simp [feedAll]
  | cons raw rest ih =>
    simp only [List.cons_append, feedAll, List.length_cons]
    cases reader.feed grammar strict number raw with
    | error refusal => rfl
    | ok result =>
      have hcount :
          number + 1 + (rest.length : Int) = number + ((rest.length + 1 : Nat) : Int) := by
        omega
      simp only [ih, hcount]
      cases hhalt : (result.1.feedAll grammar strict (number + 1) rest).halt with
      | some refusal => simp [hhalt]
      | none => simp [List.append_assoc]

/-- Takes in a whole source. The end of the source closes an open body, a fault leaves it open. -/
def read (grammar : Grammar) (strict : Bool) (reader : Reader) (source : Source ε) :
    Reading (Halt ε) :=
  let fed := reader.feedAll grammar strict 1 source.lines
  match fed.halt, source.ending with
  | some refusal, _ =>
    { reader := fed.reader, events := fed.events, halt := some (.misplaced refusal) }
  | none, .finished =>
    { reader := { fed.reader with scope := .topLevel }, events := fed.events }
  | none, .failed cause =>
    { reader := fed.reader, events := fed.events
      halt := some (.unreadable source.lines.length cause) }
  | none, .broken cause =>
    { reader := fed.reader, events := fed.events, halt := some (.broken cause) }

end Reader

/-- The model of a source, or what stopped its reading. -/
def Reading.model? {ε : Type} (reading : Reading ε) : Except ε Model :=
  match reading.halt with
  | some halt => .error halt
  | none => .ok reading.reader.model

/-- Reads a source from the start. -/
def parse {ε : Type} (grammar : Grammar) (strict : Bool) (source : Source ε) :
    Reading (Halt ε) :=
  ({} : Reader).read grammar strict source

end ClassDiagram
