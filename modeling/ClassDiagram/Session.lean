import ClassDiagram.Source

/-!
# Sessions

A session holds one source and one reader. Lines can be fed to the reader directly at any time.
The source can be read once, whether or not that reading succeeds.
-/

namespace ClassDiagram

/-- What can go wrong in a step of a session. -/
inductive SessionFault (ε : Type) where
  | alreadyRead
  | halted (halt : Halt ε)
deriving DecidableEq, Repr

/-- The wording of the refusal to read a source twice. -/
def alreadyReadMessage : String := "Parser instances parse their source only once."

/-- A reader with its source, which can be read once. -/
structure Session (ε : Type) where
  grammar : Grammar
  strict : Bool
  source : Source ε
  reader : Reader := {}
  consumed : Bool := false

/-- One step of a session. -/
inductive Step where
  | feed (number : Int) (raw : String)
  | parse
deriving DecidableEq, Repr

/-- What a step did: the session after it, what was reported, and what went wrong if anything. -/
structure StepResult (ε : Type) where
  session : Session ε
  events : List Event := []
  fault : Option (SessionFault ε) := none

namespace Session

variable {ε : Type}

/-- Feeds one line. A refused line changes nothing. -/
def feed (session : Session ε) (number : Int) (raw : String) : StepResult ε :=
  match session.reader.feed session.grammar session.strict number raw with
  | .ok (reader, events) => { session := { session with reader }, events }
  | .error refusal => { session, fault := some (.halted (.misplaced refusal)) }

/-- Reads the source, unless that was done before. -/
def parse (session : Session ε) : StepResult ε :=
  if session.consumed then { session, fault := some .alreadyRead }
  else
    let reading := session.reader.read session.grammar session.strict session.source
    { session := { session with reader := reading.reader, consumed := true }
      events := reading.events
      fault := reading.halt.map .halted }

/-- Takes one step. -/
def step (session : Session ε) : Step → StepResult ε
  | .feed number raw => session.feed number raw
  | .parse => session.parse

end Session

end ClassDiagram
