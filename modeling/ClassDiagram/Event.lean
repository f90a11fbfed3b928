import ClassDiagram.Files.Path
import ClassDiagram.Text.Quotes

/-!
# Events

What the program reports while it works, with the level and the wording of each report.
-/

namespace ClassDiagram

/-- How important a report is. -/
inductive Level where
  | debug
  | info
  | warning
deriving DecidableEq, Repr

namespace Level

/-- The name of a level. -/
def name : Level → String
  | debug => "DEBUG"
  | info => "INFO"
  | warning => "WARNING"

/-- The place of a level in the order of importance. -/
def rank : Level → Nat
  | debug => 0
  | info => 1
  | warning => 2

end Level

/-- Something worth a report. -/
inductive Event where
  /-- A content line had no known form. The report is a warning in strict reading. -/
  | unrecognised (strict : Bool) (number : Int) (text : String)
  /-- An entity was declared again, which discards its earlier members. -/
  | redeclared (name : String)
  | parsed (path : Path) (entities relationships constraints : Nat)
  | undeclared (input name : String)
  | wrote (path : Path)
deriving DecidableEq, Repr

namespace Event

/-- How important an event is. -/
def level : Event → Level
  | unrecognised strict _ _ => if strict then .warning else .debug
  | redeclared _ => .debug
  | parsed .. => .info
  | undeclared .. => .warning
  | wrote _ => .info

/-- The wording of an event. -/
def message : Event → String
  | unrecognised _ number text => "Line " ++ toString number ++ " not recognised, ignored: " ++ text
  | redeclared name =>
    "Entity " ++ Text.literal name ++ " declared again; earlier members are discarded"
  | parsed path entities relationships constraints =>
    "Parsed " ++ path.toString ++ ": " ++ toString entities ++ " entities, " ++
      toString relationships ++ " relationships, " ++ toString constraints ++ " constraints"
  | undeclared input name =>
    input ++ ": " ++ Text.literal name ++ " is referenced but never declared as an entity"
  | wrote path => "Wrote " ++ path.toString

/-- The report of an event: its level and its wording. -/
def report (event : Event) : String := event.level.name ++ ": " ++ event.message

end Event

end ClassDiagram
