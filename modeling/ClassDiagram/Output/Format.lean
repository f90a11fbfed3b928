import ClassDiagram.Output.Diagram
import ClassDiagram.Output.Json
import ClassDiagram.Output.Listing
import ClassDiagram.Text.Quotes

/-!
# Output formats

The three formats in which a model can be written, known by their names.
-/

namespace ClassDiagram

/-- A way to write a model. -/
inductive Format where
  | dump
  | json
  | puml
deriving DecidableEq, Repr

/-- How a format is asked for: by a name, not at all, or by a name that was left blank. -/
inductive FormatName where
  | given (name : String)
  | absent
  | blank
deriving DecidableEq, Repr

/-- The text that messages show for a name. -/
def FormatName.literal : FormatName → String
  | given name => Text.literal name
  | absent => Text.literal? none
  | blank => "[]"

/-- No format has the name. -/
structure UnknownFormat where
  name : FormatName
deriving DecidableEq, Repr

/-- The wording of the failure. -/
def UnknownFormat.message (failure : UnknownFormat) : String :=
  "Unknown output format: " ++ failure.name.literal

namespace Format

/-- Every format, in the order in which they are offered. -/
def all : List Format := [dump, json, puml]

/-- The name of a format. -/
def name : Format → String
  | dump => "dump"
  | json => "json"
  | puml => "puml"

/-- The format of a given name. -/
def ofName (name : FormatName) : Except UnknownFormat Format :=
  match all.find? (fun format ↦ .given format.name = name) with
  | some format => .ok format
  | none => .error ⟨name⟩

/-- Writes a model. Only the diagram shows the title. -/
def document (format : Format) (model : Model) (title : Option String) : Document :=
  match format with
  | dump => Listing.document model
  | json => Json.document model
  | puml => Diagram.document model title

end Format

end ClassDiagram
