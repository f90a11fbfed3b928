import ClassDiagram.Model.Basic
import ClassDiagram.Output.Document

/-!
# The diagram text

A model written in the notation from which models are read.
-/

namespace ClassDiagram.Diagram

/-- The lines of an entity: its header, its members and the closing brace. -/
def entityLines (entity : Entity) : List String :=
  ("class " ++ entity.name ++ " \x7b") ::
    (entity.attributes.map (fun a ↦ "  " ++ a.name ++ " : " ++ a.type) ++
      entity.methods.map (fun m ↦ "  " ++ m.name ++ "() : " ++ m.returnType) ++ ["\x7d"])

/-- A multiplicity between quotes, or nothing if it is empty. -/
def multiplicity (text : String) : List String :=
  if text = "" then [] else ["\"" ++ text ++ "\""]

/-- A relationship without its label. -/
def connection (r : Relationship) : String :=
  " ".intercalate
    ([r.source] ++ multiplicity r.sourceMultiplicity ++ [r.kind] ++
      multiplicity r.targetMultiplicity ++ [r.target])

/-- The line of a relationship. -/
def relationshipLine (r : Relationship) : String :=
  if r.label = "" then connection r else connection r ++ " : " ++ r.label

/-- The line of a constraint. -/
def constraintLine (c : Constraint) : String :=
  "constraint " ++ c.kind ++ " on " ++ c.target ++ " : " ++ c.expression

/-- The lines of a model between the two directives. -/
def lines (model : Model) : List String :=
  model.entities.values.flatMap entityLines ++ model.relationships.map relationshipLine ++
    model.constraints.map constraintLine

/-- The diagram of a model, with an optional title. -/
def document (model : Model) (title : Option String) : Document :=
  ((({} : Document).start title).writeLines (lines model)).finish

end ClassDiagram.Diagram
