import ClassDiagram.Model.Basic
import ClassDiagram.Output.Document

/-!
# The inspection listing

A plain listing of a model in three sections: entities with their members, relationships, and
constraints.
-/

namespace ClassDiagram.Listing

/-- The lines of an entity. -/
def entityLines (entity : Entity) : List String :=
  (" - " ++ entity.name) ::
    (entity.attributes.map (fun a ↦ "    attr " ++ a.name ++ " : " ++ a.type) ++
      entity.methods.map (fun m ↦ "    method " ++ m.name ++ "() : " ++ m.returnType))

/-- The line of a relationship. -/
def relationshipLine (r : Relationship) : String :=
  " - " ++ r.source ++ " \"" ++ r.sourceMultiplicity ++ "\" " ++ r.kind ++ " \"" ++
    r.targetMultiplicity ++ "\" " ++ r.target ++ " : " ++ r.label

/-- The line of a constraint. -/
def constraintLine (c : Constraint) : String :=
  " - " ++ c.kind ++ " on " ++ c.target ++ " : " ++ c.expression

/-- The lines of a model. -/
def lines (model : Model) : List String :=
  "Entities:" :: model.entities.values.flatMap entityLines ++
    "Relationships:" :: model.relationships.map relationshipLine ++
    "Constraints:" :: model.constraints.map constraintLine

/-- The listing of a model. -/
def document (model : Model) : Document :=
  ({ suffix := ".txt" } : Document).writeLines (lines model)

end ClassDiagram.Listing
