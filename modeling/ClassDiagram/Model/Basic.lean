import ClassDiagram.Model.Entity
import ClassDiagram.Table

/-!
# The model of a class diagram

A model holds the entities by name in the order of their first declaration, the relationships and
the constraints in the order of their lines, and, where asked for, the lines that nothing
recognised. `Model.dangling` lists the names that are used but not declared.
-/

namespace ClassDiagram

/-- A line that no form recognised, by its number and its trimmed text. -/
structure UnmatchedLine where
  number : Int
  text : String
deriving DecidableEq, Repr

/-- What a class diagram says. -/
structure Model where
  entities : Table String Entity := {}
  relationships : List Relationship := []
  constraints : List Constraint := []
  unmatched : List UnmatchedLine := []
deriving DecidableEq, Repr

namespace Model

/-- The names used by relationships and then by constraints, each as often as it is used. -/
def references (model : Model) : List String :=
  model.relationships.flatMap (fun r ↦ [r.source, r.target]) ++ model.constraints.map (·.target)

/-- Adds an undeclared name that has not been noted before. -/
def noteDangling (model : Model) (noted : List String) (name : String) : List String :=
  if model.entities.contains name || noted.contains name then noted else noted ++ [name]

/-- The names that are used but not declared, each once, in the order of first use. -/
def dangling (model : Model) : List String := model.references.foldl model.noteDangling []

/-- Whether two models say the same. The order of the entities does not matter, the order of
everything else does. -/
def sameAs (left right : Model) : Bool :=
  left.entities.sameEntries right.entities && left.relationships == right.relationships &&
    left.constraints == right.constraints && left.unmatched == right.unmatched

end Model

end ClassDiagram
