import ClassDiagram.Model.Entity
import ClassDiagram.Text.Quotes

/-!
# Fragments

A fragment is what one recognised line contributes to a model.
-/

namespace ClassDiagram

/-- What one recognised line contributes. -/
inductive Fragment where
  /-- The start of an entity and of its body. -/
  | header (name : String)
  | attr (member : Attribute)
  | method (member : Method)
  | relationship (link : Relationship)
  | constraint (rule : Constraint)
deriving DecidableEq, Repr

namespace Fragment

/-- A record as messages show it: its name and its fields with their values as literals. -/
def showRecord (name : String) (fields : List (String × String)) : String :=
  name ++ "(" ++ ", ".intercalate (fields.map fun field ↦ field.1 ++ "=" ++ Text.literal field.2)
    ++ ")"

/-- A fragment as messages show it. -/
def describe : Fragment → String
  | header name => showRecord "EntityHeader" [("name", name)]
  | attr a => showRecord "Attribute" [("name", a.name), ("type", a.type)]
  | method m => showRecord "Method" [("name", m.name), ("return_type", m.returnType)]
  | relationship r =>
    showRecord "Relationship"
      [("source", r.source), ("target", r.target), ("kind", r.kind),
        ("source_multiplicity", r.sourceMultiplicity),
        ("target_multiplicity", r.targetMultiplicity), ("label", r.label)]
  | constraint c =>
    showRecord "Constraint"
      [("kind", c.kind), ("target", c.target), ("expression", c.expression)]

end Fragment

end ClassDiagram
