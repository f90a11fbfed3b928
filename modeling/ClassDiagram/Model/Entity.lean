/-!
# The parts of a class diagram

Entities with their members, the relationships between entities, and the constraints on them.
-/

namespace ClassDiagram

/-- A named, typed field of an entity. -/
structure Attribute where
  name : String
  type : String
deriving DecidableEq, Repr

/-- A named operation of an entity. Parameters are not kept. -/
structure Method where
  name : String
  returnType : String
deriving DecidableEq, Repr

/-- A declared class, entity or object with its members in the order of their lines. -/
structure Entity where
  name : String
  attributes : List Attribute := []
  methods : List Method := []
deriving DecidableEq, Repr

/-- A directed connection between two names, which need not be declared. A multiplicity or label
that was not written is empty. -/
structure Relationship where
  source : String
  target : String
  /-- The connector as it was written. -/
  kind : String
  sourceMultiplicity : String := ""
  targetMultiplicity : String := ""
  label : String := ""
deriving DecidableEq, Repr

/-- A rule about a name, whose expression is kept as text. -/
structure Constraint where
  /-- What the rule demands, such as uniqueness. -/
  kind : String
  target : String
  expression : String
deriving DecidableEq, Repr

end ClassDiagram
