import ClassDiagram.Model.Basic
import ClassDiagram.Output.Document
import ClassDiagram.Text.Number

/-!
# JSON

A model as a JSON value, and the indented text of a JSON value. The text holds ASCII characters
only: every other character is escaped by its UTF-16 code units.
-/

namespace ClassDiagram

/-- The JSON values that describe a model. -/
inductive Json where
  | text (value : String)
  | array (items : List Json)
  | object (fields : List (String × Json))

namespace Json

/-- A UTF-16 code unit as an escape sequence. -/
def escapeUnit (unit : Nat) : List Char := '\\' :: 'u' :: Text.hexDigits 4 unit

/-- One character inside a JSON string. -/
def escapeChar (c : Char) : List Char :=
  if c = '"' ∨ c = '\\' then ['\\', c]
  else if c = '\n' then ['\\', 'n']
  else if c = '\r' then ['\\', 'r']
  else if c = '\t' then ['\\', 't']
  else if c.toNat = 0x08 then ['\\', 'b']
  else if c.toNat = 0x0C then ['\\', 'f']
  else if 0x20 ≤ c.toNat ∧ c.toNat < 0x7F then [c]
  else if c.toNat < 0x10000 then escapeUnit c.toNat
  else
    escapeUnit (0xD800 + (c.toNat - 0x10000) / 0x400) ++
      escapeUnit (0xDC00 + (c.toNat - 0x10000) % 0x400)

/-- A text as a JSON string. -/
def quote (text : String) : String :=
  String.ofList ('"' :: text.toList.flatMap escapeChar ++ ['"'])

/-- A line feed and the indentation of a nesting depth. -/
def newline (depth : Nat) : String := String.ofList ('\n' :: List.replicate (2 * depth) ' ')

/-- Items between brackets, each on a line of its own at one more than the given depth. -/
def block (opening closing : String) (depth : Nat) (items : List String) : String :=
  if items = [] then opening ++ closing
  else
    opening ++ newline (depth + 1) ++ ("," ++ newline (depth + 1)).intercalate items ++
      newline depth ++ closing

mutual
/-- The text of a value at a nesting depth. -/
def render (depth : Nat) : Json → String
  | .text value => quote value
  | .array items => block "[" "]" depth (renderItems (depth + 1) items)
  | .object fields => block "\x7b" "\x7d" depth (renderFields (depth + 1) fields)

/-- The texts of the items of an array. -/
def renderItems (depth : Nat) : List Json → List String
  | [] => []
  | item :: rest => item.render depth :: renderItems depth rest

/-- The texts of the fields of an object. -/
def renderFields (depth : Nat) : List (String × Json) → List String
  | [] => []
  | (key, value) :: rest => (quote key ++ ": " ++ value.render depth) :: renderFields depth rest
end

/-- An object whose values are all strings. -/
def record (fields : List (String × String)) : Json :=
  .object (fields.map fun field ↦ (field.1, .text field.2))

/-- An attribute as JSON. -/
def ofAttribute (a : Attribute) : Json := record [("name", a.name), ("type", a.type)]

/-- A method as JSON. -/
def ofMethod (m : Method) : Json := record [("name", m.name), ("return_type", m.returnType)]

/-- An entity as JSON. -/
def ofEntity (entity : Entity) : Json :=
  .object
    [("name", .text entity.name),
      ("attributes", .array (entity.attributes.map ofAttribute)),
      ("methods", .array (entity.methods.map ofMethod))]

/-- A relationship as JSON. -/
def ofRelationship (r : Relationship) : Json :=
  record
    [("from", r.source), ("to", r.target), ("kind", r.kind),
      ("from_multiplicity", r.sourceMultiplicity), ("to_multiplicity", r.targetMultiplicity),
      ("label", r.label)]

/-- A constraint as JSON. -/
def ofConstraint (c : Constraint) : Json :=
  record [("kind", c.kind), ("target", c.target), ("expression", c.expression)]

/-- A model as JSON. The lines that nothing recognised are left out. -/
def ofModel (model : Model) : Json :=
  .object
    [("entities", .array (model.entities.values.map ofEntity)),
      ("relationships", .array (model.relationships.map ofRelationship)),
      ("constraints", .array (model.constraints.map ofConstraint))]

/-- The JSON document of a model. -/
def document (model : Model) : Document :=
  ({ suffix := ".json" } : Document).writeLine ((ofModel model).render 0)

end Json

end ClassDiagram
