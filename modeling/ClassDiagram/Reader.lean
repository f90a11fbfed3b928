import ClassDiagram.Event
import ClassDiagram.Line
import ClassDiagram.Model.Basic
import ClassDiagram.Registry

/-!
# Reading lines into a model

A reader holds the model so far and the entity whose body is open, if any. `Reader.feed` takes one
line further: members go to the open entity, everything else goes to the model, and a line that no
matcher recognises is dropped. A matcher that offers a fragment where it does not belong is refused,
and the reader stays as it was.

The open entity stands both in the scope and in the table of the model. The two are always the
same entity: a header stores and opens it at once, and a member updates it in both places.
-/

namespace ClassDiagram

/-- Whether a body is open. -/
inductive Scope where
  | topLevel
  /-- The body of the given entity, with its members so far, is open. -/
  | inBody (entity : Entity)
deriving DecidableEq, Repr

/-- The model so far and the scope of the next line. -/
structure Reader where
  model : Model := {}
  scope : Scope := .topLevel
deriving DecidableEq, Repr

/-- A matcher offered a fragment in a place where it does not belong. -/
inductive Misplaced where
  /-- A body matcher offered something other than a member. -/
  | inBody (fragment : Fragment)
  /-- A top matcher offered a member. -/
  | atTop (fragment : Fragment)
deriving DecidableEq, Repr

/-- The wording of the refusal. -/
def Misplaced.message : Misplaced → String
  | inBody fragment => "Unexpected body fragment: " ++ fragment.describe
  | atTop fragment => "Unexpected top-level fragment: " ++ fragment.describe

/-- The entity with a member added, if the fragment is one. -/
def Entity.add? (entity : Entity) : Fragment → Option Entity
  | .attr member => some { entity with attributes := entity.attributes ++ [member] }
  | .method member => some { entity with methods := entity.methods ++ [member] }
  | .header _ | .relationship _ | .constraint _ => none

namespace Reader

/-- Stores an entity under its own name and leaves its body open. -/
def openBody (reader : Reader) (entity : Entity) : Reader where
  model := { reader.model with entities := reader.model.entities.insert entity.name entity }
  scope := .inBody entity

/-- Adds a member to the open entity. -/
def addMember (reader : Reader) (entity : Entity) (fragment : Fragment) :
    Except Misplaced (Reader × List Event) :=
  match entity.add? fragment with
  | some entity => .ok (reader.openBody entity, [])
  | none => .error (.inBody fragment)

/-- Adds a fragment to the model. A header starts its entity afresh. -/
def addTop (reader : Reader) (fragment : Fragment) : Except Misplaced (Reader × List Event) :=
  match fragment with
  | .header name =>
    .ok (reader.openBody ⟨name, [], []⟩,
      if reader.model.entities.contains name then [.redeclared name] else [])
  | .relationship link =>
    .ok ({ reader with model :=
      { reader.model with relationships := reader.model.relationships ++ [link] } }, [])
  | .constraint rule =>
    .ok ({ reader with model :=
      { reader.model with constraints := reader.model.constraints ++ [rule] } }, [])
  | .attr _ | .method _ => .error (.atTop fragment)

/-- Passes over a line that nothing recognised. Strict reading keeps it in the model. -/
def passOver (reader : Reader) (strict : Bool) (number : Int) (text : String) :
    Reader × List Event :=
  (if strict then
    { reader with model :=
      { reader.model with unmatched := reader.model.unmatched ++ [⟨number, text⟩] } }
  else reader,
  [.unrecognised strict number text])

/-- The open entity with the fragment that a body matcher finds for it in a line. -/
def bodyMatch (grammar : Grammar) (reader : Reader) (text : String) :
    Option (Entity × Fragment) :=
  match reader.scope with
  | .topLevel => none
  | .inBody entity => (findFragment grammar.body text).map (entity, ·)

/-- Takes in one content line. -/
def feedContent (grammar : Grammar) (strict : Bool) (reader : Reader) (number : Int)
    (text : String) : Except Misplaced (Reader × List Event) :=
  match reader.bodyMatch grammar text with
  | some (entity, fragment) => reader.addMember entity fragment
  | none =>
    match findFragment grammar.top text with
    | some fragment => reader.addTop fragment
    | none => .ok (reader.passOver strict number text)

/-- Takes in one raw line with its number. -/
def feed (grammar : Grammar) (strict : Bool) (reader : Reader) (number : Int) (raw : String) :
    Except Misplaced (Reader × List Event) :=
  match Line.classify raw with
  | .skip => .ok (reader, [])
  | .close => .ok ({ reader with scope := .topLevel }, [])
  | .content text => reader.feedContent grammar strict number text

end Reader

end ClassDiagram
