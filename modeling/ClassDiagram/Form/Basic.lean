import ClassDiagram.Form.Scan
import ClassDiagram.Fragment

/-!
# The forms of a line

A content line is recognised by its form. Written with `W` for a word, `_` for a gap that may be
empty and `+` for one that may not, the five forms are:

* entity header: `class + W _`, `entity + W _` or `object + W _`, then perhaps an opening brace;
* attribute: `W _ : _ W`;
* method: `W ( any text ) _ : _ W`, where the last closing parenthesis of the line counts;
* relationship: `W`, perhaps a quoted multiplicity, `+`, a connector, perhaps a quoted
  multiplicity, `+ W`, and perhaps `_ :` with a label;
* constraint: `constraint + W + on + W _ :` with an expression.

A line feed may follow any of them.
-/

namespace ClassDiagram.Form

open Scan Text

/-- The words that declare an entity. -/
def declarators : List (List Char) := ["class".toList, "entity".toList, "object".toList]

/-- The header of an entity, which gives its name. -/
def header? (line : List Char) : Option String := do
  let (declarator, rest) ← word? line
  guard (declarators.contains declarator)
  let rest ← gap? rest
  let (name, rest) ← word? rest
  let rest := skipGap rest
  guard (rest = [] ∨ rest = ['{'] ∨ rest = ['{', '\n'])
  return String.ofList name

/-- The type of a member: the colon, a word, and the end of the line. -/
def typeClause? (line : List Char) : Option String := do
  let rest ← char? ':' (skipGap line)
  let (type, rest) ← word? (skipGap rest)
  guard (atEnd rest)
  return String.ofList type

/-- An attribute. -/
def attr? (line : List Char) : Option Attribute := do
  let (name, rest) ← word? line
  let type ← typeClause? rest
  return ⟨String.ofList name, type⟩

/-- A method, whose parameters are passed over. -/
def method? (line : List Char) : Option Method := do
  let (name, rest) ← word? line
  let rest ← char? '(' rest
  let (parameters, rest) ← splitLast? ')' rest
  guard ('\n' ∉ parameters)
  let returnType ← typeClause? rest
  return ⟨String.ofList name, returnType⟩

/-- A character of a connector. -/
def isConnectorChar (c : Char) : Bool :=
  c == '-' || c == '.' || c == 'o' || c == '*' || c == '<' || c == '|'

/-- A multiplicity if a quote comes next, and the empty text otherwise. -/
def multiplicity? (line : List Char) : Option (List Char × List Char) :=
  match skipGap line with
  | '"' :: rest => quoted? ('"' :: rest)
  | _ => some ([], line)

/-- The label of a relationship, empty if the line is over before a colon. -/
def label? (line : List Char) : Option (List Char) :=
  if atEnd line then some []
  else do
    let rest ← char? ':' (skipGap line)
    freeText? rest

/-- A relationship. -/
def relationship? (line : List Char) : Option Relationship := do
  let (source, rest) ← word? line
  let (sourceMultiplicity, rest) ← multiplicity? rest
  let rest ← gap? rest
  let (kind, rest) ← run? isConnectorChar rest
  let (targetMultiplicity, rest) ← multiplicity? rest
  let rest ← gap? rest
  let (target, rest) ← word? rest
  let label ← label? rest
  return {
    source := String.ofList source
    target := String.ofList target
    kind := String.ofList kind
    sourceMultiplicity := String.ofList sourceMultiplicity
    targetMultiplicity := String.ofList targetMultiplicity
    label := String.ofList label }

/-- A constraint. -/
def constraint? (line : List Char) : Option Constraint := do
  let (keyword, rest) ← word? line
  guard (keyword = "constraint".toList)
  let rest ← gap? rest
  let (kind, rest) ← word? rest
  let rest ← gap? rest
  let (preposition, rest) ← word? rest
  guard (preposition = "on".toList)
  let rest ← gap? rest
  let (target, rest) ← word? rest
  let rest ← char? ':' (skipGap rest)
  let expression ← freeText? rest
  return ⟨String.ofList kind, String.ofList target, String.ofList expression⟩

end ClassDiagram.Form

namespace ClassDiagram

/-- The forms that a content line can have. -/
inductive Form where
  | header
  | attr
  | method
  | relationship
  | constraint
deriving DecidableEq, Repr

/-- Recognises a line of the given form. -/
def Form.recognise (form : Form) (line : String) : Option Fragment :=
  match form with
  | .header => (Form.header? line.toList).map .header
  | .attr => (Form.attr? line.toList).map .attr
  | .method => (Form.method? line.toList).map .method
  | .relationship => (Form.relationship? line.toList).map .relationship
  | .constraint => (Form.constraint? line.toList).map .constraint

end ClassDiagram
