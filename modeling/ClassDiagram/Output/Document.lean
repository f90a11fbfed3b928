import ClassDiagram.Text.Quotes

/-!
# Documents

A document is built line by line. The opening directive, with an optional title, and the closing
directive are each written once, however often they are asked for.
-/

namespace ClassDiagram

/-- Lines of output, the suffix of the file they belong in, and whether the opening and the closing
directive have been written. -/
structure Document where
  lines : List String := []
  suffix : String := ".puml"
  started : Bool := false
  ended : Bool := false
deriving DecidableEq, Repr

namespace Document

/-- The line that gives a title. -/
def titleLine (title : String) : String := "title \"" ++ Text.escapeQuotes title ++ "\""

/-- The opening lines: the directive, and the title unless it is empty. -/
def openingLines (title : Option String) : List String :=
  match title with
  | some title => if title = "" then ["@startuml"] else ["@startuml", titleLine title]
  | none => ["@startuml"]

/-- Writes the opening lines, unless that was done before. -/
def start (document : Document) (title : Option String) : Document :=
  if document.started then document
  else { document with started := true, lines := document.lines ++ openingLines title }

/-- Writes one line. -/
def writeLine (document : Document) (line : String) : Document :=
  { document with lines := document.lines ++ [line] }

/-- Writes several lines. -/
def writeLines (document : Document) (lines : List String) : Document :=
  { document with lines := document.lines ++ lines }

/-- Writes the closing directive, unless that was done before. -/
def finish (document : Document) : Document :=
  if document.ended then document
  else { document with ended := true, lines := document.lines ++ ["@enduml"] }

/-- The text of a document: every line with its line feed. -/
def text (document : Document) : String := String.join (document.lines.map (· ++ "\n"))

end Document

end ClassDiagram
