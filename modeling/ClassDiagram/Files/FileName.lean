import ClassDiagram.Text.Basic

/-!
# Safe file names

`FileName.sanitise` makes a file name out of any text: it trims the text, replaces every run of
characters other than ASCII letters, digits, dot, underscore and hyphen by one underscore, and
falls back to `model` if nothing is left.
-/

namespace ClassDiagram.FileName

/-- A character that is kept in a file name. -/
def isSafe (c : Char) : Bool := c.isAlphanum || c == '.' || c == '_' || c == '-'

/-- Puts a character in front of a text whose unsafe runs are already replaced. The flag says
whether that text started with an unsafe run. -/
def consSafe (c : Char) (text : List Char × Bool) : List Char × Bool :=
  if isSafe c then (c :: text.1, false)
  else if text.2 then text
  else ('_' :: text.1, true)

/-- A text with every run of unsafe characters replaced by one underscore. -/
def replaceRuns (text : List Char) : List Char := (text.foldr consSafe ([], false)).1

/-- A safe file name for any text. -/
def sanitise (text : String) : String :=
  match replaceRuns (Text.trim text.toList) with
  | [] => "model"
  | name => String.ofList name

example : sanitise " a b/c " = "a_b_c" := by decide

end ClassDiagram.FileName
