import ClassDiagram.Text.Basic

/-!
# Lines

A raw line is trimmed and then is one of three things: a line to skip (nothing is left, or a
directive that starts with an at sign, or a comment that starts with an apostrophe), a closing
brace on its own, or content.
-/

namespace ClassDiagram

/-- How a raw line is to be treated. A blank line, a directive and a comment are skipped, a brace
closes a body, and any other line has its trimmed text as content. -/
inductive Line where
  | skip
  | close
  | content (text : String)
deriving DecidableEq, Repr

/-- Trims a raw line and decides how it is to be treated. -/
def Line.classify (raw : String) : Line :=
  match Text.trim raw.toList with
  | [] => .skip
  | first :: rest =>
    if first = '@' ∨ first = '\'' then .skip
    else if first = '}' ∧ rest = [] then .close
    else .content (String.ofList (first :: rest))

example : Line.classify "  \x7d\r" = .close := by decide
example : Line.classify "\t' note" = .skip := by decide
example : Line.classify " A -- B\n" = .content "A -- B" := by decide

end ClassDiagram
