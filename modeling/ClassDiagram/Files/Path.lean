import ClassDiagram.Text.Basic

/-!
# Paths

A path is the directory it starts from and the names to follow from there. Empty names and the
name of the current directory are left out, the name of the parent directory is kept.
-/

namespace ClassDiagram

/-- Where a path starts. -/
inductive Anchor where
  | working
  | root
  /-- In the root directory, written with exactly two slashes. -/
  | doubleRoot
deriving DecidableEq, Repr

/-- The directory where a path starts and the names that lead on from it. -/
structure Path where
  anchor : Anchor := .working
  names : List String := []
deriving DecidableEq, Repr

/-- How an anchor is written in front of the names. -/
def Anchor.text : Anchor → String
  | working => ""
  | root => "/"
  | doubleRoot => "//"

namespace Path

/-- The anchor of a written path. -/
def anchorOf (text : List Char) : Anchor :=
  match (text.takeWhile (· == '/')).length with
  | 0 => .working
  | 2 => .doubleRoot
  | _ => .root

/-- Reads a written path. -/
def ofString (text : String) : Path where
  anchor := anchorOf text.toList
  names := ((Text.splitOn '/' text.toList).map String.ofList).filter fun name ↦
    name != "" && name != "."

/-- Writes a path. The working directory itself is written as a dot. -/
def toString (path : Path) : String :=
  if path.anchor = .working ∧ path.names = [] then "."
  else path.anchor.text ++ "/".intercalate path.names

/-- The path that `next` leads to from `path`. -/
def join (path next : Path) : Path :=
  match next.anchor with
  | .working => { path with names := path.names ++ next.names }
  | _ => next

/-- The last name of a path, empty if there is none. -/
def name (path : Path) : String := path.names.getLast?.getD ""

/-- The path without its last name. -/
def parent (path : Path) : Path := { path with names := path.names.dropLast }

/-- A name without its last extension. A dot at either end starts no extension. -/
def stemOf (name : List Char) : List Char :=
  match name.reverse.span (· != '.') with
  | (extension, _ :: base) => if extension = [] ∨ base = [] then name else base.reverse
  | (_, []) => name

/-- The last name of a path without its extension. -/
def stem (path : Path) : String := String.ofList (stemOf path.name.toList)

end Path

end ClassDiagram
