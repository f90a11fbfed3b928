import ClassDiagram.Form.Basic
import ClassDiagram.Table
import ClassDiagram.Text.Unicode

/-!
# The registry of matchers

Matchers are registered under a scope with a priority. A scope is known by its trimmed lower-case
name. The matchers of a scope are tried by ascending priority, and in the order of registration
where priorities are equal. The standard registry holds the five forms of a line, and
`Grammar.standard_eq` says in which order a reader tries them.
-/

namespace ClassDiagram

/-- A rule that recognises some lines. -/
abbrev Matcher := String → Option Fragment

/-- No matcher is registered under the scope. -/
structure UnknownScope where
  scope : Option String
deriving DecidableEq, Repr

/-- The wording of the failure. -/
def UnknownScope.message (failure : UnknownScope) : String :=
  "No matchers registered for scope: " ++ Text.literal? failure.scope

/-- By scope key, what is registered under the scope with its priorities, in the order in which it
is tried. -/
structure Registry (α : Type) where
  scopes : Table String (List (Int × α)) := {}

namespace Registry

variable {α : Type}

/-- The name by which a scope is known. -/
def scopeKey (scope : String) : String := String.ofList (Text.lower (Text.trim scope.toList))

/-- Puts an entry behind all entries of the same or a lower priority. In a list in order this is its
place after a stable sort with the entry at the end. -/
def place (priority : Int) (item : α) : List (Int × α) → List (Int × α)
  | [] => [(priority, item)]
  | entry :: rest =>
    if entry.1 ≤ priority then entry :: place priority item rest
    else (priority, item) :: entry :: rest

/-- Registers an item under a scope with a priority. -/
def add (registry : Registry α) (scope : String) (priority : Int) (item : α) : Registry α :=
  let key := scopeKey scope
  ⟨registry.scopes.insert key (place priority item ((registry.scopes.get? key).getD []))⟩

/-- The items of a scope in the order in which they are tried. -/
def itemsOf (registry : Registry α) (scope : Option String) :
    Except UnknownScope (List α) :=
  match registry.scopes.get? (scopeKey (scope.getD "")) with
  | some entries => .ok (entries.map (·.2))
  | none => .error ⟨scope⟩

/-- The registry of the five forms, each standing as `item` of it. -/
def standard (item : Form → α) : Registry α :=
  ({} : Registry α)
    |>.add "body" 10 (item .attr)
    |>.add "body" 20 (item .method)
    |>.add "top" 10 (item .header)
    |>.add "top" 20 (item .relationship)
    |>.add "top" 30 (item .constraint)

end Registry

/-- The matchers that a reader uses. -/
structure Grammar where
  /-- The matchers that are tried first while a body is open. -/
  body : List Matcher
  /-- The matchers that are tried on every content line that remains. -/
  top : List Matcher

/-- The first fragment that one of the matchers finds in a line. -/
def findFragment (matchers : List Matcher) (line : String) : Option Fragment :=
  matchers.findSome? (fun matcher ↦ matcher line)

namespace Grammar

/-- The matchers that a registry holds under the two scopes of a reader. -/
def ofRegistry (registry : Registry Matcher) : Grammar where
  body := (registry.itemsOf (some "body")).toOption.getD []
  top := (registry.itemsOf (some "top")).toOption.getD []

/-- The grammar of the five forms. -/
def standard : Grammar := ofRegistry (Registry.standard Form.recognise)

/-- The five forms in the order in which they are tried. -/
theorem standard_eq :
    standard =
      { body := [Form.recognise .attr, Form.recognise .method]
        top := [Form.recognise .header, Form.recognise .relationship,
          Form.recognise .constraint] } := by
  have hbody : Registry.scopeKey "body" = "body" := by decide
  have htop : Registry.scopeKey "top" = "top" := by decide
  simp [standard, ofRegistry, Registry.standard, Registry.add, Registry.itemsOf,
    Registry.place, Table.insert, Table.get?, Table.put, Except.toOption, hbody, htop]

end Grammar

end ClassDiagram
