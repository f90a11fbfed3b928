import ClassDiagram.Proofs.Reader.Order

/-!
# Runs of the standard grammar

What the standard grammar sees in a raw line does not depend on the state of the reader: it is an
`Item`. `Reader.takeItem` says what an item does, once and for all, and `Reader.run` takes in lines
by their items. No line is refused, so a list of lines always gives a model, which is
`parse_lines`.

Everything that holds of whole runs is proved from what `takeItem` does with one item, by induction
over the lines. The first result of that kind is about the relationships and the constraints, to
which a line adds the same whether a body is open or not.
-/

namespace ClassDiagram

open Form (fragment?)

/-! ## Items -/

/-- What the standard grammar sees in a raw line. -/
inductive Item where
  | skip
  | close
  | known (text : String) (fragment : Fragment)
  | unknown (text : String)
deriving DecidableEq, Repr

namespace Item

/-- The item of a raw line. -/
def ofLine (raw : String) : Item :=
  match Line.classify raw with
  | .skip => .skip
  | .close => .close
  | .content text =>
    match fragment? text with
    | some fragment => .known text fragment
    | none => .unknown text

/-- The fragment of an item. -/
def fragment? : Item → Option Fragment
  | known _ fragment => some fragment
  | skip | close | unknown _ => none

theorem fragment?_iff {item : Item} {fragment : Fragment} :
    item.fragment? = some fragment ↔ ∃ text, item = .known text fragment := by
  cases item <;> simp [fragment?]

end Item

namespace Fragment

/-- The name in a header. -/
def header? : Fragment → Option String
  | header name => some name
  | attr _ | method _ | relationship _ | constraint _ => none

/-- The attribute in a fragment. -/
def attr? : Fragment → Option Attribute
  | attr member => some member
  | header _ | method _ | relationship _ | constraint _ => none

/-- The method in a fragment. -/
def method? : Fragment → Option Method
  | method member => some member
  | header _ | attr _ | relationship _ | constraint _ => none

/-- The relationship in a fragment. -/
def relationship? : Fragment → Option Relationship
  | relationship link => some link
  | header _ | attr _ | method _ | constraint _ => none

/-- The constraint in a fragment. -/
def constraint? : Fragment → Option Constraint
  | constraint rule => some rule
  | header _ | attr _ | method _ | relationship _ => none

variable {fragment : Fragment}

theorem header?_iff {name : String} :
    fragment.header? = some name ↔ fragment = .header name := by
  cases fragment <;> simp [header?]

theorem attr?_iff {member : Attribute} :
    fragment.attr? = some member ↔ fragment = .attr member := by
  cases fragment <;> simp [attr?]

theorem method?_iff {member : Method} :
    fragment.method? = some member ↔ fragment = .method member := by
  cases fragment <;> simp [method?]

theorem relationship?_iff {link : Relationship} :
    fragment.relationship? = some link ↔ fragment = .relationship link := by
  cases fragment <;> simp [relationship?]

theorem constraint?_iff {rule : Constraint} :
    fragment.constraint? = some rule ↔ fragment = .constraint rule := by
  cases fragment <;> simp [constraint?]

end Fragment

namespace Line

/-- The trimmed text of a raw line, if it is a content line. -/
def text? (raw : String) : Option String :=
  match classify raw with
  | .content text => some text
  | .skip | .close => none

/-- What a form finds in a raw line: in its trimmed text, if it is a content line. -/
def find? {α : Type} (form? : List Char → Option α) (raw : String) : Option α :=
  (text? raw).bind fun text ↦ form? text.toList

/-- A form finds in a raw line what the item of the line holds for it. -/
theorem find?_eq {α : Type} (form : Form) (form? : List Char → Option α) (wrap : α → Fragment)
    (unwrap : Fragment → Option α)
    (hform : ∀ line, form.recognise line = (form? line.toList).map wrap)
    (hunwrap : ∀ fragment x, unwrap fragment = some x ↔ fragment = wrap x)
    (hwrap : ∀ x, (wrap x).form = form) (raw : String) :
    find? form? raw = (Item.ofLine raw).fragment?.bind unwrap := by
  -- a form finds something in a text exactly if the fragment of the text is of its kind
  have htext : ∀ text : String, form? text.toList = (fragment? text).bind unwrap := by
    intro text
    apply Option.ext
    intro x
    rw [Option.bind_eq_some_iff]
    constructor
    · intro hx
      have hfound : form.recognise text = some (wrap x) := by rw [hform, hx]; rfl
      exact ⟨wrap x, (Form.recognise_iff.1 hfound).1, (hunwrap _ _).2 rfl⟩
    · intro hx
      obtain ⟨fragment, hfragment, hx⟩ := hx
      rw [hunwrap] at hx
      have hfound : form.recognise text = some (wrap x) :=
        Form.recognise_iff.2 ⟨hx ▸ hfragment, hwrap x⟩
      rw [hform, Option.map_eq_some_iff] at hfound
      obtain ⟨y, hy, hxy⟩ := hfound
      have hsame : x = y := by
        rw [← Option.some.injEq, ← (hunwrap (wrap x) x).2 rfl, ← hxy, (hunwrap (wrap y) y).2 rfl]
      rw [hsame, hy]
  unfold find? text? Item.ofLine
  cases classify raw with
  | skip => rfl
  | close => rfl
  | content text =>
      show form? text.toList = _
      rw [htext]
      cases h : fragment? text <;> simp [Item.fragment?, h]

theorem find?_header (raw : String) :
    find? Form.header? raw = (Item.ofLine raw).fragment?.bind Fragment.header? :=
  find?_eq .header Form.header? .header Fragment.header? (fun _ ↦ rfl)
    (fun _ _ ↦ Fragment.header?_iff) (fun _ ↦ rfl) raw

theorem find?_attr (raw : String) :
    find? Form.attr? raw = (Item.ofLine raw).fragment?.bind Fragment.attr? :=
  find?_eq .attr Form.attr? .attr Fragment.attr? (fun _ ↦ rfl)
    (fun _ _ ↦ Fragment.attr?_iff) (fun _ ↦ rfl) raw

theorem find?_method (raw : String) :
    find? Form.method? raw = (Item.ofLine raw).fragment?.bind Fragment.method? :=
  find?_eq .method Form.method? .method Fragment.method? (fun _ ↦ rfl)
    (fun _ _ ↦ Fragment.method?_iff) (fun _ ↦ rfl) raw

theorem find?_relationship (raw : String) :
    find? Form.relationship? raw = (Item.ofLine raw).fragment?.bind Fragment.relationship? :=
  find?_eq .relationship Form.relationship? .relationship Fragment.relationship? (fun _ ↦ rfl)
    (fun _ _ ↦ Fragment.relationship?_iff) (fun _ ↦ rfl) raw

theorem find?_constraint (raw : String) :
    find? Form.constraint? raw = (Item.ofLine raw).fragment?.bind Fragment.constraint? :=
  find?_eq .constraint Form.constraint? .constraint Fragment.constraint? (fun _ ↦ rfl)
    (fun _ _ ↦ Fragment.constraint?_iff) (fun _ ↦ rfl) raw

end Line

/-! ## Runs -/

namespace Reader

/-- What a reader of the standard grammar does with an item. -/
def takeItem (strict : Bool) (reader : Reader) (number : Int) : Item → Reader × List Event
  | .skip => (reader, [])
  | .close => ({ reader with scope := .topLevel }, [])
  | .known text fragment => reader.takeFragment strict number text fragment
  | .unknown text => reader.passOver strict number text

/-- With the standard grammar, a raw line does what its item does. No line is refused. -/
theorem feed_standard (strict : Bool) (reader : Reader) (number : Int) (raw : String) :
    reader.feed Grammar.standard strict number raw =
      .ok (reader.takeItem strict number (Item.ofLine raw)) := by
  unfold feed Item.ofLine
  cases Line.classify raw with
  | skip => rfl
  | close => rfl
  | content text =>
      show reader.feedContent Grammar.standard strict number text = _
      rw [feedContent_eq .standard, takeContent]
      cases h : fragment? text <;> simp [takeItem, h]

/-- The reader after some lines of the standard grammar, numbered from `number` on. -/
def run (strict : Bool) (reader : Reader) (number : Int) : List String → Reader
  | [] => reader
  | raw :: rest => (reader.takeItem strict number (Item.ofLine raw)).1.run strict (number + 1) rest

/-- With the standard grammar, all lines are taken in. -/
theorem feedAll_standard (strict : Bool) (reader : Reader) (number : Int) (lines : List String) :
    (reader.feedAll Grammar.standard strict number lines).reader =
        reader.run strict number lines ∧
      (reader.feedAll Grammar.standard strict number lines).halt = none := by
  induction lines generalizing reader number with
  | nil => exact ⟨rfl, rfl⟩
  | cons raw rest ih =>
      simp only [feedAll, feed_standard]
      exact ih (reader.takeItem strict number (Item.ofLine raw)).1 (number + 1)

/-- Lines may be taken in in two parts. -/
theorem run_append (strict : Bool) (reader : Reader) (number : Int) (first second : List String) :
    reader.run strict number (first ++ second) =
      (reader.run strict number first).run strict (number + first.length) second := by
  induction first generalizing reader number with
  | nil => simp [run]
  | cons raw rest ih =>
      simp only [List.cons_append, run, ih, List.length_cons]
      congr 1
      push_cast
      omega

/-! ## What a line adds to the lists of the model

A line that is passed over changes nothing but the list of unmatched lines. -/

@[simp] theorem passOver_entities (strict : Bool) (reader : Reader) (number : Int) (text : String) :
    (reader.passOver strict number text).1.model.entities = reader.model.entities := by
  cases strict <;> rfl

@[simp] theorem passOver_scope (strict : Bool) (reader : Reader) (number : Int) (text : String) :
    (reader.passOver strict number text).1.scope = reader.scope := by
  cases strict <;> rfl

@[simp] theorem passOver_relationships (strict : Bool) (reader : Reader) (number : Int)
    (text : String) :
    (reader.passOver strict number text).1.model.relationships = reader.model.relationships := by
  cases strict <;> rfl

@[simp] theorem passOver_constraints (strict : Bool) (reader : Reader) (number : Int)
    (text : String) :
    (reader.passOver strict number text).1.model.constraints = reader.model.constraints := by
  cases strict <;> rfl

/-- An item adds its relationship and its constraint to the model, and nothing else to these lists.
The scope has no say in it. -/
theorem takeItem_lists (strict : Bool) (reader : Reader) (number : Int) (item : Item) :
    (reader.takeItem strict number item).1.model.relationships =
        reader.model.relationships ++ (item.fragment?.bind Fragment.relationship?).toList ∧
      (reader.takeItem strict number item).1.model.constraints =
        reader.model.constraints ++ (item.fragment?.bind Fragment.constraint?).toList := by
  cases item with
  | skip => simp [takeItem, Item.fragment?]
  | close => simp [takeItem, Item.fragment?]
  | unknown text => simp [takeItem, Item.fragment?]
  | known text fragment =>
      cases fragment with
      | header name =>
          simp [takeItem, takeFragment, openBody, Item.fragment?, Fragment.relationship?,
            Fragment.constraint?]
      | relationship link =>
          simp [takeItem, takeFragment, Item.fragment?, Fragment.relationship?,
            Fragment.constraint?]
      | constraint rule =>
          simp [takeItem, takeFragment, Item.fragment?, Fragment.relationship?,
            Fragment.constraint?]
      | attr member | method member =>
          cases hscope : reader.scope <;>
            simp [takeItem, takeFragment, hscope, openBody, Item.fragment?,
              Fragment.relationship?, Fragment.constraint?]

/-- A run adds the relationships and the constraints of its lines, in order. -/
theorem run_lists (strict : Bool) (reader : Reader) (number : Int) (lines : List String) :
    (reader.run strict number lines).model.relationships =
        reader.model.relationships ++ lines.filterMap (Line.find? Form.relationship?) ∧
      (reader.run strict number lines).model.constraints =
        reader.model.constraints ++ lines.filterMap (Line.find? Form.constraint?) := by
  induction lines generalizing reader number with
  | nil => simp [run]
  | cons raw rest ih =>
      obtain ⟨hrelationships, hconstraints⟩ :=
        takeItem_lists strict reader number (Item.ofLine raw)
      obtain ⟨hrest, hrest'⟩ :=
        ih (reader.takeItem strict number (Item.ofLine raw)).1 (number + 1)
      rw [run, hrest, hrest', hrelationships, hconstraints, ← Line.find?_relationship,
        ← Line.find?_constraint]
      constructor
      · cases hfound : Line.find? Form.relationship? raw <;> simp [hfound]
      · cases hfound : Line.find? Form.constraint? raw <;> simp [hfound]

end Reader

variable {ε : Type}

/-- The model of a list of lines. -/
def modelOf (strict : Bool) (lines : List String) : Model :=
  (({} : Reader).run strict 1 lines).model

/-- With the standard grammar, every list of lines has a model. -/
theorem parse_lines (strict : Bool) (lines : List String) :
    (parse Grammar.standard strict (⟨lines, .finished⟩ : Source ε)).model? =
      .ok (modelOf strict lines) := by
  obtain ⟨hreader, hhalt⟩ := Reader.feedAll_standard strict {} 1 lines
  simp [parse, Reader.read, hhalt, Reading.model?, modelOf, ← hreader]

/-- The relationships of a list of lines are those that the form of relationships finds in the
trimmed texts of its content lines, each once and in order, and likewise for the constraints. It
does not matter whether a body is open at such a line, nor what the other lines are. -/
theorem relationships_and_constraints_context_free (strict : Bool) (lines : List String) :
    ∃ model, (parse Grammar.standard strict (⟨lines, .finished⟩ : Source ε)).model? = .ok model ∧
      model.relationships =
        (lines.filterMap Line.text?).filterMap (fun text ↦ Form.relationship? text.toList) ∧
      model.constraints =
        (lines.filterMap Line.text?).filterMap (fun text ↦ Form.constraint? text.toList) := by
  refine ⟨modelOf strict lines, parse_lines strict lines, ?_⟩
  obtain ⟨hrelationships, hconstraints⟩ := Reader.run_lists strict {} 1 lines
  rw [modelOf, hrelationships, hconstraints, List.filterMap_filterMap, List.filterMap_filterMap]
  exact ⟨rfl, rfl⟩

end ClassDiagram
