import ClassDiagram.Proofs.Reader.Coherent

/-!
# Two diagrams one behind the other

Lines that are read behind a closing brace do the same whatever was read before the brace. The proof
runs two readers in step over these lines: one starts with nothing, the other with the model of the
lines before. At every moment the second holds the model of the first joined to that earlier model
(`Reader.behind`), and both have the same body open. `Reader.takeItem_behind` says so for one line
and `Reader.run_behind` for all of them.

What needs an argument is the table of entities. The first reader stores an entity among those of
its own lines, the second among all: `Table.update_insert` makes the two agree.
-/

namespace ClassDiagram

/-- A line whose number is counted from an earlier start. -/
def UnmatchedLine.shift (offset : Int) (line : UnmatchedLine) : UnmatchedLine :=
  { line with number := line.number + offset }

/-- The model of two parts, of which the second stands behind so many lines. An entity that both
declare is that of the second. -/
def Model.join (first second : Model) (offset : Int) : Model where
  entities := first.entities.update second.entities
  relationships := first.relationships ++ second.relationships
  constraints := first.constraints ++ second.constraints
  unmatched := first.unmatched ++ second.unmatched.map (UnmatchedLine.shift offset)

/-- Joining an empty model changes nothing. -/
theorem Model.join_empty (model : Model) (offset : Int) : model.join {} offset = model := by
  simp [Model.join, Table.update]

namespace Reader

/-- The reader whose model is joined to that of so many lines before. -/
def behind (base : Model) (offset : Int) (reader : Reader) : Reader where
  model := base.join reader.model offset
  scope := reader.scope

variable {reader : Reader} {strict : Bool} {number : Int}

/-- Opening a body stores the entity in the joined table as in the reader's own. -/
theorem openBody_behind (h : reader.Coherent) (base : Model) (offset : Int) (entity : Entity) :
    (reader.behind base offset).openBody entity =
      (reader.openBody entity).behind base offset := by
  simp only [openBody, behind, Model.join, Table.update_insert base.entities h.distinct]

/-- A line that is passed over is kept with its number in all lines. -/
theorem passOver_behind (base : Model) (offset : Int) (text : String) :
    ((reader.behind base offset).passOver strict (number + offset) text).1 =
      (reader.passOver strict number text).1.behind base offset := by
  cases strict with
  | false => rfl
  | true => simp [passOver, behind, Model.join, UnmatchedLine.shift]

/-- An item does the same with and without a model before it. -/
theorem takeItem_behind (h : reader.Coherent) (base : Model) (offset : Int) (item : Item) :
    ((reader.behind base offset).takeItem strict (number + offset) item).1 =
      (reader.takeItem strict number item).1.behind base offset := by
  have hscope : (reader.behind base offset).scope = reader.scope := rfl
  cases item with
  | skip | close => rfl
  | unknown text => exact passOver_behind base offset text
  | known text fragment =>
      cases fragment with
      | header name => exact openBody_behind h base offset ⟨name, [], []⟩
      | relationship link | constraint rule =>
          simp [takeItem, takeFragment, behind, Model.join]
      | attr member | method member =>
          cases hopen : reader.scope with
          | topLevel =>
              simp only [takeItem, takeFragment, hscope, hopen]
              exact passOver_behind base offset text
          | inBody entity =>
              simp only [takeItem, takeFragment, hscope, hopen]
              exact openBody_behind h base offset _

/-- A run does the same with and without a model before it. -/
theorem run_behind (h : reader.Coherent) (base : Model) (offset : Int) (lines : List String) :
    (reader.behind base offset).run strict (number + offset) lines =
      (reader.run strict number lines).behind base offset := by
  induction lines generalizing reader number with
  | nil => rfl
  | cons raw rest ih =>
      rw [run, run, takeItem_behind h, ← ih (h.takeItem strict number raw)]
      congr 1
      omega

end Reader

/-- Behind a closing brace the lines are read as if they stood alone, and their model is joined to
that of the lines before the brace. -/
theorem modelOf_behind_close (strict : Bool) (first second : List String) :
    modelOf strict (first ++ ["\x7d"] ++ second) =
      (modelOf strict first).join (modelOf strict second) (first.length + 1) := by
  have hclose : Item.ofLine "\x7d" = .close := rfl
  -- the brace closes whatever body the first lines leave open
  have hfirst : ({} : Reader).run strict 1 (first ++ ["\x7d"]) =
      ({} : Reader).behind (modelOf strict first) (first.length + 1) := by
    rw [Reader.run_append, Reader.run, hclose, Reader.behind, Model.join_empty]
    rfl
  have hnumber : (1 : Int) + ((first ++ ["\x7d"]).length : Int) = 1 + (first.length + 1) := by
    simp
  rw [modelOf, Reader.run_append, hfirst, hnumber, Reader.run_behind Reader.coherent_empty]
  rfl

/-- The first lines leave a body open, and the second declare one of their two entities again. -/
example :
    modelOf true ["class A", "class B", "x : int", "\x7d", "y : int", "class A", "z : int"] =
      { entities := ⟨[("A", ⟨"A", [⟨"z", "int"⟩], []⟩), ("B", ⟨"B", [⟨"x", "int"⟩], []⟩)]⟩
        unmatched := [⟨5, "y : int"⟩] } := by
  decide

variable {ε : Type}

/-- Two lists of lines with a closing brace between them have the joined model of the two. The
entities of the first keep their places, and those that the second declares too are replaced by its
own. The other entities of the second follow in its own order. The relationships and the constraints
of the second follow those of the first, and so do its unmatched lines, whose numbers grow by the
number of lines before. -/
theorem lines_join_behind_close (strict : Bool) (first second : List String) :
    ∃ left right joined,
      (parse Grammar.standard strict (⟨first, .finished⟩ : Source ε)).model? = .ok left ∧
      (parse Grammar.standard strict (⟨second, .finished⟩ : Source ε)).model? = .ok right ∧
      (parse Grammar.standard strict
        (⟨first ++ ["\x7d"] ++ second, .finished⟩ : Source ε)).model? = .ok joined ∧
      joined.entities = left.entities.update right.entities ∧
      joined.entities.keys =
        left.entities.keys ++ right.entities.keys.filter (· ∉ left.entities.keys) ∧
      (∀ name, joined.entities.get? name =
        (right.entities.get? name).or (left.entities.get? name)) ∧
      joined.relationships = left.relationships ++ right.relationships ∧
      joined.constraints = left.constraints ++ right.constraints ∧
      joined.unmatched = left.unmatched ++ right.unmatched.map fun line ↦
        { line with number := line.number + (first.length + 1) } := by
  have hdistinct := (Reader.coherent_empty.run strict 1 second).distinct
  refine ⟨modelOf strict first, modelOf strict second, _, parse_lines strict first,
    parse_lines strict second, parse_lines strict _, ?_⟩
  rw [modelOf_behind_close]
  exact ⟨rfl, Table.keys_update _ hdistinct, Table.get?_update _ hdistinct, rfl, rfl, rfl⟩

end ClassDiagram
