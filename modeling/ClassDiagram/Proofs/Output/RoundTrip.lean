import ClassDiagram.Proofs.Output.Diagram

/-!
# A diagram reads back as its model

A reader that takes in the lines of a diagram builds up the model that was written, one part after
the other: `Reader.run_flatMap` follows a reader over the lines of a list of parts, and it is used
for the attributes, the methods, the entities, the relationships and the constraints. This works for
every model that was itself read from a text, so reading, writing and reading again loses nothing
but the lines that no form recognises.
-/

namespace ClassDiagram

/-- A model that a diagram can be written of: each entity stands once and under its own name, and
all parts are well formed and on one line. -/
structure Model.Writable (model : Model) : Prop where
  distinct : model.entities.keys.Nodup
  named : ∀ entry ∈ model.entities.entries, entry.2.name = entry.1
  wellFormed : model.Parts Fragment.WellFormed
  oneLine : model.Parts Fragment.OneLine

/-- The model of lines without line feeds is writable. -/
theorem writable_modelOf (strict : Bool) {lines : List String}
    (hlines : ∀ raw ∈ lines, '\n' ∉ raw.toList) : (modelOf strict lines).Writable where
  distinct := (Reader.coherent_empty.run strict 1 lines).distinct
  named := (Reader.coherent_empty.run strict 1 lines).named
  wellFormed := modelOf_wellFormed strict lines
  oneLine := modelOf_oneLine strict fun raw hraw hfeed ↦
    hlines raw hraw (Text.mem_of_mem_trim hfeed)

/-- A writable model lacks line feeds. -/
theorem Model.Writable.lacks_feed {model : Model} (h : model.Writable) :
    model.Parts (Fragment.Lacks '\n') where
  entities _ _ := ⟨trivial, fun _ _ ↦ trivial, fun _ _ ↦ trivial⟩
  relationships link hlink :=
    (h.wellFormed.relationships link hlink).lacks_feed (h.oneLine.relationships link hlink)
  constraints rule hrule :=
    (h.wellFormed.constraints rule hrule).lacks_feed (h.oneLine.constraints rule hrule)

namespace Reader

open Diagram (Writes)

variable {strict : Bool} {reader : Reader} {α : Type} {parts : List α}

/-- A line to skip changes nothing but the number of the next line. -/
theorem run_skip {raw : String} (h : Item.ofLine raw = .skip) (number : Int) (rest : List String) :
    reader.run strict number (raw :: rest) = reader.run strict (number + 1) rest := by
  rw [run, h]
  rfl

/-- A reader takes in the lines of several parts, if it takes in the lines of each part after those
of the parts before it. -/
theorem run_flatMap (state : List α → Reader) {lines : α → List String}
    (hstep : ∀ done part rest, parts = done ++ part :: rest → ∀ number,
      (state done).run strict number (lines part) = state (done ++ [part])) (number : Int) :
    (state []).run strict number (parts.flatMap lines) = state parts := by
  -- the induction is on the parts that are still to come; the state knows those that are done
  have hrest : ∀ rest done, parts = done ++ rest → ∀ number,
      (state done).run strict number (rest.flatMap lines) = state parts := by
    intro rest
    induction rest with
    | nil =>
        intro done hparts number
        rw [hparts, List.append_nil]
        rfl
    | cons part rest ih =>
        intro done hparts number
        rw [List.flatMap_cons, run_append, hstep done part rest hparts]
        exact ih (done ++ [part]) (by rw [hparts]; simp) _
  exact hrest parts [] rfl number

/-- A reader takes in several parts of one line each, if it takes in the fragment that is written
there. -/
theorem run_map (state : List α → Reader) {line : α → String} {wrap : α → Fragment}
    (hlines : ∀ part ∈ parts, Writes (line part) (wrap part))
    (hstep : ∀ done part number text,
      ((state done).takeFragment strict number text (wrap part)).1 = state (done ++ [part]))
    (number : Int) : (state []).run strict number (parts.map line) = state parts := by
  rw [List.map_eq_flatMap]
  refine run_flatMap state ?_ number
  intro done part rest hparts number
  have hwrites := hlines part (by rw [hparts]; simp)
  obtain ⟨text, hitem⟩ := Item.fragment?_iff.1 hwrites.reads
  rw [run, hitem]
  exact hstep done part number text

/-! ## Entities -/

/-- Opening the body of an entity again only stores the entity as it is now. -/
theorem openBody_openBody {first second : Entity} (h : second.name = first.name) :
    (reader.openBody first).openBody second = reader.openBody second := by
  simp [openBody, h, Table.insert_insert]

/-- The attribute lines of an entity bring its attributes into the open body. -/
theorem run_attributes {entity : Entity} (h : entity.Parts Fragment.WellFormed) (number : Int) :
    (reader.openBody ⟨entity.name, [], []⟩).run strict number
        (entity.attributes.map fun a ↦ "  " ++ a.name ++ " : " ++ a.type) =
      reader.openBody ⟨entity.name, entity.attributes, []⟩ := by
  apply run_map (fun done ↦ reader.openBody ⟨entity.name, done, []⟩)
  · intro member hmember
    exact Diagram.writes_attr (h.attributes member hmember)
  · intro done member number text
    exact openBody_openBody rfl

/-- The method lines of an entity bring its methods into the open body. -/
theorem run_methods {entity : Entity} (h : entity.Parts Fragment.WellFormed) (number : Int) :
    (reader.openBody ⟨entity.name, entity.attributes, []⟩).run strict number
        (entity.methods.map fun m ↦ "  " ++ m.name ++ "() : " ++ m.returnType) =
      reader.openBody entity := by
  apply run_map (fun done ↦ reader.openBody ⟨entity.name, entity.attributes, done⟩)
  · intro member hmember
    exact Diagram.writes_method (h.methods member hmember)
  · intro done member number text
    exact openBody_openBody rfl

/-- The lines of an entity store it under its name and leave its body closed. -/
theorem run_entityLines {entity : Entity} (h : entity.Parts Fragment.WellFormed) (number : Int) :
    reader.run strict number (Diagram.entityLines entity) =
      { reader.openBody entity with scope := .topLevel } := by
  obtain ⟨text, hheader⟩ := Item.fragment?_iff.1 (Diagram.writes_header h.name).reads
  have hclose : Item.ofLine "\x7d" = .close := rfl
  rw [Diagram.entityLines, run, hheader]
  show ((reader.openBody ⟨entity.name, [], []⟩).run strict (number + 1) _) = _
  rw [run_append, run_append, run_attributes h, run_methods h, run, hclose]
  rfl

/-- The lines of all entities of a writable model build its table of entities. -/
theorem run_entities {model : Model} (h : model.Writable) (number : Int) :
    ({} : Reader).run strict number (model.entities.values.flatMap Diagram.entityLines) =
      { model := { entities := model.entities } } := by
  have hvalues : model.entities.values.flatMap Diagram.entityLines =
      model.entities.entries.flatMap fun entry ↦ Diagram.entityLines entry.2 := by
    rw [Table.values, List.flatMap_map]
  rw [hvalues]
  apply run_flatMap (fun done ↦ { model := { entities := ⟨done⟩ } })
  intro done entry rest hentries number
  have hmem : entry ∈ model.entities.entries := by
    rw [hentries]
    simp
  rw [run_entityLines (h.wellFormed.entities entry hmem)]
  -- the entity is new, so it comes last
  have hnew : entry.1 ∉ (⟨done⟩ : Table String Entity).keys := by
    have hkeys := h.distinct
    rw [Table.keys, hentries, List.map_append, List.map_cons, List.nodup_append] at hkeys
    intro hkey
    exact hkeys.2.2 entry.1 hkey entry.1 List.mem_cons_self rfl
  simp only [openBody, h.named entry hmem, Table.insert_of_not_mem hnew]

/-! ## Relationships and constraints -/

/-- The lines of the relationships of a writable model add them behind its entities. -/
theorem run_relationships {model : Model} (h : model.Writable) (number : Int) :
    ({ model := { entities := model.entities } } : Reader).run strict number
        (model.relationships.map Diagram.relationshipLine) =
      { model := { entities := model.entities, relationships := model.relationships } } := by
  apply run_map fun done ↦ { model := { entities := model.entities, relationships := done } }
  · intro link hlink
    exact Diagram.writes_relationship (h.wellFormed.relationships link hlink)
      (h.oneLine.relationships link hlink)
  · intro done link number text
    rfl

/-- The lines of the constraints of a writable model add them behind all the rest. -/
theorem run_constraints {model : Model} (h : model.Writable) (number : Int) :
    ({ model := { entities := model.entities, relationships := model.relationships } } :
        Reader).run strict number (model.constraints.map Diagram.constraintLine) =
      { model := { model with unmatched := [] } } := by
  apply run_map fun done ↦ { model :=
    { entities := model.entities, relationships := model.relationships, constraints := done } }
  · intro rule hrule
    exact Diagram.writes_constraint (h.wellFormed.constraints rule hrule)
  · intro done rule number text
    rfl

end Reader

/-! ## Whole diagrams -/

/-- The lines of the diagram of a model. -/
theorem lines_document (model : Model) :
    (Diagram.document model none).lines =
      "@startuml" :: (Diagram.lines model ++ ["@enduml"]) := by
  simp [Diagram.document, Document.start, Document.openingLines, Document.writeLines,
    Document.finish]

/-- The lines of the diagram of a model have no other line ends than the parts of the model. -/
theorem not_mem_document {c : Char} (hc : Diagram.IsLineEnd c) {model : Model}
    (h : model.Parts Fragment.WellFormed) (hlacks : model.Parts (Fragment.Lacks c)) :
    ∀ raw ∈ (Diagram.document model none).lines, c ∉ raw.toList := by
  intro raw hraw
  rw [lines_document] at hraw
  simp only [Diagram.lines, List.mem_cons, List.mem_append, List.mem_flatMap, List.mem_map,
    List.not_mem_nil, or_false] at hraw
  rcases hraw with hraw | ((⟨entity, hentity, hraw⟩ | ⟨link, hlink, hraw⟩) |
    ⟨rule, hrule, hraw⟩) | hraw
  · rw [hraw]
    rcases hc with rfl | rfl <;> decide
  · obtain ⟨entry, hentry, hvalue⟩ := List.mem_map.1 hentity
    rw [← hvalue] at hraw
    exact Diagram.not_mem_entityLines hc (h.entities entry hentry) raw hraw
  · rw [← hraw]
    exact Diagram.not_mem_relationshipLine hc (h.relationships link hlink)
      (hlacks.relationships link hlink)
  · rw [← hraw]
    exact Diagram.not_mem_constraintLine hc (h.constraints rule hrule)
      (hlacks.constraints rule hrule)
  · rw [hraw]
    rcases hc with rfl | rfl <;> decide

/-- Every line of the diagram of a writable model is one line. -/
theorem oneLine_document {model : Model} (h : model.Writable) :
    ∀ raw ∈ (Diagram.document model none).lines, '\n' ∉ raw.toList :=
  not_mem_document Diagram.isLineEnd_feed h.wellFormed h.lacks_feed

/-- The characters of a document are those of its lines, with a line feed behind each. -/
theorem toList_text (document : Document) :
    document.text.toList = (document.lines.map String.toList).flatMap (· ++ ['\n']) := by
  rw [Document.text, String.toList_join, List.flatMap_map, List.flatMap_map]
  simp

/-- The text of a document is cut into the lines of its own lines, and then an empty one. -/
theorem linesOf_text (document : Document) :
    Text.linesOf document.text = document.lines.flatMap Text.linesOf ++ [""] := by
  rw [Text.linesOf, toList_text, Text.splitOn_written, List.map_append, List.flatMap_map,
    List.map_flatMap]
  rfl

/-- Lines without line feeds are not cut any further. -/
theorem flatMap_linesOf {lines : List String} (h : ∀ raw ∈ lines, '\n' ∉ raw.toList) :
    lines.flatMap Text.linesOf = lines := by
  conv_rhs => rw [← List.flatMap_singleton' lines]
  exact List.flatMap_congr fun raw hraw ↦ Text.linesOf_of_not_mem (h raw hraw)

/-- The lines of a text that was written line by line are these lines, and then an empty one. -/
theorem lines_of_text {ε : Type} {document : Document}
    (h : ∀ raw ∈ document.lines, '\n' ∉ raw.toList) :
    (Source.ofText document.text : Source ε) = ⟨document.lines ++ [""], .finished⟩ := by
  show (⟨Text.linesOf document.text, .finished⟩ : Source ε) = _
  rw [linesOf_text, flatMap_linesOf h]

/-- The lines of the diagram of a writable model read back as the model, without its unmatched
lines. -/
theorem modelOf_document (strict : Bool) {model : Model} (h : model.Writable) :
    modelOf strict ((Diagram.document model none).lines ++ [""]) =
      { model with unmatched := [] } := by
  have hstart : Item.ofLine "@startuml" = .skip := rfl
  have hfinish : Item.ofLine "@enduml" = .skip := rfl
  have hempty : Item.ofLine "" = .skip := rfl
  rw [modelOf, lines_document, List.cons_append, Reader.run_skip hstart, Diagram.lines]
  -- the directives and the empty line are skipped, and all the rest is built up in order
  rw [Reader.run_append, Reader.run_append, Reader.run_append, Reader.run_append,
    Reader.run_entities h, Reader.run_relationships h, Reader.run_constraints h,
    Reader.run_skip hempty, Reader.run_skip hfinish]
  rfl

variable {ε : Type}

/-- The model of a text is that of its lines. -/
theorem parse_text (strict : Bool) (text : String) :
    (parse Grammar.standard strict (Source.ofText text : Source ε)).model? =
      .ok (modelOf strict (Text.linesOf text)) :=
  parse_lines strict (Text.linesOf text)

/-- Reading a text, writing the diagram of its model and reading the diagram gives the same
entities in the same order, the same relationships and the same constraints, and no line of the
diagram goes unmatched. So writing once more gives the same text. -/
theorem diagram_reads_back (strict : Bool) (text : String) :
    ∃ model, (parse Grammar.standard strict (Source.ofText text : Source ε)).model? = .ok model ∧
      ∃ again, (parse Grammar.standard true
          (Source.ofText (Diagram.document model none).text : Source ε)).model? = .ok again ∧
        again.entities = model.entities ∧ again.relationships = model.relationships ∧
        again.constraints = model.constraints ∧ again.unmatched = [] ∧
        (Diagram.document again none).text = (Diagram.document model none).text := by
  let lines : List String := (Text.splitOn '\n' text.toList).map String.ofList
  have hlines : ∀ raw ∈ lines, '\n' ∉ raw.toList := by
    intro raw hraw
    obtain ⟨piece, hpiece, hraw⟩ := List.mem_map.1 hraw
    rw [← hraw, String.toList_ofList]
    exact Text.not_mem_of_mem_splitOn hpiece
  have hwritable := writable_modelOf strict hlines
  refine ⟨modelOf strict lines, parse_lines strict lines,
    { modelOf strict lines with unmatched := [] }, ?_, rfl, rfl, rfl, rfl, rfl⟩
  rw [lines_of_text (oneLine_document hwritable), parse_lines, modelOf_document true hwritable]

end ClassDiagram
