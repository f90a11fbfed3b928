import ClassDiagram.Proofs.Form.WellFormed
import ClassDiagram.Proofs.Reader.Coherent

/-!
# The parts of a model

Every part of a model is the fragment of a line. So whatever holds of the fragments of all lines
holds of all parts of the model of these lines, which is `Reader.run_parts`. In particular the parts
of every model are well formed.
-/

namespace ClassDiagram

/-- An entity, all of whose parts are fragments in `P`. -/
structure Entity.Parts (P : Fragment → Prop) (entity : Entity) : Prop where
  name : P (.header entity.name)
  attributes : ∀ member ∈ entity.attributes, P (.attr member)
  methods : ∀ member ∈ entity.methods, P (.method member)

/-- A model, all of whose parts are fragments in `P`. -/
structure Model.Parts (P : Fragment → Prop) (model : Model) : Prop where
  entities : ∀ entry ∈ model.entities.entries, entry.2.Parts P
  relationships : ∀ link ∈ model.relationships, P (.relationship link)
  constraints : ∀ rule ∈ model.constraints, P (.constraint rule)

variable {P : Fragment → Prop}

/-- An empty model has no parts. -/
theorem Model.parts_empty : ({} : Model).Parts P where
  entities := by
    intro entry hentry
    cases hentry
  relationships := by
    intro link hlink
    cases hlink
  constraints := by
    intro rule hrule
    cases hrule

namespace Reader

variable {reader : Reader}

/-- Opening the body of an entity adds its parts to the model. -/
theorem parts_openBody (h : reader.model.Parts P) {entity : Entity} (hentity : entity.Parts P) :
    (reader.openBody entity).model.Parts P where
  entities := by
    intro entry hentry
    rcases Table.mem_put hentry with hentry | hentry
    · rw [hentry]
      exact hentity
    · exact h.entities entry hentry
  relationships := h.relationships
  constraints := h.constraints

/-- Passing over a line adds no parts. -/
theorem parts_passOver (h : reader.model.Parts P) (strict : Bool) (number : Int) (text : String) :
    (reader.passOver strict number text).1.model.Parts P where
  entities := by
    rw [passOver_entities]
    exact h.entities
  relationships := by
    rw [passOver_relationships]
    exact h.relationships
  constraints := by
    rw [passOver_constraints]
    exact h.constraints

/-- The open entity is a part of the model. -/
theorem parts_of_open (hcoherent : reader.Coherent) (h : reader.model.Parts P) {entity : Entity}
    (hopen : reader.scope = .inBody entity) : entity.Parts P :=
  h.entities (entity.name, entity) (Table.mem_of_get? (hcoherent.stored entity hopen))

/-- An item with a fragment in `P`, or without a fragment, keeps the parts of the model in `P`. -/
theorem takeItem_parts (hcoherent : reader.Coherent) (h : reader.model.Parts P) {item : Item}
    (hitem : ∀ fragment, item.fragment? = some fragment → P fragment) (strict : Bool)
    (number : Int) : (reader.takeItem strict number item).1.model.Parts P := by
  cases item with
  | skip => exact h
  | close => exact ⟨h.entities, h.relationships, h.constraints⟩
  | unknown text => exact parts_passOver h strict number text
  | known text fragment =>
      have hfragment : P fragment := hitem fragment rfl
      cases fragment with
      | header name => exact parts_openBody h ⟨hfragment, by simp, by simp⟩
      | relationship link =>
          have hlinks := List.forall_mem_append.2
            ⟨h.relationships, List.forall_mem_singleton.2 hfragment⟩
          exact ⟨h.entities, hlinks, h.constraints⟩
      | constraint rule =>
          have hrules := List.forall_mem_append.2
            ⟨h.constraints, List.forall_mem_singleton.2 hfragment⟩
          exact ⟨h.entities, h.relationships, hrules⟩
      | attr member =>
          cases hscope : reader.scope with
          | topLevel =>
              simp only [takeItem, takeFragment, hscope]
              exact parts_passOver h strict number text
          | inBody entity =>
              -- the open entity is stored, so its parts are known already
              have hentity := parts_of_open hcoherent h hscope
              simp only [takeItem, takeFragment, hscope]
              have hmembers := List.forall_mem_append.2
                ⟨hentity.attributes, List.forall_mem_singleton.2 hfragment⟩
              exact parts_openBody h ⟨hentity.name, hmembers, hentity.methods⟩
      | method member =>
          cases hscope : reader.scope with
          | topLevel =>
              simp only [takeItem, takeFragment, hscope]
              exact parts_passOver h strict number text
          | inBody entity =>
              have hentity := parts_of_open hcoherent h hscope
              simp only [takeItem, takeFragment, hscope]
              have hmembers := List.forall_mem_append.2
                ⟨hentity.methods, List.forall_mem_singleton.2 hfragment⟩
              exact parts_openBody h ⟨hentity.name, hentity.attributes, hmembers⟩

/-- A run over lines with fragments in `P` keeps the parts of the model in `P`. -/
theorem run_parts (hcoherent : reader.Coherent) (h : reader.model.Parts P) {lines : List String}
    (hlines : ∀ raw ∈ lines, ∀ fragment, (Item.ofLine raw).fragment? = some fragment → P fragment)
    (strict : Bool) (number : Int) : (reader.run strict number lines).model.Parts P := by
  induction lines generalizing reader number with
  | nil => exact h
  | cons raw rest ih =>
      have hstep := takeItem_parts hcoherent h (hlines raw List.mem_cons_self) strict number
      exact ih (hcoherent.takeItem strict number raw) hstep
        (fun other hother ↦ hlines other (List.mem_cons_of_mem _ hother)) (number + 1)

end Reader

/-! ## The parts of every model -/

variable {raw : String} {fragment : Fragment}

/-- The fragment of a line is what a form finds in its trimmed text. -/
theorem recognise_of_line (h : (Item.ofLine raw).fragment? = some fragment) :
    ∃ text, Line.classify raw = .content text ∧ fragment.form.recognise text = some fragment := by
  unfold Item.ofLine at h
  cases hline : Line.classify raw with
  | skip => simp [hline, Item.fragment?] at h
  | close => simp [hline, Item.fragment?] at h
  | content text =>
      rw [hline] at h
      cases hfound : Form.fragment? text with
      | none => simp [hfound, Item.fragment?] at h
      | some found =>
          have hsame : found = fragment := by simpa [hfound, Item.fragment?] using h
          exact ⟨text, rfl, Form.recognise_iff.2 ⟨hsame ▸ hfound, rfl⟩⟩

/-- The fragment of a line is well formed. -/
theorem wellFormed_of_line (h : (Item.ofLine raw).fragment? = some fragment) :
    fragment.WellFormed := by
  obtain ⟨text, hline, hfound⟩ := recognise_of_line h
  obtain ⟨_, _, _, _, _, htrimmed⟩ := Text.trim_iff.1 (Line.classify_content_iff.1 hline).1
  exact Form.wellFormed_of_recognise hfound htrimmed.last

/-- The fragment of a line has the characters of the trimmed line. -/
theorem lacks_of_line {c : Char} (h : (Item.ofLine raw).fragment? = some fragment)
    (hc : c ∉ Text.trim raw.toList) : fragment.Lacks c := by
  obtain ⟨text, hline, hfound⟩ := recognise_of_line h
  apply Form.lacks_of_recognise hfound
  rw [← (Line.classify_content_iff.1 hline).1]
  exact hc

/-- The parts of every model are well formed. -/
theorem modelOf_wellFormed (strict : Bool) (lines : List String) :
    (modelOf strict lines).Parts Fragment.WellFormed :=
  Reader.run_parts Reader.coherent_empty Model.parts_empty (fun _ _ _ ↦ wellFormed_of_line) strict 1

/-- The model of lines that trim to texts without the character lacks it. -/
theorem modelOf_lacks (strict : Bool) {lines : List String} {c : Char}
    (hlines : ∀ raw ∈ lines, c ∉ Text.trim raw.toList) :
    (modelOf strict lines).Parts (Fragment.Lacks c) :=
  Reader.run_parts Reader.coherent_empty Model.parts_empty
    (fun raw hraw _ h ↦ lacks_of_line h (hlines raw hraw)) strict 1

/-- The model of lines that trim to texts without line feeds has none in its multiplicities. -/
theorem modelOf_oneLine (strict : Bool) {lines : List String}
    (hlines : ∀ raw ∈ lines, '\n' ∉ Text.trim raw.toList) :
    (modelOf strict lines).Parts Fragment.OneLine :=
  Reader.run_parts Reader.coherent_empty Model.parts_empty
    (fun raw hraw _ h ↦ (lacks_of_line h (hlines raw hraw)).oneLine) strict 1

end ClassDiagram
