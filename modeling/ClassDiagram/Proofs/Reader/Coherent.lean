import ClassDiagram.Proofs.Reader.Run
import ClassDiagram.Proofs.Table

/-!
# The entities of a reader

`Effect` lists all that taking in one line can do to a reader, with any matchers: seven cases, of
which only two touch the entities, and both of these store an entity and open its body at once.
Hence the entities stay coherent: each stands once, under its own name, and the open entity is the
one that is stored.
-/

namespace ClassDiagram.Reader

/-- What taking in one raw line can do to a reader, and what is reported. -/
inductive Effect (grammar : Grammar) (strict : Bool) (reader : Reader) (number : Int)
    (raw : String) : Reader → List Event → Prop where
  | skip : Line.classify raw = .skip → Effect grammar strict reader number raw reader []
  | close : Line.classify raw = .close →
      Effect grammar strict reader number raw { reader with scope := .topLevel } []
  /-- A member that a body matcher finds goes to the open entity. -/
  | member (text entity fragment grown) : Line.classify raw = .content text →
      reader.scope = .inBody entity → findFragment grammar.body text = some fragment →
      entity.add? fragment = some grown →
      Effect grammar strict reader number raw (reader.openBody grown) []
  /-- A header starts its entity afresh. -/
  | header (text name) : Line.classify raw = .content text →
      reader.bodyMatch grammar text = none → findFragment grammar.top text = some (.header name) →
      Effect grammar strict reader number raw (reader.openBody ⟨name, [], []⟩)
        (if reader.model.entities.contains name then [.redeclared name] else [])
  | relationship (text link) : Line.classify raw = .content text →
      reader.bodyMatch grammar text = none →
      findFragment grammar.top text = some (.relationship link) →
      Effect grammar strict reader number raw
        { reader with model :=
          { reader.model with relationships := reader.model.relationships ++ [link] } } []
  | constraint (text rule) : Line.classify raw = .content text →
      reader.bodyMatch grammar text = none →
      findFragment grammar.top text = some (.constraint rule) →
      Effect grammar strict reader number raw
        { reader with model :=
          { reader.model with constraints := reader.model.constraints ++ [rule] } } []
  | passOver (text) : Line.classify raw = .content text → reader.bodyMatch grammar text = none →
      findFragment grammar.top text = none →
      Effect grammar strict reader number raw (reader.passOver strict number text).1
        (reader.passOver strict number text).2

variable {grammar : Grammar} {strict : Bool} {reader next : Reader} {number : Int} {raw : String}
  {events : List Event}

/-- A line that is taken in has one of the effects. -/
theorem effect_of_feed (h : reader.feed grammar strict number raw = .ok (next, events)) :
    Effect grammar strict reader number raw next events := by
  unfold feed at h
  cases hline : Line.classify raw with
  | skip =>
      rw [hline] at h
      cases h
      exact .skip hline
  | close =>
      rw [hline] at h
      cases h
      exact .close hline
  | content text =>
      rw [hline] at h
      simp only [feedContent] at h
      -- a body matcher comes first, and the top matchers only if there is none
      cases hbody : reader.bodyMatch grammar text with
      | some found =>
          obtain ⟨entity, fragment⟩ := found
          have hopen : reader.scope = .inBody entity ∧
              findFragment grammar.body text = some fragment := by
            unfold bodyMatch at hbody
            cases hscope : reader.scope with
            | topLevel => simp [hscope] at hbody
            | inBody entity' => simpa [hscope, and_comm] using hbody
          simp only [hbody, addMember] at h
          cases hgrown : entity.add? fragment with
          | none => simp [hgrown] at h
          | some grown =>
              simp only [hgrown] at h
              cases h
              exact .member text entity fragment grown hline hopen.1 hopen.2 hgrown
      | none =>
          simp only [hbody] at h
          cases htop : findFragment grammar.top text with
          | none =>
              simp only [htop, Except.ok.injEq] at h
              obtain ⟨hnext, hevents⟩ := Prod.mk.inj h
              rw [← hnext, ← hevents]
              exact .passOver text hline hbody htop
          | some fragment =>
              simp only [htop] at h
              cases fragment with
              | header name => cases h; exact .header text name hline hbody htop
              | relationship link => cases h; exact .relationship text link hline hbody htop
              | constraint rule => cases h; exact .constraint text rule hline hbody htop
              | attr member => cases h
              | method member => cases h

/-- The entities of a reader stand once each and under their own names, and the open entity is one
of them as it is stored. -/
structure Coherent (reader : Reader) : Prop where
  distinct : reader.model.entities.keys.Nodup
  named : ∀ entry ∈ reader.model.entities.entries, entry.2.name = entry.1
  stored : ∀ entity, reader.scope = .inBody entity →
    reader.model.entities.get? entity.name = some entity

/-- A reader starts coherent. -/
theorem coherent_empty : ({} : Reader).Coherent where
  distinct := Table.nodup_keys_empty
  named := by
    intro entry hentry
    cases hentry
  stored := by
    intro entity hscope
    cases hscope

/-- Opening the body of an entity stores the entity under its name. -/
theorem Coherent.openBody (h : reader.Coherent) (entity : Entity) :
    (reader.openBody entity).Coherent where
  distinct := Table.nodup_keys_insert h.distinct entity.name entity
  named := by
    intro entry hentry
    rcases Table.mem_put hentry with hentry | hentry
    · rw [hentry]
    · exact h.named entry hentry
  stored := by
    intro entity' hscope
    cases hscope
    exact Table.get?_insert_self _ _ _

/-- A reader stays coherent if neither its entities nor its scope change. -/
theorem Coherent.congr (h : reader.Coherent)
    (hentities : next.model.entities = reader.model.entities) (hscope : next.scope = reader.scope) :
    next.Coherent where
  distinct := hentities ▸ h.distinct
  named := hentities ▸ h.named
  stored := by
    intro entity hopen
    rw [hentities]
    exact h.stored entity (hscope ▸ hopen)

/-- One line keeps a reader coherent. -/
theorem Effect.coherent (heffect : Effect grammar strict reader number raw next events)
    (h : reader.Coherent) : next.Coherent := by
  cases heffect with
  | skip => exact h
  | close =>
      refine ⟨h.distinct, h.named, ?_⟩
      intro entity hscope
      cases hscope
  | member text entity fragment grown => exact h.openBody grown
  | header text name => exact h.openBody ⟨name, [], []⟩
  | relationship | constraint => exact h.congr rfl rfl
  | passOver text => exact h.congr (passOver_entities ..) (passOver_scope ..)

/-- One item of the standard grammar keeps a reader coherent. -/
theorem Coherent.takeItem (h : reader.Coherent) (strict : Bool) (number : Int) (raw : String) :
    (reader.takeItem strict number (Item.ofLine raw)).1.Coherent :=
  (effect_of_feed (feed_standard strict reader number raw)).coherent h

/-- A run of the standard grammar keeps a reader coherent. -/
theorem Coherent.run (h : reader.Coherent) (strict : Bool) (number : Int) (lines : List String) :
    (reader.run strict number lines).Coherent := by
  induction lines generalizing reader number with
  | nil => exact h
  | cons raw rest ih => exact ih (h.takeItem strict number raw) (number + 1)

end ClassDiagram.Reader
