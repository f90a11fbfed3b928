import ClassDiagram.Proofs.Reader.Entities
import ClassDiagram.Proofs.Session.Fold

/-!
# What a line leaves alone

With any matchers, a line brings about at most one change (`Reader.Change`): one relationship,
constraint or unmatched line more, one member more in the open entity, or a fresh entity whose body
is opened. So the lists of the model only grow at the end, the keys of its entities keep their
order, and an entity whose body is not open stays as it is until a header declares it again. The
last point is proved for one delivery (`ClosedFor.receive`) and then for any number of them
(`ClosedFor.receiveAll`).
-/

namespace ClassDiagram.Reader

/-- A line declares an entity of the given name: no body matcher takes it, and it is a header to the
top matchers. -/
def Declares (grammar : Grammar) (reader : Reader) (raw name : String) : Prop :=
  ∃ text, Line.classify raw = .content text ∧ reader.bodyMatch grammar text = none ∧
    findFragment grammar.top text = some (.header name)

/-- The changes that a line can bring about in a reader, of which there is at most one. -/
inductive Change (grammar : Grammar) (strict : Bool) (reader : Reader) (number : Int)
    (raw : String) : Reader → Prop where
  /-- The model stays as it is, and so does the open body unless it is closed. -/
  | nothing (scope : Scope) : scope = reader.scope ∨ scope = .topLevel →
      Change grammar strict reader number raw { reader with scope }
  | relationship (link : Relationship) :
      Change grammar strict reader number raw
        { reader with model :=
          { reader.model with relationships := reader.model.relationships ++ [link] } }
  | constraint (rule : Constraint) :
      Change grammar strict reader number raw
        { reader with model :=
          { reader.model with constraints := reader.model.constraints ++ [rule] } }
  /-- An unmatched line is added, in strict reading only. -/
  | unmatched (text : String) : strict = true →
      Change grammar strict reader number raw
        { reader with model :=
          { reader.model with unmatched := reader.model.unmatched ++ [⟨number, text⟩] } }
  | attr (entity : Entity) (member : Attribute) : reader.scope = .inBody entity →
      reader.model.entities.get? entity.name = some entity →
      Change grammar strict reader number raw
        (reader.openBody { entity with attributes := entity.attributes ++ [member] })
  | method (entity : Entity) (member : Method) : reader.scope = .inBody entity →
      reader.model.entities.get? entity.name = some entity →
      Change grammar strict reader number raw
        (reader.openBody { entity with methods := entity.methods ++ [member] })
  /-- An entity without members is stored under the name in the header, and its body is opened. -/
  | header (name : String) : reader.Declares grammar raw name →
      Change grammar strict reader number raw (reader.openBody ⟨name, [], []⟩)

variable {grammar : Grammar} {strict : Bool} {reader next : Reader} {number : Int}
  {raw name : String} {events : List Event}

/-! ## One line -/

/-- A line that is taken in brings about one of the changes. -/
theorem Effect.change (heffect : Effect grammar strict reader number raw next events)
    (h : reader.Coherent) : Change grammar strict reader number raw next := by
  cases heffect with
  | skip => exact .nothing reader.scope (Or.inl rfl)
  | close => exact .nothing .topLevel (Or.inr rfl)
  | member text entity fragment grown hline hscope hbody hgrown =>
      have hstored := h.stored entity hscope
      cases fragment with
      | attr member => cases hgrown; exact .attr entity member hscope hstored
      | method member => cases hgrown; exact .method entity member hscope hstored
      | header | relationship | constraint => cases hgrown
  | header text name hline hbody htop => exact .header name ⟨text, hline, hbody, htop⟩
  | relationship text link => exact .relationship link
  | constraint text rule => exact .constraint rule
  | passOver text =>
      cases strict with
      | true => exact .unmatched text rfl
      | false => exact .nothing reader.scope (Or.inl rfl)

/-- A line brings about one of the changes, and no change if it is refused. -/
theorem Coherent.change (h : reader.Coherent) (grammar : Grammar) (strict : Bool) (number : Int)
    (raw : String) :
    Change grammar strict reader number raw
      (reader.receive grammar strict (.line number raw)) := by
  cases hfeed : reader.feed grammar strict number raw with
  | ok result =>
      rw [receive_ok hfeed]
      exact (effect_of_feed hfeed).change h
  | error refusal =>
      rw [receive_error hfeed]
      exact .nothing reader.scope (Or.inl rfl)

/-- A change adds to the lists of a model at their ends and takes nothing away. -/
theorem Change.lists (h : Change grammar strict reader number raw next) :
    reader.model.relationships <+: next.model.relationships ∧
      reader.model.constraints <+: next.model.constraints ∧
      reader.model.unmatched <+: next.model.unmatched := by
  cases h with
  | nothing scope =>
      exact ⟨List.prefix_refl _, List.prefix_refl _, List.prefix_refl _⟩
  | relationship link => exact ⟨List.prefix_append _ _, List.prefix_refl _, List.prefix_refl _⟩
  | constraint rule => exact ⟨List.prefix_refl _, List.prefix_append _ _, List.prefix_refl _⟩
  | unmatched text => exact ⟨List.prefix_refl _, List.prefix_refl _, List.prefix_append _ _⟩
  | attr entity member | method entity member | header name =>
      exact ⟨List.prefix_refl _, List.prefix_refl _, List.prefix_refl _⟩

/-- A change keeps the keys of the entities in their order. It adds a new one at the end or none. -/
theorem Change.keys (h : Change grammar strict reader number raw next) :
    next.model.entities.keys = reader.model.entities.keys ∨
      ∃ name, name ∉ reader.model.entities.keys ∧
        next.model.entities.keys = reader.model.entities.keys ++ [name] := by
  -- a store adds its key only if the key is new
  have hstore : ∀ entity : Entity,
      (reader.openBody entity).model.entities.keys = reader.model.entities.keys ∨
        ∃ name, name ∉ reader.model.entities.keys ∧
          (reader.openBody entity).model.entities.keys = reader.model.entities.keys ++ [name] := by
    intro entity
    by_cases hkey : entity.name ∈ reader.model.entities.keys
    · exact Or.inl (Table.map_put_of_mem entity hkey)
    · exact Or.inr ⟨entity.name, hkey, Table.map_put_of_not_mem entity hkey⟩
  cases h with
  | nothing | relationship | constraint | unmatched => exact Or.inl rfl
  | attr entity member | method entity member => exact hstore _
  | header name => exact hstore _

/-- A change leaves an entity alone whose body is not open, unless the line declares it again. Its
body stays closed. -/
theorem Change.closed (h : Change grammar strict reader number raw next)
    (hclosed : reader.ClosedFor name) (hname : ¬ reader.Declares grammar raw name) :
    next.ClosedFor name ∧ next.model.entities.get? name = reader.model.entities.get? name := by
  -- an entity of another name is stored and opened
  have hstore : ∀ entity : Entity, entity.name ≠ name →
      (reader.openBody entity).ClosedFor name ∧
        (reader.openBody entity).model.entities.get? name = reader.model.entities.get? name :=
    fun entity hne ↦ ⟨ClosedFor.openBody hne, Table.get?_insert_of_ne _ _ (Ne.symm hne)⟩
  cases h with
  | nothing scope hscope =>
      refine ⟨?_, rfl⟩
      intro entity hopen
      rcases hscope with hscope | hscope
      · exact hclosed entity (hscope.symm.trans hopen)
      · rw [hscope] at hopen
        cases hopen
  | relationship | constraint | unmatched => exact ⟨hclosed, rfl⟩
  | attr entity member hopen | method entity member hopen => exact hstore _ (hclosed entity hopen)
  | header other hother =>
      refine hstore _ ?_
      intro heq
      exact hname (heq ▸ hother)

/-! ## Any number of deliveries -/

/-- A delivery keeps a reader coherent. -/
theorem Coherent.receive (h : reader.Coherent) (grammar : Grammar) (strict : Bool)
    (delivery : Delivery) : (reader.receive grammar strict delivery).Coherent := by
  cases delivery with
  | finish =>
      refine ⟨h.distinct, h.named, ?_⟩
      intro entity hscope
      cases hscope
  | line number raw =>
      cases hfeed : reader.feed grammar strict number raw with
      | ok result =>
          rw [receive_ok hfeed]
          exact (effect_of_feed hfeed).coherent h
      | error refusal =>
          rw [receive_error hfeed]
          exact h

/-- Deliveries keep a reader coherent. -/
theorem Coherent.receiveAll (h : reader.Coherent) (grammar : Grammar) (strict : Bool)
    (deliveries : List Delivery) : (reader.receiveAll grammar strict deliveries).Coherent := by
  induction deliveries generalizing reader with
  | nil => exact h
  | cons delivery rest ih => exact ih (h.receive grammar strict delivery)

/-- A delivery declares an entity if it is a line that does. -/
def DeclaredBy (grammar : Grammar) (reader : Reader) (name : String) : Delivery → Prop
  | .line _ raw => reader.Declares grammar raw name
  | .finish => False

/-- A delivery leaves an entity alone whose body is not open, unless it declares it again. -/
theorem ClosedFor.receive (hclosed : reader.ClosedFor name) (h : reader.Coherent)
    {delivery : Delivery} (hname : ¬ reader.DeclaredBy grammar name delivery) (strict : Bool) :
    (reader.receive grammar strict delivery).ClosedFor name ∧
      (reader.receive grammar strict delivery).model.entities.get? name =
        reader.model.entities.get? name := by
  cases delivery with
  | finish =>
      refine ⟨?_, rfl⟩
      intro entity hopen
      cases hopen
  | line number raw => exact (h.change grammar strict number raw).closed hclosed hname

/-- An entity whose body is not open stays as it is through any deliveries, or up to the first of
them that declares it again. -/
theorem ClosedFor.receiveAll (hclosed : reader.ClosedFor name) (h : reader.Coherent)
    (grammar : Grammar) (strict : Bool) (deliveries : List Delivery) :
    (reader.receiveAll grammar strict deliveries).model.entities.get? name =
        reader.model.entities.get? name ∨
      ∃ before delivery after, deliveries = before ++ delivery :: after ∧
        (reader.receiveAll grammar strict before).DeclaredBy grammar name delivery ∧
        (reader.receiveAll grammar strict before).model.entities.get? name =
          reader.model.entities.get? name := by
  induction deliveries generalizing reader with
  | nil => exact Or.inl rfl
  | cons delivery rest ih =>
      by_cases hname : reader.DeclaredBy grammar name delivery
      · exact Or.inr ⟨[], delivery, rest, rfl, hname, rfl⟩
      · -- the delivery changes nothing for the entity, so all depends on the rest
        obtain ⟨hclosed', hsame⟩ := hclosed.receive h hname strict
        rcases ih hclosed' (h.receive grammar strict delivery) with hrest | hrest
        · exact Or.inl (hrest.trans hsame)
        · obtain ⟨before, declaring, after, hsplit, hdeclares, hget⟩ := hrest
          refine Or.inr ⟨delivery :: before, declaring, after, ?_, hdeclares, hget.trans hsame⟩
          rw [hsplit, List.cons_append]

end ClassDiagram.Reader

namespace ClassDiagram

/-- The states that a session can reach are those after some deliveries, with any matchers. From
each of them, one more line brings about at most one change. The relationships, the constraints and
the unmatched lines so far stay in front, the keys of the entities keep their order with at most one
new key at the end, and an entity whose body is not open stays as it is unless the line declares it.
So through any further deliveries such an entity stays as it is, or up to the line that declares it
again. -/
theorem line_changes_one_part (grammar : Grammar) (strict : Bool) :
    (∀ (ε : Type) (source : Source ε) (steps : List Step),
      ∃ history, (Session.run { grammar, strict, source } steps).reader =
        ({} : Reader).receiveAll grammar strict history) ∧
    ∀ history,
      let reader := ({} : Reader).receiveAll grammar strict history
      (∀ number raw,
        let next := reader.receive grammar strict (.line number raw)
        reader.Change grammar strict number raw next ∧
        reader.model.relationships <+: next.model.relationships ∧
        reader.model.constraints <+: next.model.constraints ∧
        reader.model.unmatched <+: next.model.unmatched ∧
        (next.model.entities.keys = reader.model.entities.keys ∨
          ∃ name, name ∉ reader.model.entities.keys ∧
            next.model.entities.keys = reader.model.entities.keys ++ [name]) ∧
        ∀ name, reader.ClosedFor name → ¬ reader.Declares grammar raw name →
          next.model.entities.get? name = reader.model.entities.get? name) ∧
      ∀ more name, reader.ClosedFor name →
        (reader.receiveAll grammar strict more).model.entities.get? name =
            reader.model.entities.get? name ∨
          ∃ before number raw after, more = before ++ .line number raw :: after ∧
            (reader.receiveAll grammar strict before).Declares grammar raw name ∧
            (reader.receiveAll grammar strict before).model.entities.get? name =
              reader.model.entities.get? name := by
  refine ⟨?_, ?_⟩
  · intro ε source steps
    exact ⟨_, by rw [Session.run_eq]⟩
  · intro history reader
    have hcoherent : reader.Coherent := Reader.coherent_empty.receiveAll grammar strict history
    refine ⟨?_, ?_⟩
    · intro number raw next
      have hchange := hcoherent.change grammar strict number raw
      obtain ⟨hlinks, hrules, hunmatched⟩ := hchange.lists
      exact ⟨hchange, hlinks, hrules, hunmatched, hchange.keys,
        fun name hclosed hname ↦ (hchange.closed hclosed hname).2⟩
    · intro more name hclosed
      rcases hclosed.receiveAll hcoherent grammar strict more with
        hsame | ⟨before, delivery, after, hsplit, hdeclares, hget⟩
      · exact Or.inl hsame
      · cases delivery with
        | finish => cases hdeclares
        | line number raw => exact Or.inr ⟨before, number, raw, after, hsplit, hdeclares, hget⟩

/-- A member line behind the closing brace of an entity leaves the entity as it is. -/
theorem line_changes_one_part_frozen :
    let reader := ({} : Reader).receiveAll Grammar.standard true
      [.line 1 "class A", .line 2 "x : int", .line 3 "\x7d"]
    (reader.receive Grammar.standard true (.line 4 "y : int")).model.entities.get? "A" =
      some ⟨"A", [⟨"x", "int"⟩], []⟩ := by
  intro reader
  obtain ⟨-, hstates⟩ := line_changes_one_part Grammar.standard true
  obtain ⟨hline, -⟩ := hstates [.line 1 "class A", .line 2 "x : int", .line 3 "\x7d"]
  obtain ⟨-, -, -, -, -, hsame⟩ := hline 4 "y : int"
  have hclosed : reader.ClosedFor "A" := by
    have hscope : reader.scope = .topLevel := by decide
    intro entity hopen
    rw [hscope] at hopen
    cases hopen
  have hname : ¬ reader.Declares Grammar.standard "y : int" "A" := by
    rintro ⟨text, hline, -, htop⟩
    have hcontent : Line.classify "y : int" = .content "y : int" := by decide
    have hnone : findFragment Grammar.standard.top "y : int" = none := by decide
    rw [hcontent] at hline
    cases hline
    rw [hnone] at htop
    cases htop
  rw [hsame "A" hclosed hname]
  decide

end ClassDiagram
