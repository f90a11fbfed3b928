import ClassDiagram.Proofs.Reader.Shared

/-!
# The open body of a session

Whatever matchers are used and whatever steps a session takes, refused lines and failed readings
included, the open entity is the one that the model holds under its name, so the next member is seen
in the model. The shared reader that receives the same deliveries says more: the open body and the
table lead to the same place, and no member is ever written to an entity that was replaced.
-/

namespace ClassDiagram

/-- A member that a body matcher finds goes to the open entity, both in the scope and in the
model. -/
theorem Reader.receive_member {grammar : Grammar} {strict : Bool} {reader : Reader}
    {number : Int} {raw text : String} {entity grown : Entity} {fragment : Fragment}
    (hscope : reader.scope = .inBody entity) (hline : Line.classify raw = .content text)
    (hbody : findFragment grammar.body text = some fragment)
    (hgrown : entity.add? fragment = some grown) :
    reader.receive grammar strict (.line number raw) = reader.openBody grown := by
  have hfeed : reader.feed grammar strict number raw = .ok (reader.openBody grown, []) := by
    simp [Reader.feed, hline, Reader.feedContent, Reader.bodyMatch, hscope, hbody,
      Reader.addMember, hgrown]
  exact Reader.receive_ok hfeed

/-- A header that a top matcher finds declares its entity, if no body matcher finds anything. -/
theorem SharedReader.receive_header {grammar : Grammar} {strict : Bool} {shared : SharedReader}
    {number : Int} {raw text name : String} (hline : Line.classify raw = .content text)
    (hbody : shared.bodyMatch grammar text = none)
    (htop : findFragment grammar.top text = some (.header name)) :
    shared.receive grammar strict (.line number raw) = shared.declare name := by
  have hfeed : shared.feed grammar strict number raw =
      .ok (shared.declare name,
        if shared.places.contains name then [.redeclared name] else []) := by
    simp [SharedReader.feed, hline, SharedReader.feedContent, hbody, htop, SharedReader.addTop]
  exact SharedReader.receive_ok hfeed

variable {ε : Type}

/-- With any matchers and after any steps of a session, an open entity is the one that the model
holds under its name, and a member that is found next is added to it in the model. The shared reader
that receives the same deliveries shows the same, and there the open body and the table lead to the
same place. A header replaces the entity of its name, and an entity that was replaced stays as it is
through all further steps. -/
theorem open_entity_is_stored (grammar : Grammar) (strict : Bool) (source : Source ε)
    (steps : List Step) :
    let start : Session ε := { grammar, strict, source }
    let session := start.run steps
    let shared := ({} : SharedReader).receiveAll grammar strict (start.deliveries steps)
    (∀ entity, session.reader.scope = .inBody entity →
      session.reader.model.entities.get? entity.name = some entity ∧
      ∀ number raw text fragment grown, Line.classify raw = .content text →
        findFragment grammar.body text = some fragment → entity.add? fragment = some grown →
        let next := (session.step (.feed number raw)).session.reader
        next.scope = .inBody grown ∧ next.model.entities.get? entity.name = some grown) ∧
    shared.view = session.reader ∧
    (∀ place, shared.opened = some place →
      shared.places.get? (shared.entityAt place).name = some place) ∧
    (∀ number raw text name place, Line.classify raw = .content text →
      shared.bodyMatch grammar text = none →
      findFragment grammar.top text = some (.header name) →
      shared.places.get? name = some place →
      (shared.receive grammar strict (.line number raw)).Replaced place) ∧
    (∀ more place, shared.Replaced place →
      let later := ({} : SharedReader).receiveAll grammar strict (start.deliveries (steps ++ more))
      later.Replaced place ∧ later.entityAt place = shared.entityAt place) := by
  intro start session shared
  obtain ⟨hsound, hview⟩ :=
    SharedReader.sound_empty.receiveAll grammar strict (start.deliveries steps)
  have hsession := Session.run_eq start steps
  have hreader : shared.view = session.reader := by
    show shared.view = (start.run steps).reader
    rw [hsession]
    exact hview
  have hgrammar : session.grammar = grammar := by
    show (start.run steps).grammar = grammar
    rw [hsession]
  refine ⟨?_, hreader, hsound.opened, ?_, ?_⟩
  · intro entity hscope
    have hstored : session.reader.model.entities.get? entity.name = some entity := by
      rw [← hreader] at hscope ⊢
      exact hsound.get?_of_open hscope
    refine ⟨hstored, ?_⟩
    intro number raw text fragment grown hline hbody hgrown next
    have hnext : next = session.reader.openBody grown := by
      show (session.feed number raw).session.reader = _
      rw [← hgrammar] at hbody
      rw [Session.session_feed]
      exact Reader.receive_member hscope hline hbody hgrown
    rw [hnext, ← Entity.name_of_add? hgrown]
    exact ⟨rfl, Table.get?_insert_self _ _ _⟩
  · intro number raw text name place hline hbody htop hget
    rw [SharedReader.receive_header hline hbody htop]
    exact hsound.replaced_declare hget
  · intro more place hreplaced later
    have hlater : later = shared.receiveAll grammar strict (session.deliveries more) := by
      show ({} : SharedReader).receiveAll grammar strict (start.deliveries (steps ++ more)) = _
      rw [Session.deliveries_append]
      exact List.foldl_append
    rw [hlater]
    exact hreplaced.receiveAll hsound grammar strict _

/-- An entity is declared again while its body is open. The next member goes to the new entity, and
the old one keeps the member that it had. -/
theorem open_entity_is_stored_redeclared :
    let start : Session Unit :=
      { grammar := Grammar.standard, strict := false, source := ⟨[], .failed ()⟩ }
    let steps : List Step := [.feed 1 "class A", .feed 2 "x : int", .parse, .feed 3 "class A \x7b"]
    let next : Step := .feed 4 "y : int"
    (start.run steps).reader.model.entities.get? "A" = some ⟨"A", [], []⟩ ∧
      ((start.run steps).step next).session.reader.model.entities.get? "A" =
        some ⟨"A", [⟨"y", "int"⟩], []⟩ ∧
      (({} : SharedReader).receiveAll Grammar.standard false
        (start.deliveries (steps ++ [next]))).entityAt 0 = ⟨"A", [⟨"x", "int"⟩], []⟩ := by
  intro start steps next
  obtain ⟨hopen, -, -, -, hreplaced⟩ :=
    open_entity_is_stored Grammar.standard false (⟨[], .failed ()⟩ : Source Unit) steps
  obtain ⟨hstored, hnext⟩ := hopen ⟨"A", [], []⟩ (by decide)
  have hmember := hnext 4 "y : int" "y : int" (.attr ⟨"y", "int"⟩) ⟨"A", [⟨"y", "int"⟩], []⟩
    (by decide) (by decide) (by decide)
  have hold := hreplaced [next] 0 ⟨by decide, by decide⟩
  refine ⟨hstored, hmember.2, hold.2.trans ?_⟩
  decide

end ClassDiagram
