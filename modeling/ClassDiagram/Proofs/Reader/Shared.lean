import ClassDiagram.Proofs.Session.Fold
import ClassDiagram.Proofs.Reader.Coherent

/-!
# Readers that share their entities

A reader holds the open entity twice, in its scope and in the table of the model, and writes a
member to both. A shared reader holds each entity once, in a store, under a place that it never
loses. Its table and its open body hold places only, and a member is written to one place, whether
or not the table still leads there.

The two kinds of reader agree on all deliveries, by `Sound.receiveAll`. What makes them agree is
that the place of the open body is the one that the table holds under the name of its entity
(`Sound.opened`), so that a member never goes to an entity that a later header has replaced:
`Replaced.receiveAll` says that a replaced entity stays as it is for good.
-/

namespace ClassDiagram

/-! ## Shared readers -/

/-- A member leaves the name of its entity alone. -/
theorem Entity.name_of_add? {entity grown : Entity} {fragment : Fragment}
    (h : entity.add? fragment = some grown) : grown.name = entity.name := by
  cases fragment <;> cases h <;> rfl

/-- The model so far and the scope of the next line, with each entity held once. -/
structure SharedReader where
  /-- All entities that were ever declared, in the order of their headers. -/
  store : List Entity := []
  /-- The place in the store of the entity under each name. -/
  places : Table String Nat := {}
  /-- The place of the entity whose body is open. -/
  opened : Option Nat := none
  relationships : List Relationship := []
  constraints : List Constraint := []
  unmatched : List UnmatchedLine := []
deriving DecidableEq, Repr

namespace SharedReader

/-- The entity at a place. -/
def entityAt (shared : SharedReader) (place : Nat) : Entity :=
  shared.store.getD place ⟨"", [], []⟩

/-- The reader that holds the entities themselves in place of their places. -/
def view (shared : SharedReader) : Reader where
  model :=
    { entities := shared.places.mapValues shared.entityAt
      relationships := shared.relationships
      constraints := shared.constraints
      unmatched := shared.unmatched }
  scope :=
    match shared.opened with
    | none => .topLevel
    | some place => .inBody (shared.entityAt place)

/-- Writes an entity to a place of the store. -/
def write (shared : SharedReader) (place : Nat) (entity : Entity) : SharedReader :=
  { shared with store := shared.store.set place entity }

/-- Adds a member to the entity at the place of the open body, and nowhere else. -/
def addMember (shared : SharedReader) (place : Nat) (fragment : Fragment) :
    Except Misplaced (SharedReader × List Event) :=
  match (shared.entityAt place).add? fragment with
  | some grown => .ok (shared.write place grown, [])
  | none => .error (.inBody fragment)

/-- Puts a new entity into the store, lets the table lead to it, and opens its body. -/
def declare (shared : SharedReader) (name : String) : SharedReader :=
  { shared with
    store := shared.store ++ [⟨name, [], []⟩]
    places := shared.places.insert name shared.store.length
    opened := some shared.store.length }

/-- Adds a fragment to the model. -/
def addTop (shared : SharedReader) (fragment : Fragment) :
    Except Misplaced (SharedReader × List Event) :=
  match fragment with
  | .header name =>
    .ok (shared.declare name, if shared.places.contains name then [.redeclared name] else [])
  | .relationship link =>
    .ok ({ shared with relationships := shared.relationships ++ [link] }, [])
  | .constraint rule => .ok ({ shared with constraints := shared.constraints ++ [rule] }, [])
  | .attr _ | .method _ => .error (.atTop fragment)

/-- Passes over a line that nothing recognised. -/
def passOver (shared : SharedReader) (strict : Bool) (number : Int) (text : String) :
    SharedReader × List Event :=
  (if strict then { shared with unmatched := shared.unmatched ++ [⟨number, text⟩] } else shared,
    [.unrecognised strict number text])

/-- The place of the open body with the fragment that a body matcher finds for it in a line. -/
def bodyMatch (grammar : Grammar) (shared : SharedReader) (text : String) :
    Option (Nat × Fragment) :=
  match shared.opened with
  | none => none
  | some place => (findFragment grammar.body text).map (place, ·)

/-- Takes in one content line. -/
def feedContent (grammar : Grammar) (strict : Bool) (shared : SharedReader) (number : Int)
    (text : String) : Except Misplaced (SharedReader × List Event) :=
  match shared.bodyMatch grammar text with
  | some (place, fragment) => shared.addMember place fragment
  | none =>
    match findFragment grammar.top text with
    | some fragment => shared.addTop fragment
    | none => .ok (shared.passOver strict number text)

/-- Takes in one raw line with its number. -/
def feed (grammar : Grammar) (strict : Bool) (shared : SharedReader) (number : Int)
    (raw : String) : Except Misplaced (SharedReader × List Event) :=
  match Line.classify raw with
  | .skip => .ok (shared, [])
  | .close => .ok ({ shared with opened := none }, [])
  | .content text => shared.feedContent grammar strict number text

/-- Receives one delivery. A line that is refused changes nothing. -/
def receive (grammar : Grammar) (strict : Bool) (shared : SharedReader) :
    Delivery → SharedReader
  | .line number raw =>
      match shared.feed grammar strict number raw with
      | .ok (next, _) => next
      | .error _ => shared
  | .finish => { shared with opened := none }

/-- Receives deliveries in order. -/
def receiveAll (grammar : Grammar) (strict : Bool) (shared : SharedReader)
    (deliveries : List Delivery) : SharedReader :=
  deliveries.foldl (receive grammar strict) shared

/-! ## What keeps the places right -/

/-- The table leads to entities of the names under which it holds their places, and it leads to the
entity of the open body. -/
structure Sound (shared : SharedReader) : Prop where
  distinct : shared.places.keys.Nodup
  named : ∀ entry ∈ shared.places.entries,
    entry.2 < shared.store.length ∧ (shared.entityAt entry.2).name = entry.1
  opened : ∀ place, shared.opened = some place →
    shared.places.get? (shared.entityAt place).name = some place

/-- The entity at a place was declared, and the table does not lead to it any more. -/
structure Replaced (shared : SharedReader) (place : Nat) : Prop where
  declared : place < shared.store.length
  unreachable : ∀ entry ∈ shared.places.entries, entry.2 ≠ place

variable {grammar : Grammar} {strict : Bool} {shared next : SharedReader} {number : Int}
  {raw : String} {place : Nat} {events : List Event}

/-- A shared reader starts sound. -/
theorem sound_empty : ({} : SharedReader).Sound where
  distinct := Table.nodup_keys_empty
  named := by
    intro entry hentry
    cases hentry
  opened := by
    intro place hplace
    cases hplace

/-- The open body belongs to a stored entity. -/
theorem Sound.lt_of_opened (h : shared.Sound) (hopened : shared.opened = some place) :
    place < shared.store.length :=
  (h.named _ (Table.mem_of_get? (h.opened place hopened))).1

/-! ## The entities of the store -/

theorem entityAt_write_self {entity : Entity} (h : place < shared.store.length) :
    (shared.write place entity).entityAt place = entity := by
  simp [entityAt, write, h]

theorem entityAt_write_of_ne {other : Nat} {entity : Entity} (h : other ≠ place) :
    (shared.write place entity).entityAt other = shared.entityAt other := by
  simp [entityAt, write, List.getElem?_set_ne h.symm]

theorem entityAt_declare_self (shared : SharedReader) (name : String) :
    (shared.declare name).entityAt shared.store.length = ⟨name, [], []⟩ := by
  simp [entityAt, declare]

theorem entityAt_declare_of_lt {name : String} (h : place < shared.store.length) :
    (shared.declare name).entityAt place = shared.entityAt place := by
  simp [entityAt, declare, List.getElem?_append_left h]

/-- A body matcher is asked only if a body is open. -/
theorem opened_of_bodyMatch {text : String} {fragment : Fragment}
    (h : shared.bodyMatch grammar text = some (place, fragment)) : shared.opened = some place := by
  unfold bodyMatch at h
  cases hopened : shared.opened with
  | none => simp [hopened] at h
  | some other =>
      simp only [hopened, Option.map_eq_some_iff, Prod.mk.injEq] at h
      obtain ⟨_, _, hplace, _⟩ := h
      rw [hplace]

/-- All that a line can do to the store, the table and the open body: nothing, but perhaps to close
the body; a member at the place of the open body; or a declaration. -/
theorem feed_cases (h : shared.feed grammar strict number raw = .ok (next, events)) :
    (next.store = shared.store ∧ next.places = shared.places ∧
        (next.opened = shared.opened ∨ next.opened = none)) ∨
      (∃ place fragment grown, shared.opened = some place ∧
        (shared.entityAt place).add? fragment = some grown ∧ next = shared.write place grown) ∨
      ∃ name, next = shared.declare name := by
  unfold feed at h
  cases hline : Line.classify raw with
  | skip =>
      rw [hline] at h
      cases h
      exact Or.inl ⟨rfl, rfl, Or.inl rfl⟩
  | close =>
      rw [hline] at h
      cases h
      exact Or.inl ⟨rfl, rfl, Or.inr rfl⟩
  | content text =>
      rw [hline] at h
      simp only [feedContent] at h
      cases hbody : shared.bodyMatch grammar text with
      | some found =>
          obtain ⟨place, fragment⟩ := found
          simp only [hbody, addMember] at h
          cases hgrown : (shared.entityAt place).add? fragment with
          | none => simp [hgrown] at h
          | some grown =>
              simp only [hgrown] at h
              cases h
              exact Or.inr (Or.inl ⟨place, fragment, grown, opened_of_bodyMatch hbody, hgrown, rfl⟩)
      | none =>
          simp only [hbody] at h
          cases htop : findFragment grammar.top text with
          | none =>
              simp only [htop, passOver] at h
              cases h
              cases strict <;> exact Or.inl ⟨rfl, rfl, Or.inl rfl⟩
          | some fragment =>
              simp only [htop] at h
              cases fragment with
              | header name => cases h; exact Or.inr (Or.inr ⟨name, rfl⟩)
              | relationship link => cases h; exact Or.inl ⟨rfl, rfl, Or.inl rfl⟩
              | constraint rule => cases h; exact Or.inl ⟨rfl, rfl, Or.inl rfl⟩
              | attr member => cases h
              | method member => cases h

/-! ## A line keeps the places right -/

/-- A shared reader stays sound if its store and its table do not change. -/
theorem Sound.congr (h : shared.Sound) (hstore : next.store = shared.store)
    (hplaces : next.places = shared.places)
    (hopened : next.opened = shared.opened ∨ next.opened = none) : next.Sound := by
  have hat : ∀ other, next.entityAt other = shared.entityAt other := by
    intro other
    rw [entityAt, hstore, entityAt]
  refine ⟨hplaces ▸ h.distinct, ?_, ?_⟩
  · intro entry hentry
    rw [hat, hstore]
    exact h.named entry (hplaces ▸ hentry)
  · intro place hplace
    rw [hat, hplaces]
    rcases hopened with hopened | hopened
    · exact h.opened place (hopened ▸ hplace)
    · rw [hopened] at hplace
      cases hplace

/-- Writing an entity of the same name keeps a shared reader sound. -/
theorem Sound.write (h : shared.Sound) {entity : Entity}
    (hname : entity.name = (shared.entityAt place).name) : (shared.write place entity).Sound := by
  have hnames : ∀ other, other < shared.store.length →
      ((shared.write place entity).entityAt other).name = (shared.entityAt other).name := by
    intro other hlt
    by_cases hother : other = place
    · rw [hother] at hlt ⊢
      rw [entityAt_write_self hlt, hname]
    · rw [entityAt_write_of_ne hother]
  have hlength : (shared.write place entity).store.length = shared.store.length :=
    List.length_set
  refine ⟨h.distinct, ?_, ?_⟩
  · intro entry hentry
    obtain ⟨hlt, hkey⟩ := h.named entry hentry
    exact ⟨hlength ▸ hlt, (hnames entry.2 hlt).trans hkey⟩
  · intro other hopened
    rw [hnames other (h.lt_of_opened hopened)]
    exact h.opened other hopened

/-- A declaration keeps a shared reader sound. -/
theorem Sound.declare (h : shared.Sound) (name : String) : (shared.declare name).Sound where
  distinct := Table.nodup_keys_insert h.distinct _ _
  named := by
    have hlength : (shared.declare name).store.length = shared.store.length + 1 :=
      List.length_append
    intro entry hentry
    rcases Table.mem_put hentry with hnew | hold
    · rw [hnew, entityAt_declare_self, hlength]
      exact ⟨Nat.lt_succ_self _, rfl⟩
    · obtain ⟨hlt, hkey⟩ := h.named entry hold
      rw [entityAt_declare_of_lt hlt, hlength]
      exact ⟨Nat.lt_succ_of_lt hlt, hkey⟩
  opened := by
    intro place hopened
    cases hopened
    rw [entityAt_declare_self]
    exact Table.get?_insert_self _ _ _

/-- A line keeps a shared reader sound. -/
theorem Sound.feed (h : shared.Sound)
    (hfeed : shared.feed grammar strict number raw = .ok (next, events)) : next.Sound := by
  rcases feed_cases hfeed with ⟨hstore, hplaces, hopened⟩ | ⟨place, _, grown, _, hgrown, hnext⟩ |
    ⟨name, hnext⟩
  · exact h.congr hstore hplaces hopened
  · rw [hnext]
    exact h.write (Entity.name_of_add? hgrown)
  · rw [hnext]
    exact h.declare name

/-- A line leaves a replaced entity as it is, and replaced. -/
theorem Replaced.feed (h : shared.Replaced place) (hsound : shared.Sound)
    (hfeed : shared.feed grammar strict number raw = .ok (next, events)) :
    next.Replaced place ∧ next.entityAt place = shared.entityAt place := by
  rcases feed_cases hfeed with ⟨hstore, hplaces, _⟩ | ⟨opened, _, grown, hopened, _, hnext⟩ |
    ⟨name, hnext⟩
  · refine ⟨⟨hstore ▸ h.declared, hplaces ▸ h.unreachable⟩, ?_⟩
    rw [entityAt, hstore, entityAt]
  · -- the table leads to the open body, so that is another place
    have hne : place ≠ opened := by
      intro heq
      exact h.unreachable _ (Table.mem_of_get? (hsound.opened opened hopened)) heq.symm
    rw [hnext]
    refine ⟨⟨?_, h.unreachable⟩, entityAt_write_of_ne hne⟩
    rw [SharedReader.write, List.length_set]
    exact h.declared
  · rw [hnext]
    refine ⟨⟨?_, ?_⟩, entityAt_declare_of_lt h.declared⟩
    · rw [SharedReader.declare, List.length_append]
      exact Nat.lt_add_right _ h.declared
    · intro entry hentry
      rcases Table.mem_put hentry with hnew | hold
      · rw [hnew]
        exact (Nat.ne_of_lt h.declared).symm
      · exact h.unreachable entry hold

/-- A header replaces the entity to which the table led under its name. -/
theorem Sound.replaced_declare (h : shared.Sound) {name : String}
    (hget : shared.places.get? name = some place) : (shared.declare name).Replaced place := by
  obtain ⟨hlt, hname⟩ := h.named _ (Table.mem_of_get? hget)
  refine ⟨?_, ?_⟩
  · rw [SharedReader.declare, List.length_append]
    exact Nat.lt_add_right _ hlt
  · intro entry hentry hplace
    have hnew : (name, shared.store.length) ∈ (shared.declare name).places.entries :=
      Table.mem_of_get? (Table.get?_insert_self _ _ _)
    by_cases hkey : entry.1 = name
    · -- the only entry of the name is the new one
      have hsame : entry = (name, shared.store.length) :=
        List.inj_on_of_nodup_map (h.declare name).distinct hentry hnew hkey
      rw [hsame] at hplace
      exact Nat.ne_of_gt hlt hplace
    · rcases Table.mem_put hentry with heq | hold
      · rw [heq] at hkey
        exact hkey rfl
      · apply hkey
        rw [← (h.named entry hold).2, hplace]
        exact hname

/-- The view of a sound reader holds its open entity under the name of that entity. -/
theorem Sound.get?_of_open (h : shared.Sound) {entity : Entity}
    (hscope : shared.view.scope = .inBody entity) :
    shared.view.model.entities.get? entity.name = some entity := by
  cases hopened : shared.opened with
  | none => simp [view, hopened] at hscope
  | some place =>
      have hentity : shared.entityAt place = entity := by simpa [view, hopened] using hscope
      have hplace := h.opened place hopened
      rw [hentity] at hplace
      show (shared.places.mapValues shared.entityAt).get? entity.name = some entity
      rw [Table.get?_mapValues, hplace, Option.map_some, hentity]

/-! ## A line does the same to a shared reader and to its view -/

theorem view_write {entity : Entity} (h : shared.Sound) (hopened : shared.opened = some place)
    (hname : entity.name = (shared.entityAt place).name) :
    (shared.write place entity).view = shared.view.openBody entity := by
  have hself : (shared.write place entity).entityAt place = entity :=
    entityAt_write_self (h.lt_of_opened hopened)
  have hget : shared.places.get? entity.name = some place := by
    rw [hname]
    exact h.opened place hopened
  have htable : shared.places.mapValues (shared.write place entity).entityAt =
      (shared.places.mapValues shared.entityAt).insert entity.name entity := by
    rw [Table.mapValues_update h.distinct hget, hself]
    intro entry hentry hkey
    apply entityAt_write_of_ne
    intro hplace
    apply hkey
    rw [← (h.named entry hentry).2, hplace, hname]
  have hscope : (shared.write place entity).view.scope = .inBody entity := by
    have hsame : (shared.write place entity).opened = some place := hopened
    simp only [view, hsame, hself]
  show Reader.mk { entities := shared.places.mapValues (shared.write place entity).entityAt
                   relationships := shared.relationships
                   constraints := shared.constraints
                   unmatched := shared.unmatched } (shared.write place entity).view.scope = _
  rw [htable, hscope]
  rfl

theorem view_declare (h : shared.Sound) (name : String) :
    (shared.declare name).view = shared.view.openBody ⟨name, [], []⟩ := by
  have hself := entityAt_declare_self shared name
  have htable : (shared.declare name).places.mapValues (shared.declare name).entityAt =
      (shared.places.mapValues shared.entityAt).insert name ⟨name, [], []⟩ := by
    rw [SharedReader.declare, Table.mapValues_insert]
    congr 1
    apply Table.mapValues_congr
    intro entry hentry
    exact entityAt_declare_of_lt (h.named entry hentry).1
  show Reader.mk { entities := (shared.declare name).places.mapValues (shared.declare name).entityAt
                   relationships := shared.relationships
                   constraints := shared.constraints
                   unmatched := shared.unmatched }
    (.inBody ((shared.declare name).entityAt shared.store.length)) = _
  rw [htable, hself]
  rfl

/-- The result of a line, as the view shows it. -/
def viewResult (result : SharedReader × List Event) : Reader × List Event :=
  (result.1.view, result.2)

theorem view_addMember (h : shared.Sound) (hopened : shared.opened = some place)
    (fragment : Fragment) :
    (shared.addMember place fragment).map viewResult =
      shared.view.addMember (shared.entityAt place) fragment := by
  unfold addMember Reader.addMember
  cases hgrown : (shared.entityAt place).add? fragment with
  | none => rfl
  | some grown =>
      show Except.ok ((shared.write place grown).view, []) = _
      rw [view_write h hopened (Entity.name_of_add? hgrown)]

theorem view_addTop (h : shared.Sound) (fragment : Fragment) :
    (shared.addTop fragment).map viewResult = shared.view.addTop fragment := by
  cases fragment with
  | header name =>
      show Except.ok ((shared.declare name).view,
        if shared.places.contains name then [Event.redeclared name] else []) = _
      rw [view_declare h, ← Table.contains_mapValues shared.entityAt]
      rfl
  | relationship | constraint | attr | method => rfl

theorem view_passOver (shared : SharedReader) (strict : Bool) (number : Int) (text : String) :
    viewResult (shared.passOver strict number text) =
      shared.view.passOver strict number text := by
  cases strict <;> rfl

/-- The body matchers find the same for a shared reader and for its view. -/
theorem view_bodyMatch (shared : SharedReader) (grammar : Grammar) (text : String) :
    shared.view.bodyMatch grammar text =
      (shared.bodyMatch grammar text).map fun found ↦ (shared.entityAt found.1, found.2) := by
  cases hopened : shared.opened with
  | none => simp [Reader.bodyMatch, bodyMatch, view, hopened]
  | some place => simp [Reader.bodyMatch, bodyMatch, view, hopened, Function.comp_def]

/-- A line is refused by a shared reader if it is refused by its view, and otherwise they agree on
what it does and on what is reported. -/
theorem view_feed (h : shared.Sound) (grammar : Grammar) (strict : Bool) (number : Int)
    (raw : String) :
    (shared.feed grammar strict number raw).map viewResult =
      shared.view.feed grammar strict number raw := by
  unfold feed Reader.feed
  cases Line.classify raw with
  | skip => rfl
  | close => rfl
  | content text =>
      simp only [feedContent, Reader.feedContent, view_bodyMatch]
      cases hbody : shared.bodyMatch grammar text with
      | some found => exact view_addMember h (opened_of_bodyMatch hbody) found.2
      | none =>
          cases findFragment grammar.top text with
          | none => exact congrArg Except.ok (view_passOver shared strict number text)
          | some fragment => exact view_addTop h fragment

/-! ## Deliveries -/

theorem receive_ok (h : shared.feed grammar strict number raw = .ok (next, events)) :
    shared.receive grammar strict (.line number raw) = next := by
  simp only [receive, h]

theorem receive_error {refusal : Misplaced}
    (h : shared.feed grammar strict number raw = .error refusal) :
    shared.receive grammar strict (.line number raw) = shared := by
  simp only [receive, h]

/-- A delivery keeps a shared reader sound and does the same to it and to its view. -/
theorem Sound.receive (h : shared.Sound) (grammar : Grammar) (strict : Bool)
    (delivery : Delivery) :
    (shared.receive grammar strict delivery).Sound ∧
      (shared.receive grammar strict delivery).view =
        shared.view.receive grammar strict delivery := by
  cases delivery with
  | finish => exact ⟨h.congr rfl rfl (Or.inr rfl), rfl⟩
  | line number raw =>
      have hview := view_feed h grammar strict number raw
      cases hfeed : shared.feed grammar strict number raw with
      | error refusal =>
          rw [hfeed] at hview
          rw [Reader.receive_error hview.symm, receive_error hfeed]
          exact ⟨h, rfl⟩
      | ok result =>
          rw [hfeed] at hview
          rw [Reader.receive_ok hview.symm, receive_ok hfeed]
          exact ⟨h.feed hfeed, rfl⟩

/-- Deliveries keep a shared reader sound and do the same to it and to its view. -/
theorem Sound.receiveAll (h : shared.Sound) (grammar : Grammar) (strict : Bool)
    (deliveries : List Delivery) :
    (shared.receiveAll grammar strict deliveries).Sound ∧
      (shared.receiveAll grammar strict deliveries).view =
        shared.view.receiveAll grammar strict deliveries := by
  induction deliveries generalizing shared with
  | nil => exact ⟨h, rfl⟩
  | cons delivery rest ih =>
      obtain ⟨hsound, hview⟩ := h.receive grammar strict delivery
      obtain ⟨hsound', hview'⟩ := ih hsound
      refine ⟨hsound', hview'.trans ?_⟩
      rw [hview]
      rfl

/-- A delivery leaves a replaced entity as it is, and replaced. -/
theorem Replaced.receive (h : shared.Replaced place) (hsound : shared.Sound) (grammar : Grammar)
    (strict : Bool) (delivery : Delivery) :
    (shared.receive grammar strict delivery).Replaced place ∧
      (shared.receive grammar strict delivery).entityAt place = shared.entityAt place := by
  cases delivery with
  | finish => exact ⟨⟨h.declared, h.unreachable⟩, rfl⟩
  | line number raw =>
      cases hfeed : shared.feed grammar strict number raw with
      | error refusal =>
          rw [receive_error hfeed]
          exact ⟨h, rfl⟩
      | ok result =>
          rw [receive_ok hfeed]
          exact h.feed hsound hfeed

/-- An entity that was replaced stays as it is for good. -/
theorem Replaced.receiveAll (h : shared.Replaced place) (hsound : shared.Sound)
    (grammar : Grammar) (strict : Bool) (deliveries : List Delivery) :
    (shared.receiveAll grammar strict deliveries).Replaced place ∧
      (shared.receiveAll grammar strict deliveries).entityAt place = shared.entityAt place := by
  induction deliveries generalizing shared with
  | nil => exact ⟨h, rfl⟩
  | cons delivery rest ih =>
      obtain ⟨hreplaced, hsame⟩ := h.receive hsound grammar strict delivery
      obtain ⟨hreplaced', hsame'⟩ := ih hreplaced (hsound.receive grammar strict delivery).1
      exact ⟨hreplaced', hsame'.trans hsame⟩

end SharedReader

end ClassDiagram
