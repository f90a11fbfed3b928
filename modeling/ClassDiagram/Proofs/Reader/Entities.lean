import ClassDiagram.Proofs.Reader.Coherent

/-!
# The entities of a list of lines

Which entities a list of lines declares, and with which members, told by positions. The names are
those of the header lines, in the order of their first occurrence. The members of an entity are
those between the last header line of its name and the next line that ends a body.

A reader finds this out with one pass over the lines. The proof follows the entity of one name. As
long as its body is open, the stored entity grows by the members of each line (`run_open`). Once it
is closed, and no further header names it, the stored entity stays as it is (`run_closed`). What
came before the last header of the name does not matter, since that header starts the entity afresh
(`run_lastHeader`).
-/

namespace ClassDiagram

/-! ## Positions -/

/-- The names in the header lines, in order. -/
def headerNames (lines : List String) : List String := lines.filterMap (Line.find? Form.header?)

/-- A name is in no header line exactly if it is not in the first line and in none behind it. -/
theorem not_mem_headerNames_cons {name raw : String} {rest : List String} :
    name ∉ headerNames (raw :: rest) ↔
      Line.find? Form.header? raw ≠ some name ∧ name ∉ headerNames rest := by
  cases h : Line.find? Form.header? raw with
  | none => simp [headerNames, h]
  | some other => simp [headerNames, h, eq_comm]

/-- Whether a line ends an open body: it is a closing brace or the header of any entity. -/
def Line.endsBody (raw : String) : Bool :=
  Line.classify raw = .close || (Line.find? Form.header? raw).isSome

/-- At position `i` stands the last header line of the given name. -/
structure LastHeader (lines : List String) (name : String) (i : Nat) : Prop where
  header : ∃ raw, lines[i]? = some raw ∧ Line.find? Form.header? raw = some name
  last : ∀ k raw, i < k → lines[k]? = some raw → Line.find? Form.header? raw ≠ some name

/-- Position `j` is that of the first line behind position `i` that ends a body, or the end of the
lines if there is none. -/
structure BodyEnd (lines : List String) (i j : Nat) : Prop where
  behind : i < j
  within : j ≤ lines.length
  stays : ∀ k raw, i < k → k < j → lines[k]? = some raw → Line.endsBody raw = false
  ends : ∀ raw, lines[j]? = some raw → Line.endsBody raw = true

/-- The lines strictly between two positions. -/
def linesBetween (lines : List String) (i j : Nat) : List String := (lines.take j).drop (i + 1)

/-- An entity with the members that the forms of attributes and methods find in its body lines. -/
def Entity.ofBody (name : String) (body : List String) : Entity where
  name := name
  attributes := body.filterMap (Line.find? Form.attr?)
  methods := body.filterMap (Line.find? Form.method?)

/-! ## What an item does to the entity of one name -/

/-- Whether an item ends an open body. -/
def Item.endsBody : Item → Bool
  | close | known _ (.header _) => true
  | skip | unknown _ | known _ (.attr _) | known _ (.method _) | known _ (.relationship _)
  | known _ (.constraint _) => false

theorem Line.endsBody_eq (raw : String) : Line.endsBody raw = (Item.ofLine raw).endsBody := by
  rw [Line.endsBody, Line.find?_header]
  unfold Item.ofLine
  cases Line.classify raw with
  | skip => rfl
  | close => rfl
  | content text =>
      cases hfragment : Form.fragment? text with
      | none => simp [hfragment, Item.fragment?, Item.endsBody]
      | some fragment =>
          cases fragment <;>
            simp [hfragment, Item.fragment?, Item.endsBody, Fragment.header?]

/-- An entity with the member of an item added, if there is one. -/
def Entity.grow (entity : Entity) (item : Item) : Entity :=
  { entity with
    attributes := entity.attributes ++ (item.fragment?.bind Fragment.attr?).toList
    methods := entity.methods ++ (item.fragment?.bind Fragment.method?).toList }

@[simp] theorem Entity.grow_name (entity : Entity) (item : Item) :
    (entity.grow item).name = entity.name := rfl

/-- An entity that grows by several lines gets the attributes and the methods in them, in order. -/
theorem Entity.foldl_grow (entity : Entity) (lines : List String) :
    (lines.map Item.ofLine).foldl Entity.grow entity =
      { entity with
        attributes := entity.attributes ++ lines.filterMap (Line.find? Form.attr?)
        methods := entity.methods ++ lines.filterMap (Line.find? Form.method?) } := by
  induction lines generalizing entity with
  | nil => simp
  | cons raw rest ih =>
      rw [List.map_cons, List.foldl_cons, ih]
      simp only [Entity.grow, ← Line.find?_attr, ← Line.find?_method]
      cases hattr : Line.find? Form.attr? raw <;>
        cases hmethod : Line.find? Form.method? raw <;> simp [hattr, hmethod]

namespace Reader

variable {reader : Reader} {name : String}

/-- The body of the entity of the given name is not open. -/
def ClosedFor (reader : Reader) (name : String) : Prop :=
  ∀ entity, reader.scope = .inBody entity → entity.name ≠ name

theorem ClosedFor.openBody {entity : Entity} (h : entity.name ≠ name) :
    (reader.openBody entity).ClosedFor name := by
  intro opened hopened
  cases hopened
  exact h

/-- An item that does not end the open body lets the open entity grow, and stores it. -/
theorem takeItem_open {entity : Entity} (hopen : reader.scope = .inBody entity)
    (hstored : reader.model.entities.get? entity.name = some entity) (strict : Bool) (number : Int)
    {item : Item} (hitem : item.endsBody = false) :
    (reader.takeItem strict number item).1.scope = .inBody (entity.grow item) ∧
      (reader.takeItem strict number item).1.model.entities.get? entity.name =
        some (entity.grow item) := by
  cases item with
  | skip => simp [takeItem, Entity.grow, Item.fragment?, hopen, hstored]
  | close => cases hitem
  | unknown text => simp [takeItem, Entity.grow, Item.fragment?, hopen, hstored]
  | known text fragment =>
      cases fragment with
      | header name => cases hitem
      | relationship link | constraint rule =>
          simp [takeItem, takeFragment, Entity.grow, Item.fragment?, Fragment.attr?,
            Fragment.method?, hopen, hstored]
      | attr member | method member =>
          simp [takeItem, takeFragment, Entity.grow, Item.fragment?, Fragment.attr?,
            Fragment.method?, hopen, Reader.openBody]

/-- An item that is not a header of the given name leaves the entity of that name alone, if its
body is closed or closed by the item. -/
theorem takeItem_closed {item : Item} (h : reader.ClosedFor name ∨ item.endsBody = true)
    (hname : item.fragment?.bind Fragment.header? ≠ some name) (strict : Bool) (number : Int) :
    (reader.takeItem strict number item).1.ClosedFor name ∧
      (reader.takeItem strict number item).1.model.entities.get? name =
        reader.model.entities.get? name := by
  cases item with
  | skip => exact ⟨h.resolve_right (by simp [Item.endsBody]), rfl⟩
  | close =>
      refine ⟨?_, rfl⟩
      intro entity hopen
      cases hopen
  | unknown text =>
      refine ⟨?_, by simp [takeItem]⟩
      intro entity hopen
      exact h.resolve_right (by simp [Item.endsBody]) entity (by simpa [takeItem] using hopen)
  | known text fragment =>
      cases fragment with
      | header other =>
          have hne : other ≠ name := by
            intro heq
            simp [Item.fragment?, Fragment.header?, heq] at hname
          exact ⟨ClosedFor.openBody hne, Table.get?_insert_of_ne _ _ (Ne.symm hne)⟩
      | relationship link | constraint rule =>
          exact ⟨h.resolve_right (by simp [Item.endsBody]), rfl⟩
      | attr member | method member =>
          have hclosed := h.resolve_right (by simp [Item.endsBody])
          cases hscope : reader.scope with
          | topLevel =>
              simp only [takeItem, takeFragment, hscope]
              refine ⟨?_, by simp⟩
              intro entity hopen
              exact hclosed entity (by simpa using hopen)
          | inBody entity =>
              have hne : entity.name ≠ name := hclosed entity hscope
              simp only [takeItem, takeFragment, hscope]
              exact ⟨ClosedFor.openBody hne, Table.get?_insert_of_ne _ _ (Ne.symm hne)⟩

/-! ## Runs -/

/-- A run without a header of the given name leaves the entity of that name alone, once its body is
closed. -/
theorem run_closed (h : reader.ClosedFor name) (strict : Bool) (number : Int) {lines : List String}
    (hlines : name ∉ headerNames lines) :
    (reader.run strict number lines).model.entities.get? name =
      reader.model.entities.get? name := by
  induction lines generalizing reader number with
  | nil => rfl
  | cons raw rest ih =>
      obtain ⟨hraw, hrest⟩ := not_mem_headerNames_cons.1 hlines
      rw [Line.find?_header] at hraw
      obtain ⟨hclosed, hsame⟩ := takeItem_closed (Or.inl h) hraw strict number
      rw [run, ih hclosed (number + 1) hrest, hsame]

/-- A run without a header of the given name lets the entity of that name grow by the lines before
the first that ends its body. -/
theorem run_open {entity : Entity} (hopen : reader.scope = .inBody entity)
    (hstored : reader.model.entities.get? entity.name = some entity) (strict : Bool) (number : Int)
    {lines : List String} (hlines : entity.name ∉ headerNames lines) :
    (reader.run strict number lines).model.entities.get? entity.name =
      some ((lines.takeWhile (!Line.endsBody ·)).map Item.ofLine |>.foldl Entity.grow entity) := by
  induction lines generalizing reader number entity with
  | nil => simpa [run] using hstored
  | cons raw rest ih =>
      obtain ⟨hraw, hrest⟩ := not_mem_headerNames_cons.1 hlines
      rw [Line.find?_header] at hraw
      cases hends : (Item.ofLine raw).endsBody with
      | true =>
          -- the line ends the body, and no later line can change the entity
          obtain ⟨hclosed, hsame⟩ := takeItem_closed (Or.inr hends) hraw strict number
          rw [run, run_closed hclosed strict (number + 1) hrest, hsame, hstored]
          simp [Line.endsBody_eq, hends]
      | false =>
          obtain ⟨hopen', hstored'⟩ := takeItem_open hopen hstored strict number hends
          have hgrown := ih hopen' hstored' (number + 1) hrest
          rw [run]
          simpa [Line.endsBody_eq, hends] using hgrown

/-- After the last header of a name, the entity of that name has the members before the next line
that ends a body, whatever came before the header. -/
theorem run_lastHeader (strict : Bool) (number : Int) {before after : List String}
    {header : String} (hheader : Line.find? Form.header? header = some name)
    (hafter : name ∉ headerNames after) :
    (reader.run strict number (before ++ header :: after)).model.entities.get? name =
      some (Entity.ofBody name (after.takeWhile (!Line.endsBody ·))) := by
  rw [run_append, run]
  have hitem : ∃ text, Item.ofLine header = .known text (.header name) := by
    rw [Line.find?_header, Option.bind_eq_some_iff] at hheader
    obtain ⟨fragment, hfragment, hname⟩ := hheader
    rw [Fragment.header?_iff] at hname
    exact Item.fragment?_iff.1 (hname ▸ hfragment)
  obtain ⟨text, hitem⟩ := hitem
  rw [hitem]
  -- the header opens the body of an entity without members, from which the entity grows
  let entity : Entity := ⟨name, [], []⟩
  have hopen : ((reader.run strict number before).openBody entity).scope = .inBody entity := rfl
  have hgrown := run_open hopen (Table.get?_insert_self _ _ _) strict
    (number + before.length + 1) hafter
  rw [Entity.foldl_grow] at hgrown
  exact hgrown

/-! ## The keys -/

/-- An item adds the name in a header to the keys, if it is new, and no other item changes them. -/
theorem takeItem_keys (h : reader.Coherent) (strict : Bool) (number : Int) (item : Item) :
    (reader.takeItem strict number item).1.model.entities.keys =
      match item.fragment?.bind Fragment.header? with
      | some name =>
          if name ∈ reader.model.entities.keys then reader.model.entities.keys
          else reader.model.entities.keys ++ [name]
      | none => reader.model.entities.keys := by
  cases item with
  | skip | close => rfl
  | unknown text => simp [takeItem, Item.fragment?]
  | known text fragment =>
      cases fragment with
      | header name => exact Table.keys_insert _ _ _
      | relationship link | constraint rule => rfl
      | attr member | method member =>
          cases hscope : reader.scope with
          | topLevel => simp [takeItem, takeFragment, hscope, Item.fragment?, Fragment.header?]
          | inBody entity =>
              have hkey : entity.name ∈ reader.model.entities.keys :=
                Table.mem_keys_iff.2 ⟨entity, h.stored entity hscope⟩
              simp [takeItem, takeFragment, hscope, Item.fragment?, Fragment.header?, openBody,
                Table.keys_insert, hkey]

/-- A run adds the names in its header lines to the keys, in order and without those that are
already there. -/
theorem run_keys (h : reader.Coherent) (strict : Bool) (number : Int) (lines : List String) :
    (reader.run strict number lines).model.entities.keys =
      reader.model.entities.keys ++
        ((headerNames lines).filter (· ∉ reader.model.entities.keys)).eraseDups := by
  induction lines generalizing reader number with
  | nil => simp [run, headerNames]
  | cons raw rest ih =>
      have hstep := takeItem_keys h strict number (Item.ofLine raw)
      rw [← Line.find?_header] at hstep
      rw [run, ih (h.takeItem strict number raw) (number + 1)]
      cases hheader : Line.find? Form.header? raw with
      | none =>
          rw [hheader] at hstep
          rw [hstep]
          simp [headerNames, hheader]
      | some name =>
          rw [hheader] at hstep
          have hnames : headerNames (raw :: rest) = name :: headerNames rest := by
            simp [headerNames, hheader]
          rw [hstep, hnames]
          by_cases hkey : name ∈ reader.model.entities.keys
          · simp [hkey]
          · -- the name is new now and known for all lines behind it
            simp only [hkey, if_false, List.filter_cons, not_false_eq_true, decide_true, if_true,
              List.eraseDups_cons, List.filter_filter, List.append_assoc, List.singleton_append]
            congr 3
            apply List.filter_congr
            intro other _
            by_cases hother : other = name <;> simp [hother]

end Reader

/-! ## From runs to positions

Both kinds of position can be computed, so they can be tested. -/

variable {lines : List String} {name : String} {i j : Nat}

/-- A header line is the last of its name if the lines behind it do not name it. -/
theorem lastHeader_iff :
    LastHeader lines name i ↔ lines[i]?.bind (Line.find? Form.header?) = some name ∧
      name ∉ headerNames (lines.drop (i + 1)) := by
  rw [Option.bind_eq_some_iff]
  constructor
  · intro h
    refine ⟨h.header, ?_⟩
    intro hmem
    obtain ⟨raw, hraw, hname⟩ := List.mem_filterMap.1 hmem
    obtain ⟨k, hk⟩ := List.mem_iff_getElem?.1 hraw
    rw [List.getElem?_drop] at hk
    exact h.last (i + 1 + k) raw (by omega) hk hname
  · intro h
    refine ⟨h.1, ?_⟩
    intro k raw hik hk hname
    apply h.2
    refine List.mem_filterMap.2 ⟨raw, List.mem_iff_getElem?.2 ⟨k - (i + 1), ?_⟩, hname⟩
    rw [List.getElem?_drop, show i + 1 + (k - (i + 1)) = k by omega, hk]

/-- A body ends at the first line behind its header that ends a body. -/
theorem bodyEnd_iff :
    BodyEnd lines i j ↔ i < lines.length ∧
      j = i + 1 + (lines.drop (i + 1)).findIdx Line.endsBody := by
  constructor
  · intro h
    have hbehind := h.behind
    have hwithin := h.within
    refine ⟨by omega, ?_⟩
    have hlength : (lines.drop (i + 1)).length = lines.length - (i + 1) := List.length_drop
    suffices hfirst : (lines.drop (i + 1)).findIdx Line.endsBody = j - (i + 1) by omega
    by_cases hj : j = lines.length
    · -- no line ends the body
      rw [hj, ← hlength, List.findIdx_eq_length]
      intro raw hraw
      obtain ⟨k, hk⟩ := List.mem_iff_getElem?.1 hraw
      have hlt : i + 1 + k < lines.length := by
        have hlt := (List.getElem?_eq_some_iff.1 hk).1
        omega
      rw [List.getElem?_drop] at hk
      exact h.stays (i + 1 + k) raw (by omega) (by omega) hk
    · rw [List.findIdx_eq (by omega), List.getElem_drop]
      refine ⟨h.ends _ (List.getElem?_eq_some_iff.2 ⟨by omega, by congr 1; omega⟩), ?_⟩
      intro k hk
      rw [List.getElem_drop]
      exact h.stays (i + 1 + k) _ (by omega) (by omega) (List.getElem?_eq_getElem _)
  · intro h
    obtain ⟨hi, hj⟩ := h
    have hlength : (lines.drop (i + 1)).findIdx Line.endsBody ≤ (lines.drop (i + 1)).length :=
      List.findIdx_le_length
    rw [List.length_drop] at hlength
    refine ⟨by omega, by omega, ?_, ?_⟩
    · intro k raw hik hkj hk
      rw [show k = i + 1 + (k - (i + 1)) by omega, ← List.getElem?_drop] at hk
      obtain ⟨_, hraw⟩ := List.getElem?_eq_some_iff.1 hk
      rw [← hraw]
      exact List.not_of_lt_findIdx (by omega)
    · intro raw hraw
      rw [hj, ← List.getElem?_drop] at hraw
      exact List.findIdx_of_getElem?_eq_some hraw

instance : Decidable (LastHeader lines name i) := decidable_of_iff _ lastHeader_iff.symm

instance : Decidable (BodyEnd lines i j) := decidable_of_iff _ bodyEnd_iff.symm

/-- Every name in a header line has a last header line. -/
theorem exists_lastHeader (h : name ∈ headerNames lines) : ∃ i, LastHeader lines name i := by
  induction lines with
  | nil => simp [headerNames] at h
  | cons raw rest ih =>
      by_cases hrest : name ∈ headerNames rest
      · -- a later header line of the name stands one position further
        obtain ⟨i, hi⟩ := ih hrest
        rw [lastHeader_iff] at hi
        exact ⟨i + 1, lastHeader_iff.2 (by simpa using hi)⟩
      · -- otherwise the first line is the last header line of the name
        have hraw : Line.find? Form.header? raw = some name := by
          by_contra hraw
          exact not_mem_headerNames_cons.2 ⟨hraw, hrest⟩ h
        exact ⟨0, lastHeader_iff.2 ⟨hraw, hrest⟩⟩

/-- Lines with a header of a name are those before the last such header, the header, and lines
without a header of the name. -/
theorem exists_split_lastHeader (h : name ∈ headerNames lines) :
    ∃ before header after, lines = before ++ header :: after ∧
      Line.find? Form.header? header = some name ∧ name ∉ headerNames after := by
  obtain ⟨i, hi⟩ := exists_lastHeader h
  obtain ⟨header, hget, hheader⟩ := hi.header
  obtain ⟨hlt, hget⟩ := List.getElem?_eq_some_iff.1 hget
  refine ⟨lines.take i, header, lines.drop (i + 1), ?_, hheader, (lastHeader_iff.1 hi).2⟩
  rw [← hget, ← List.drop_eq_getElem_cons hlt, List.take_append_drop]

/-- The lines between a header and the end of its body are those before the first line that ends
the body. -/
theorem BodyEnd.takeWhile (h : BodyEnd lines i j) :
    (lines.drop (i + 1)).takeWhile (!Line.endsBody ·) = linesBetween lines i j := by
  rw [List.takeWhile_eq_take_findIdx_not, linesBetween, (bodyEnd_iff.1 h).2, List.drop_take]
  congr 1
  simp

/-! ## The meaning of the entities -/

/-- A line that means nothing to a body: it is skipped, or no form recognises it, or it is a
relationship or a constraint. -/
inductive Line.Passive (raw : String) : Prop where
  | skipped : Line.classify raw = .skip → Passive raw
  | unrecognised (text : String) : Line.classify raw = .content text →
      (∀ form : Form, form.recognise text = none) → Passive raw
  | relationship (link : Relationship) : Line.find? Form.relationship? raw = some link → Passive raw
  | constraint (rule : Constraint) : Line.find? Form.constraint? raw = some rule → Passive raw

/-- A line that means nothing to a body neither ends it nor is a member. -/
theorem Line.Passive.inert {raw : String} (h : Line.Passive raw) :
    Line.endsBody raw = false ∧ Line.find? Form.attr? raw = none ∧
      Line.find? Form.method? raw = none := by
  rw [Line.endsBody_eq, Line.find?_attr, Line.find?_method]
  cases h with
  | skipped hskip => simp [Item.ofLine, hskip, Item.endsBody, Item.fragment?]
  | unrecognised text htext hforms =>
      have hnone : Form.fragment? text = none := by
        cases hfragment : Form.fragment? text with
        | none => rfl
        | some fragment =>
            have hfound := Form.recognise_iff.2 ⟨hfragment, rfl⟩
            rw [hforms] at hfound
            cases hfound
      simp [Item.ofLine, htext, hnone, Item.endsBody, Item.fragment?]
  | relationship link hlink =>
      rw [Line.find?_relationship, Option.bind_eq_some_iff] at hlink
      obtain ⟨fragment, hitem, hlink⟩ := hlink
      rw [Fragment.relationship?_iff] at hlink
      obtain ⟨text, hitem⟩ := Item.fragment?_iff.1 hitem
      simp [hitem, hlink, Item.endsBody, Item.fragment?, Fragment.attr?, Fragment.method?]
  | constraint rule hrule =>
      rw [Line.find?_constraint, Option.bind_eq_some_iff] at hrule
      obtain ⟨fragment, hitem, hrule⟩ := hrule
      rw [Fragment.constraint?_iff] at hrule
      obtain ⟨text, hitem⟩ := Item.fragment?_iff.1 hitem
      simp [hitem, hrule, Item.endsBody, Item.fragment?, Fragment.attr?, Fragment.method?]

variable {ε : Type}

/-- The entities of a list of lines by positions. The keys are the names in the header lines, in
the order of their first occurrence and without duplicates. Each of them has a last header line,
at `i`, and a first line behind it that ends a body, at `j`. The entity has the attributes and the
methods that the two forms find between these positions, in order. All other lines that may stand
there mean nothing to the entity. -/
theorem entities_by_position (strict : Bool) (lines : List String) :
    ∃ model, (parse Grammar.standard strict (⟨lines, .finished⟩ : Source ε)).model? = .ok model ∧
      model.entities.keys = (headerNames lines).eraseDups ∧
      model.entities.keys.Nodup ∧
      (∀ name ∈ model.entities.keys, ∃ i j, LastHeader lines name i ∧ BodyEnd lines i j) ∧
      (∀ name i j, LastHeader lines name i → BodyEnd lines i j →
        model.entities.get? name = some (Entity.ofBody name (linesBetween lines i j))) ∧
      (∀ raw, Line.Passive raw → Line.endsBody raw = false ∧
        Line.find? Form.attr? raw = none ∧ Line.find? Form.method? raw = none) := by
  have hkeys : (modelOf strict lines).entities.keys = (headerNames lines).eraseDups := by
    have hrun := Reader.run_keys Reader.coherent_empty strict 1 lines
    simpa [modelOf, Table.keys] using hrun
  refine ⟨modelOf strict lines, parse_lines strict lines, hkeys,
    (Reader.coherent_empty.run strict 1 lines).distinct, ?_, ?_, fun _ h ↦ h.inert⟩
  · intro name hname
    rw [hkeys, List.mem_eraseDups] at hname
    obtain ⟨i, hi⟩ := exists_lastHeader hname
    obtain ⟨raw, hraw, _⟩ := hi.header
    exact ⟨i, _, hi, bodyEnd_iff.2 ⟨(List.getElem?_eq_some_iff.1 hraw).1, rfl⟩⟩
  · intro name i j hi hj
    obtain ⟨header, hget, hheader⟩ := hi.header
    obtain ⟨hlt, hget⟩ := List.getElem?_eq_some_iff.1 hget
    have hsplit : lines = lines.take i ++ header :: lines.drop (i + 1) := by
      rw [← hget, ← List.drop_eq_getElem_cons hlt, List.take_append_drop]
    rw [modelOf, ← hj.takeWhile]
    conv_lhs => rw [hsplit]
    exact Reader.run_lastHeader strict 1 hheader (lastHeader_iff.1 hi).2

/-- An entity that is declared again keeps its place, has the members of its last declaration only,
and loses its body to the next header. -/
theorem entities_by_position_redeclared :
    ∃ model,
      (parse Grammar.standard true (⟨["class A \x7b", "x : int", "class B \x7b", "class A \x7b",
        "y : int", "A -- B", "class B \x7b", "z : int"], .finished⟩ : Source Empty)).model? =
          .ok model ∧
      model.entities.keys = ["A", "B"] ∧
      model.entities.get? "A" = some ⟨"A", [⟨"y", "int"⟩], []⟩ := by
  obtain ⟨model, hmodel, hkeys, _, _, hentity, _⟩ :=
    @entities_by_position Empty true ["class A \x7b", "x : int", "class B \x7b", "class A \x7b",
      "y : int", "A -- B", "class B \x7b", "z : int"]
  refine ⟨model, hmodel, ?_, ?_⟩
  · rw [hkeys]
    decide
  · rw [hentity "A" 3 6 (by decide) (by decide)]
    decide

end ClassDiagram
