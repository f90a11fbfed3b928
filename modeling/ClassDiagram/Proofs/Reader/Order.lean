import ClassDiagram.Proofs.Form.Disjoint
import ClassDiagram.Source

/-!
# The order of the matchers does not matter

A content line of the standard grammar has at most one fragment, and that fragment alone decides
what a reader does with the line: `Reader.takeContent` says so without any order of matchers. A
reader that tries the matchers of each scope in another order, or the top matchers before those of
the open body, does the same.

To compare readers that treat content lines differently, `parseBy` reads a source with the rule for
content lines left open. With the rule of the reader itself it is `parse`.
-/

namespace ClassDiagram

open Form (fragment?)

/-! ## Matchers in any order -/

/-- Whether a fragment belongs into the body of an entity. -/
def Fragment.isMember : Fragment → Bool
  | .attr _ | .method _ => true
  | .header _ | .relationship _ | .constraint _ => false

/-- Matchers of some forms, in whatever order, find exactly the fragments of those forms. -/
theorem findFragment_iff {matchers : List Matcher} {forms : List Form}
    (h : matchers.Perm (forms.map Form.recognise)) {text : String} {fragment : Fragment} :
    findFragment matchers text = some fragment ↔
      fragment? text = some fragment ∧ fragment.form ∈ forms := by
  have hsound : ∀ found, findFragment matchers text = some found →
      fragment? text = some found ∧ found.form ∈ forms := by
    intro found hfound
    obtain ⟨matcher, hmem, hmatch⟩ := List.exists_of_findSome?_eq_some hfound
    obtain ⟨form, hform, rfl⟩ := List.mem_map.1 (h.mem_iff.1 hmem)
    obtain ⟨hfragment, hkind⟩ := Form.recognise_iff.1 hmatch
    exact ⟨hfragment, hkind ▸ hform⟩
  constructor
  · exact hsound fragment
  · intro hfragment
    have hmatch : fragment.form.recognise text = some fragment :=
      Form.recognise_iff.2 ⟨hfragment.1, rfl⟩
    have hmem : fragment.form.recognise ∈ matchers :=
      h.mem_iff.2 (List.mem_map_of_mem hfragment.2)
    -- the search finds something, and there is nothing else to be found
    cases hfind : findFragment matchers text with
    | none =>
        rw [findFragment, List.findSome?_eq_none_iff] at hfind
        simp [hfind _ hmem] at hmatch
    | some found => exact (hsound found hfind).1.symm.trans hfragment.1

/-- The grammar tries the matchers of the standard grammar, in whatever order within a scope. -/
structure Grammar.Rearranged (grammar : Grammar) : Prop where
  body : grammar.body.Perm Grammar.standard.body
  top : grammar.top.Perm Grammar.standard.top

theorem Grammar.Rearranged.standard : Grammar.standard.Rearranged := ⟨.rfl, .rfl⟩

variable {grammar : Grammar}

/-- Body matchers in any order find the fragment of a line if it is a member. -/
theorem Grammar.Rearranged.findFragment_body (h : grammar.Rearranged) (text : String) :
    findFragment grammar.body text = (fragment? text).filter (·.isMember) := by
  have hforms : grammar.body.Perm ([.attr, .method].map Form.recognise) := by
    simpa [Grammar.standard_eq] using h.body
  apply Option.ext
  intro fragment
  rw [findFragment_iff hforms, Option.filter_eq_some_iff]
  cases fragment <;> simp [Fragment.form, Fragment.isMember]

/-- Top matchers in any order find the fragment of a line if it is not a member. -/
theorem Grammar.Rearranged.findFragment_top (h : grammar.Rearranged) (text : String) :
    findFragment grammar.top text = (fragment? text).filter (!·.isMember) := by
  have hforms : grammar.top.Perm ([.header, .relationship, .constraint].map Form.recognise) := by
    simpa [Grammar.standard_eq] using h.top
  apply Option.ext
  intro fragment
  rw [findFragment_iff hforms, Option.filter_eq_some_iff]
  cases fragment <;> simp [Fragment.form, Fragment.isMember]

/-! ## What a content line does -/

namespace Reader

/-- What a reader does with a content line of the given fragment. A member goes into the open body
and has no place outside of one. Every other fragment goes into the model, whether a body is open
or not. -/
def takeFragment (strict : Bool) (reader : Reader) (number : Int) (text : String) :
    Fragment → Reader × List Event
  | .header name =>
      (reader.openBody ⟨name, [], []⟩,
        if reader.model.entities.contains name then [.redeclared name] else [])
  | .attr member =>
      match reader.scope with
      | .inBody entity =>
          (reader.openBody { entity with attributes := entity.attributes ++ [member] }, [])
      | .topLevel => reader.passOver strict number text
  | .method member =>
      match reader.scope with
      | .inBody entity =>
          (reader.openBody { entity with methods := entity.methods ++ [member] }, [])
      | .topLevel => reader.passOver strict number text
  | .relationship link =>
      ({ reader with model :=
        { reader.model with relationships := reader.model.relationships ++ [link] } }, [])
  | .constraint rule =>
      ({ reader with model :=
        { reader.model with constraints := reader.model.constraints ++ [rule] } }, [])

/-- What a reader does with a content line, told by the fragment of the line. -/
def takeContent (strict : Bool) (reader : Reader) (number : Int) (text : String) :
    Reader × List Event :=
  match fragment? text with
  | some fragment => reader.takeFragment strict number text fragment
  | none => reader.passOver strict number text

/-- Takes in one content line like `feedContent`, but tries the top matchers first. -/
def feedContentTopFirst (grammar : Grammar) (strict : Bool) (reader : Reader) (number : Int)
    (text : String) : Except Misplaced (Reader × List Event) :=
  match findFragment grammar.top text with
  | some fragment => reader.addTop fragment
  | none =>
    match reader.bodyMatch grammar text with
    | some (entity, fragment) => reader.addMember entity fragment
    | none => .ok (reader.passOver strict number text)

/-- A fragment that is no member is never refused by the model. -/
theorem addTop_eq {fragment : Fragment} (h : fragment.isMember = false) (strict : Bool)
    (reader : Reader) (number : Int) (text : String) :
    reader.addTop fragment = .ok (reader.takeFragment strict number text fragment) := by
  cases fragment with
  | header | relationship | constraint => rfl
  | attr | method => cases h

/-- A member is never refused by an open body. -/
theorem addMember_eq {fragment : Fragment} (h : fragment.isMember = true) (strict : Bool)
    {reader : Reader} {entity : Entity} (hscope : reader.scope = .inBody entity) (number : Int)
    (text : String) :
    reader.addMember entity fragment = .ok (reader.takeFragment strict number text fragment) := by
  cases fragment with
  | header | relationship | constraint => cases h
  | attr | method => simp [addMember, Entity.add?, takeFragment, hscope]

/-- A member has no place where no body is open. -/
theorem takeFragment_topLevel {fragment : Fragment} (h : fragment.isMember = true) (strict : Bool)
    {reader : Reader} (hscope : reader.scope = .topLevel) (number : Int) (text : String) :
    reader.takeFragment strict number text fragment = reader.passOver strict number text := by
  cases fragment with
  | header | relationship | constraint => cases h
  | attr | method => simp [takeFragment, hscope]

/-- Body matchers first: the fragment of the line decides. -/
theorem feedContent_eq (h : grammar.Rearranged) (strict : Bool) (reader : Reader) (number : Int)
    (text : String) :
    reader.feedContent grammar strict number text =
      .ok (reader.takeContent strict number text) := by
  unfold feedContent takeContent bodyMatch
  rw [h.findFragment_body, h.findFragment_top]
  cases fragment? text with
  | none => cases reader.scope <;> rfl
  | some fragment =>
      cases hmember : fragment.isMember with
      | false =>
          -- no body matcher finds the fragment, so the open body does not matter
          cases reader.scope <;>
            simp [Option.filter, hmember, addTop_eq hmember strict reader number text]
      | true =>
          cases hscope : reader.scope with
          | topLevel => simp [Option.filter, hmember, takeFragment_topLevel hmember strict hscope]
          | inBody entity =>
              simp [Option.filter, hmember, addMember_eq hmember strict hscope number text]

/-- Top matchers first: the fragment of the line decides. -/
theorem feedContentTopFirst_eq (h : grammar.Rearranged) (strict : Bool) (reader : Reader)
    (number : Int) (text : String) :
    reader.feedContentTopFirst grammar strict number text =
      .ok (reader.takeContent strict number text) := by
  unfold feedContentTopFirst takeContent bodyMatch
  rw [h.findFragment_body, h.findFragment_top]
  cases fragment? text with
  | none => cases reader.scope <;> rfl
  | some fragment =>
      cases hmember : fragment.isMember with
      | false => simp [Option.filter, hmember, addTop_eq hmember strict reader number text]
      | true =>
          cases hscope : reader.scope with
          | topLevel => simp [Option.filter, hmember, takeFragment_topLevel hmember strict hscope]
          | inBody entity =>
              simp [Option.filter, hmember, addMember_eq hmember strict hscope number text]

/-! ## Readers with another rule for content lines -/

/-- What a reader does with the numbered text of a content line. -/
abbrev ContentRule := Reader → Int → String → Except Misplaced (Reader × List Event)

/-- Takes in one raw line, a content line by the rule. -/
def feedBy (rule : ContentRule) (reader : Reader) (number : Int) (raw : String) :
    Except Misplaced (Reader × List Event) :=
  match Line.classify raw with
  | .skip => .ok (reader, [])
  | .close => .ok ({ reader with scope := .topLevel }, [])
  | .content text => rule reader number text

/-- Takes in lines by the rule, up to the first that is refused. -/
def feedAllBy (rule : ContentRule) (reader : Reader) (number : Int) :
    List String → Reading Misplaced
  | [] => { reader }
  | raw :: rest =>
    match reader.feedBy rule number raw with
    | .error refusal => { reader, halt := some refusal }
    | .ok (next, events) =>
      let reading := next.feedAllBy rule (number + 1) rest
      { reading with events := events ++ reading.events }

/-- With the rule of `feedContent`, lines are taken in as `feedAll` does. -/
theorem feedAllBy_feedContent (grammar : Grammar) (strict : Bool) (reader : Reader) (number : Int)
    (lines : List String) :
    reader.feedAllBy (feedContent grammar strict) number lines =
      reader.feedAll grammar strict number lines := by
  induction lines generalizing reader number with
  | nil => rfl
  | cons raw rest ih =>
      have hstep : reader.feedBy (feedContent grammar strict) number raw =
          reader.feed grammar strict number raw := rfl
      cases hfeed : reader.feed grammar strict number raw with
      | error refusal => simp only [feedAllBy, feedAll, hstep, hfeed]
      | ok result => simp only [feedAllBy, feedAll, hstep, hfeed, ih]

end Reader

variable {ε : Type}

/-- Reads a source from the start as `parse` does, but content lines by the rule. -/
def parseBy (rule : Reader.ContentRule) (source : Source ε) : Reading (Halt ε) :=
  let fed := ({} : Reader).feedAllBy rule 1 source.lines
  match fed.halt, source.ending with
  | some refusal, _ =>
    { reader := fed.reader, events := fed.events, halt := some (.misplaced refusal) }
  | none, .finished =>
    { reader := { fed.reader with scope := .topLevel }, events := fed.events }
  | none, .failed cause =>
    { reader := fed.reader, events := fed.events
      halt := some (.unreadable source.lines.length cause) }
  | none, .broken cause =>
    { reader := fed.reader, events := fed.events, halt := some (.broken cause) }

/-- Reads a source as `parse` does, but tries the top matchers before those of an open body. -/
def parseTopFirst (grammar : Grammar) (strict : Bool) (source : Source ε) : Reading (Halt ε) :=
  parseBy (Reader.feedContentTopFirst grammar strict) source

/-- With the rule of `feedContent`, sources are read as `parse` does. -/
theorem parseBy_feedContent (grammar : Grammar) (strict : Bool) (source : Source ε) :
    parseBy (Reader.feedContent grammar strict) source = parse grammar strict source := by
  have hfed := Reader.feedAllBy_feedContent grammar strict {} 1 source.lines
  cases hhalt : (({} : Reader).feedAll grammar strict 1 source.lines).halt with
  | some refusal => simp only [parseBy, parse, Reader.read, hfed, hhalt]
  | none =>
      cases hending : source.ending <;>
        simp only [parseBy, parse, Reader.read, hfed, hhalt, hending]

/-- No line has two forms. Hence matchers of the standard grammar may be tried in any order within
a scope, and those of the top before those of an open body, with the same reading of every source:
the same model, the same events and the same end. -/
theorem forms_exclusive_and_order_irrelevant :
    (∀ (line : String) (f g : Form), f ≠ g → f.recognise line = none ∨ g.recognise line = none) ∧
      ∀ (ε : Type) (grammar : Grammar), grammar.Rearranged →
        ∀ (strict : Bool) (source : Source ε),
          parse grammar strict source = parse Grammar.standard strict source ∧
            parseTopFirst grammar strict source = parse Grammar.standard strict source := by
  constructor
  · intro line f g hne
    cases hf : f.recognise line with
    | none => exact Or.inl rfl
    | some x =>
        cases hg : g.recognise line with
        | none => exact Or.inr rfl
        | some y => exact absurd (Form.recognise_unique hf hg) hne
  · intro ε grammar hgrammar strict source
    -- all three readers follow the one rule that knows of no order
    have hbody : ∀ other : Grammar, other.Rearranged → Reader.feedContent other strict =
        fun reader number text ↦ .ok (reader.takeContent strict number text) := by
      intro other hother
      funext reader number text
      exact Reader.feedContent_eq hother strict reader number text
    have htop : Reader.feedContentTopFirst grammar strict =
        fun reader number text ↦ .ok (reader.takeContent strict number text) := by
      funext reader number text
      exact Reader.feedContentTopFirst_eq hgrammar strict reader number text
    rw [← parseBy_feedContent grammar, ← parseBy_feedContent Grammar.standard, parseTopFirst,
      hbody Grammar.standard .standard, hbody grammar hgrammar, htop]
    exact ⟨rfl, rfl⟩

/-- The standard grammar with both scopes turned round, at a line that looks like a header and is a
relationship, inside an open body. -/
theorem order_irrelevant_reversed :
    let reversed : Grammar := ⟨Grammar.standard.body.reverse, Grammar.standard.top.reverse⟩
    let source : Source Unit := ⟨["class A", "class o X", "constraint o on : on"], .finished⟩
    (Form.recognise .header "class o X" = none ∨ Form.recognise .relationship "class o X" = none) ∧
      parse reversed true source = parse Grammar.standard true source ∧
        parseTopFirst reversed true source = parse Grammar.standard true source :=
  ⟨forms_exclusive_and_order_irrelevant.1 "class o X" .header .relationship (by decide),
    forms_exclusive_and_order_irrelevant.2 Unit _ ⟨List.reverse_perm _, List.reverse_perm _⟩ true
      _⟩

end ClassDiagram
