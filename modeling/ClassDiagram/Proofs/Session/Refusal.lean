import ClassDiagram.Proofs.Reader.Shared

/-!
# A refused line leaves no trace

A line is refused because of where a matcher offered its fragment, and `Refuses` gives the two
reasons without any word on what a reader does. `Reader.feed_error_iff` says that these are the
reasons.

With a refusal `Reader.feed` gives no new reader, so by its type alone nothing can have changed. A
live reader is changed in place, write by write and report by report, and what it has done before it
fails is not taken back. `LiveReader.run_feed` shows that it fails before its first write, and that
otherwise it does what `SharedReader.feed` does at once. So a live reader that has received what a
session delivered is the very same behind a refused line, and all further steps of the session give
the same results as without that line. This is `refused_line_leaves_no_trace`.
-/

namespace ClassDiagram

/-! ## The reasons to refuse a line -/

/-- The first of the matchers that accepts the text gives the fragment. -/
def FirstGives (matchers : List Matcher) (text : String) (fragment : Fragment) : Prop :=
  ∃ before matcher after, matchers = before ++ matcher :: after ∧
    (∀ other ∈ before, other text = none) ∧ matcher text = some fragment

/-- A raw line is refused: it is a content line, and the first matcher that accepts it gives a
fragment in the wrong place. -/
inductive Refuses (grammar : Grammar) (scope : Scope) (raw : String) : Misplaced → Prop where
  /-- A body is open, and the first body matcher that accepts the line gives something other than a
  member. -/
  | inBody (text entity fragment) : Line.classify raw = .content text →
      scope = .inBody entity → FirstGives grammar.body text fragment →
      fragment.isMember = false → Refuses grammar scope raw (.inBody fragment)
  /-- No body is open or all body matchers decline, and the first top matcher that accepts the line
  gives a member. -/
  | atTop (text fragment) : Line.classify raw = .content text →
      (scope = .topLevel ∨ ∀ matcher ∈ grammar.body, matcher text = none) →
      FirstGives grammar.top text fragment → fragment.isMember = true →
      Refuses grammar scope raw (.atTop fragment)

theorem findFragment_eq_some_iff {matchers : List Matcher} {text : String} {fragment : Fragment} :
    findFragment matchers text = some fragment ↔ FirstGives matchers text fragment := by
  rw [findFragment, List.findSome?_eq_some_iff]
  constructor
  · rintro ⟨before, matcher, after, hsplit, hgives, hbefore⟩
    exact ⟨before, matcher, after, hsplit, hbefore, hgives⟩
  · rintro ⟨before, matcher, after, hsplit, hbefore, hgives⟩
    exact ⟨before, matcher, after, hsplit, hgives, hbefore⟩

namespace Reader

variable {grammar : Grammar} {strict : Bool} {reader : Reader} {number : Int} {raw text : String}
  {refusal : Misplaced}

/-- An open body refuses exactly the fragments that are no members. -/
theorem addMember_error_iff {entity : Entity} {fragment : Fragment} :
    reader.addMember entity fragment = .error refusal ↔
      fragment.isMember = false ∧ .inBody fragment = refusal := by
  cases fragment <;> simp [addMember, Entity.add?, Fragment.isMember]

/-- The model refuses exactly the members. -/
theorem addTop_error_iff {fragment : Fragment} :
    reader.addTop fragment = .error refusal ↔
      fragment.isMember = true ∧ .atTop fragment = refusal := by
  cases fragment <;> simp [addTop, Fragment.isMember]

/-- Body matchers are not heard exactly if no body is open or all of them decline. -/
theorem bodyMatch_eq_none_iff :
    reader.bodyMatch grammar text = none ↔
      reader.scope = .topLevel ∨ ∀ matcher ∈ grammar.body, matcher text = none := by
  cases hscope : reader.scope with
  | topLevel => simp [bodyMatch, hscope]
  | inBody entity => simp [bodyMatch, hscope, findFragment]

theorem bodyMatch_eq_some_iff {entity : Entity} {fragment : Fragment} :
    reader.bodyMatch grammar text = some (entity, fragment) ↔
      reader.scope = .inBody entity ∧ FirstGives grammar.body text fragment := by
  rw [← findFragment_eq_some_iff]
  cases hscope : reader.scope with
  | topLevel => simp [bodyMatch, hscope]
  | inBody other => simp [bodyMatch, hscope, and_comm]

/-- A content line is refused by the place where its first accepting matcher is heard. -/
theorem feedContent_error_iff :
    reader.feedContent grammar strict number text = .error refusal ↔
      (∃ entity fragment, reader.bodyMatch grammar text = some (entity, fragment) ∧
        fragment.isMember = false ∧ .inBody fragment = refusal) ∨
      (reader.bodyMatch grammar text = none ∧ ∃ fragment, FirstGives grammar.top text fragment ∧
        fragment.isMember = true ∧ .atTop fragment = refusal) := by
  unfold feedContent
  cases hbody : reader.bodyMatch grammar text with
  | some found =>
      obtain ⟨entity, fragment⟩ := found
      simp [addMember_error_iff]
  | none =>
      simp only [← findFragment_eq_some_iff]
      cases htop : findFragment grammar.top text with
      | none => simp
      | some fragment => simp [addTop_error_iff]

/-- A line is refused exactly for one of the two reasons. -/
theorem feed_error_iff :
    reader.feed grammar strict number raw = .error refusal ↔
      Refuses grammar reader.scope raw refusal := by
  constructor
  · intro h
    unfold feed at h
    cases hline : Line.classify raw with
    | skip => simp [hline] at h
    | close => simp [hline] at h
    | content text =>
        simp only [hline, feedContent_error_iff] at h
        rcases h with ⟨entity, fragment, hbody, hmember, rfl⟩ |
          ⟨hbody, fragment, htop, hmember, rfl⟩
        · obtain ⟨hscope, hgives⟩ := bodyMatch_eq_some_iff.1 hbody
          exact .inBody text entity fragment hline hscope hgives hmember
        · exact .atTop text fragment hline (bodyMatch_eq_none_iff.1 hbody) htop hmember
  · intro h
    unfold feed
    cases h with
    | inBody text entity fragment hline hscope hgives hmember =>
        simp only [hline, feedContent_error_iff]
        exact Or.inl ⟨entity, fragment, bodyMatch_eq_some_iff.2 ⟨hscope, hgives⟩, hmember, rfl⟩
    | atTop text fragment hline hclosed hgives hmember =>
        simp only [hline, feedContent_error_iff]
        exact Or.inr ⟨bodyMatch_eq_none_iff.2 hclosed, fragment, hgives, hmember, rfl⟩

end Reader

/-! ## Live readers -/

/-- A reader that is changed in place, with the log of its reports. -/
structure LiveReader where
  shared : SharedReader := {}
  log : List Event := []

namespace LiveReader

/-- What is done to a live reader, one write after the other. If it fails, the earlier writes
stay. -/
abbrev Work := EStateM Misplaced LiveReader Unit

/-- Writes to the log. -/
def report (event : Event) : Work :=
  modify fun live ↦ { live with log := live.log ++ [event] }

/-- Writes to one part of the reader. -/
def write (change : SharedReader → SharedReader) : Work :=
  modify fun live ↦ { live with shared := change live.shared }

/-- Adds a member to the entity at the given place. -/
def addMember (place : Nat) : Fragment → Work
  | .attr member => write fun shared ↦
      let entity := shared.entityAt place
      shared.write place { entity with attributes := entity.attributes ++ [member] }
  | .method member => write fun shared ↦
      let entity := shared.entityAt place
      shared.write place { entity with methods := entity.methods ++ [member] }
  | fragment => throw (.inBody fragment)

/-- Adds a fragment to the model. A header makes its entity, stores it under its name and opens its
body. -/
def addTop : Fragment → Work
  | .header name => do
      let place := (← get).shared.store.length
      write fun shared ↦ { shared with store := shared.store ++ [⟨name, [], []⟩] }
      if (← get).shared.places.contains name then
        report (.redeclared name)
      write fun shared ↦ { shared with places := shared.places.insert name place }
      write fun shared ↦ { shared with opened := some place }
  | .relationship link => write fun shared ↦
      { shared with relationships := shared.relationships ++ [link] }
  | .constraint rule => write fun shared ↦
      { shared with constraints := shared.constraints ++ [rule] }
  | fragment => throw (.atTop fragment)

/-- Reports a line that nothing recognised, and keeps it in strict reading. -/
def passOver (strict : Bool) (number : Int) (text : String) : Work := do
  report (.unrecognised strict number text)
  if strict then
    write fun shared ↦ { shared with unmatched := shared.unmatched ++ [⟨number, text⟩] }

/-- Takes in one content line that no body matcher takes. -/
def feedTop (grammar : Grammar) (strict : Bool) (number : Int) (text : String) : Work :=
  match findFragment grammar.top text with
  | some fragment => addTop fragment
  | none => passOver strict number text

/-- Takes in one raw line with its number. -/
def feed (grammar : Grammar) (strict : Bool) (number : Int) (raw : String) : Work :=
  match Line.classify raw with
  | .skip => pure ()
  | .close => write fun shared ↦ { shared with opened := none }
  | .content text => do
      match (← get).shared.opened with
      | none => feedTop grammar strict number text
      | some place =>
          match findFragment grammar.body text with
          | some fragment => addMember place fragment
          | none => feedTop grammar strict number text

/-- The live reader that some work leaves behind, whether or not it failed. -/
def after (work : Work) (live : LiveReader) : LiveReader :=
  match work.run live with
  | .ok _ next => next
  | .error _ next => next

/-- Receives one delivery. -/
def receive (grammar : Grammar) (strict : Bool) (live : LiveReader) : Delivery → LiveReader
  | .line number raw => live.after (feed grammar strict number raw)
  | .finish => live.after (write fun shared ↦ { shared with opened := none })

/-- Receives deliveries in order. -/
def receiveAll (grammar : Grammar) (strict : Bool) (live : LiveReader)
    (deliveries : List Delivery) : LiveReader :=
  deliveries.foldl (receive grammar strict) live

/-- How work ends that has the given result all at once: with its writes and its reports, or with a
refusal and as it began. -/
def settle (live : LiveReader) :
    Except Misplaced (SharedReader × List Event) → EStateM.Result Misplaced LiveReader Unit
  | .ok (next, events) => .ok () ⟨next, live.log ++ events⟩
  | .error refusal => .error refusal live

variable {grammar : Grammar} {strict : Bool} {number : Int} {raw : String}

@[simp] theorem run_report (live : LiveReader) (event : Event) :
    (report event).run live = .ok () { live with log := live.log ++ [event] } :=
  rfl

@[simp] theorem run_write (live : LiveReader) (change : SharedReader → SharedReader) :
    (write change).run live = .ok () { live with shared := change live.shared } :=
  rfl

theorem run_addMember (live : LiveReader) (place : Nat) (fragment : Fragment) :
    (addMember place fragment).run live = live.settle (live.shared.addMember place fragment) := by
  cases fragment with
  | header | relationship | constraint => rfl
  | attr | method => simp [addMember, settle, SharedReader.addMember, Entity.add?]

theorem run_addTop (live : LiveReader) (fragment : Fragment) :
    (addTop fragment).run live = live.settle (live.shared.addTop fragment) := by
  cases fragment with
  | attr | method => rfl
  | relationship | constraint => simp [addTop, settle, SharedReader.addTop]
  | header name =>
      cases hname : live.shared.places.contains name <;>
        simp [addTop, settle, SharedReader.addTop, SharedReader.declare, hname]

theorem run_passOver (live : LiveReader) (strict : Bool) (number : Int) (text : String) :
    (passOver strict number text).run live =
      live.settle (.ok (live.shared.passOver strict number text)) := by
  cases strict <;> rfl

theorem run_feedTop (live : LiveReader) (grammar : Grammar) (strict : Bool) (number : Int)
    (text : String) :
    (feedTop grammar strict number text).run live =
      live.settle
        (match findFragment grammar.top text with
        | some fragment => live.shared.addTop fragment
        | none => .ok (live.shared.passOver strict number text)) := by
  unfold feedTop
  cases findFragment grammar.top text with
  | none => exact run_passOver live strict number text
  | some fragment => exact run_addTop live fragment

/-- A live reader takes in a line as a shared reader does, all at once. If the line is refused, then
before the first write. -/
theorem run_feed (live : LiveReader) (grammar : Grammar) (strict : Bool) (number : Int)
    (raw : String) :
    (feed grammar strict number raw).run live =
      live.settle (live.shared.feed grammar strict number raw) := by
  unfold feed SharedReader.feed
  cases Line.classify raw with
  | skip => simp [settle]
  | close => simp [settle]
  | content text =>
      simp only [SharedReader.feedContent, SharedReader.bodyMatch, EStateM.run_bind,
        EStateM.run_get]
      cases live.shared.opened with
      | none => exact run_feedTop live grammar strict number text
      | some place =>
          cases findFragment grammar.body text with
          | none => exact run_feedTop live grammar strict number text
          | some fragment => exact run_addMember live place fragment

/-! ## Live readers and sessions -/

/-- A live reader is sound, shows the reader and has the log. -/
structure Shows (live : LiveReader) (reader : Reader) (log : List Event) : Prop where
  sound : live.shared.Sound
  view_eq : live.shared.view = reader
  log_eq : live.log = log

theorem shows_empty : ({} : LiveReader).Shows {} [] := ⟨SharedReader.sound_empty, rfl, rfl⟩

variable {live : LiveReader} {reader next : Reader} {log events : List Event}
  {refusal : Misplaced}

/-- The shared reader of a live reader takes in a line as the reader does that it shows. -/
theorem Shows.feed_eq (h : live.Shows reader log) (grammar : Grammar) (strict : Bool)
    (number : Int) (raw : String) :
    (live.shared.feed grammar strict number raw).map SharedReader.viewResult =
      reader.feed grammar strict number raw := by
  rw [SharedReader.view_feed h.sound, h.view_eq]

/-- A line that the reader takes in has the same effect on the live reader. -/
theorem Shows.run_feed_ok (h : live.Shows reader log)
    (hfeed : reader.feed grammar strict number raw = .ok (next, events)) :
    ∃ later, (feed grammar strict number raw).run live = .ok () later ∧
      later.Shows next (log ++ events) := by
  rw [← h.feed_eq] at hfeed
  cases hshared : live.shared.feed grammar strict number raw with
  | error refusal =>
      rw [hshared] at hfeed
      cases hfeed
  | ok result =>
      rw [hshared] at hfeed
      cases hfeed
      refine ⟨⟨result.1, live.log ++ result.2⟩, ?_, h.sound.feed hshared, rfl, ?_⟩
      · rw [run_feed, hshared]
        rfl
      · rw [h.log_eq]

/-- A line that the reader refuses is refused by the live reader, which is left as it was. -/
theorem Shows.run_feed_error (h : live.Shows reader log)
    (hfeed : reader.feed grammar strict number raw = .error refusal) :
    (feed grammar strict number raw).run live = .error refusal live := by
  rw [← h.feed_eq] at hfeed
  cases hshared : live.shared.feed grammar strict number raw with
  | ok result =>
      rw [hshared] at hfeed
      cases hfeed
  | error other =>
      rw [hshared] at hfeed
      cases hfeed
      rw [run_feed, hshared]
      rfl

theorem Shows.receive_ok (h : live.Shows reader log)
    (hfeed : reader.feed grammar strict number raw = .ok (next, events)) :
    (live.receive grammar strict (.line number raw)).Shows next (log ++ events) := by
  obtain ⟨later, hrun, hshows⟩ := h.run_feed_ok hfeed
  simp only [receive, after, hrun]
  exact hshows

theorem Shows.receive_error (h : live.Shows reader log)
    (hfeed : reader.feed grammar strict number raw = .error refusal) :
    live.receive grammar strict (.line number raw) = live := by
  simp only [receive, after, h.run_feed_error hfeed]

theorem Shows.receive_finish (h : live.Shows reader log) (grammar : Grammar) (strict : Bool) :
    (live.receive grammar strict .finish).Shows { reader with scope := .topLevel } log := by
  refine ⟨h.sound.congr rfl rfl (Or.inr rfl), ?_, h.log_eq⟩
  rw [← h.view_eq]
  rfl

/-- Lines up to the first that is refused have the same effect on the reader and the live reader. -/
theorem Shows.feedAll (h : live.Shows reader log) (grammar : Grammar) (strict : Bool)
    (number : Int) (lines : List String) :
    (live.receiveAll grammar strict
        (numbered number (reader.upToRefused grammar strict number lines))).Shows
      (reader.feedAll grammar strict number lines).reader
      (log ++ (reader.feedAll grammar strict number lines).events) := by
  induction lines generalizing live reader log number with
  | nil => simpa [Reader.upToRefused, Reader.feedAll, numbered, receiveAll] using h
  | cons raw rest ih =>
      cases hfeed : reader.feed grammar strict number raw with
      | error refusal =>
          simp only [Reader.upToRefused, Reader.feedAll, hfeed, numbered, receiveAll,
            List.foldl_cons, List.foldl_nil, h.receive_error hfeed, List.append_nil]
          exact h
      | ok result =>
          simp only [Reader.upToRefused, Reader.feedAll, hfeed, numbered, ← List.append_assoc]
          exact ih (h.receive_ok hfeed) (number + 1)

end LiveReader

namespace Session

variable {ε : Type}

/-- What the steps of a session did, in order. -/
def results (session : Session ε) : List Step → List (StepResult ε)
  | [] => []
  | step :: rest => session.step step :: (session.step step).session.results rest

/-- All that the steps of a session reported, in order. -/
def log (session : Session ε) (steps : List Step) : List Event :=
  (session.results steps).flatMap (·.events)

theorem results_append (session : Session ε) (first second : List Step) :
    session.results (first ++ second) =
      session.results first ++ (session.run first).results second := by
  induction first generalizing session with
  | nil => rfl
  | cons step rest ih =>
      simp only [List.cons_append, results, ih]
      rfl

theorem length_results (session : Session ε) (steps : List Step) :
    (session.results steps).length = steps.length := by
  induction steps generalizing session with
  | nil => rfl
  | cons step rest ih => simp [results, ih]

theorem run_append (session : Session ε) (first second : List Step) :
    session.run (first ++ second) = (session.run first).run second :=
  List.foldl_append

/-- A step that leaves the session as it is makes no difference to the steps behind it. -/
theorem idle_step {session : Session ε} {steps : List Step} {step : Step}
    (h : ((session.run steps).step step).session = session.run steps) (more : List Step) :
    session.run (steps ++ step :: more) = session.run (steps ++ more) ∧
      (session.results (steps ++ step :: more)).eraseIdx steps.length =
        session.results (steps ++ more) := by
  constructor
  · rw [run_append, run_append]
    show ((session.run steps).step step).session.run more = _
    rw [h]
  · have hlength : (session.results steps).length ≤ steps.length :=
      Nat.le_of_eq (length_results session steps)
    rw [results_append, results_append, List.eraseIdx_append_of_length_le hlength, length_results,
      Nat.sub_self, results, List.eraseIdx_cons_zero, h]

/-- If such a step reports nothing, then nothing is missing in the log without it. -/
theorem log_idle_step {session : Session ε} {steps : List Step} {step : Step}
    (h : ((session.run steps).step step).session = session.run steps)
    (hsilent : ((session.run steps).step step).events = []) (more : List Step) :
    session.log (steps ++ step :: more) = session.log (steps ++ more) := by
  simp only [log, results_append, results, h, hsilent, List.flatMap_append, List.flatMap_cons,
    List.nil_append]

theorem feed_of_error {session : Session ε} {number : Int} {raw : String} {refusal : Misplaced}
    (h : session.reader.feed session.grammar session.strict number raw = .error refusal) :
    session.feed number raw = { session, fault := some (.halted (.misplaced refusal)) } := by
  simp only [feed, h]

theorem feed_of_ok {session : Session ε} {number : Int} {raw : String}
    {result : Reader × List Event}
    (h : session.reader.feed session.grammar session.strict number raw = .ok result) :
    session.feed number raw =
      { session := { session with reader := result.1 }, events := result.2 } := by
  simp only [feed, h]

/-- The first reading of the source has the same effect on the reader and on a live reader. -/
theorem shows_parse {session : Session ε} {live : LiveReader} {log : List Event}
    (hnew : session.consumed = false) (h : live.Shows session.reader log) :
    (live.receiveAll session.grammar session.strict session.sourceDeliveries).Shows
      session.parse.session.reader (log ++ session.parse.events) := by
  have hlines := h.feedAll session.grammar session.strict 1 session.source.lines
  rw [sourceDeliveries, LiveReader.receiveAll, List.foldl_append]
  simp only [parse, hnew, Bool.false_eq_true, if_false, Option.isNone_map, Reader.read]
  cases (session.reader.feedAll session.grammar session.strict 1 session.source.lines).halt with
  | some refusal => exact hlines
  | none =>
      cases session.source.ending with
      | finished => exact hlines.receive_finish session.grammar session.strict
      | failed cause => exact hlines
      | broken cause => exact hlines

/-- One step has the same effect on the reader and on a live reader. -/
theorem shows_step {session : Session ε} {live : LiveReader} {log : List Event}
    (h : live.Shows session.reader log) (step : Step) :
    (live.receiveAll session.grammar session.strict (session.deliveries [step])).Shows
      (session.step step).session.reader (log ++ (session.step step).events) := by
  cases step with
  | feed number raw =>
      show (live.receive session.grammar session.strict (.line number raw)).Shows
        (session.feed number raw).session.reader (log ++ (session.feed number raw).events)
      unfold feed
      cases hfeed : session.reader.feed session.grammar session.strict number raw with
      | ok result => exact h.receive_ok hfeed
      | error refusal =>
          rw [h.receive_error hfeed, List.append_nil]
          exact h
  | parse =>
      show (live.receiveAll session.grammar session.strict (session.deliveries [.parse])).Shows
        session.parse.session.reader (log ++ session.parse.events)
      cases hconsumed : session.consumed with
      | true =>
          rw [parse_of_consumed hconsumed, List.append_nil, deliveries, if_pos hconsumed]
          exact h
      | false =>
          rw [deliveries, hconsumed, deliveries, List.append_nil]
          exact shows_parse hconsumed h

/-- A live reader that receives what the steps of a session deliver shows the reader of the session
and has its log. -/
theorem shows_run (session : Session ε) {live : LiveReader} {log : List Event}
    (h : live.Shows session.reader log) (steps : List Step) :
    (live.receiveAll session.grammar session.strict (session.deliveries steps)).Shows
      (session.run steps).reader (log ++ session.log steps) := by
  induction steps generalizing session live log with
  | nil => simpa [deliveries, LiveReader.receiveAll, run, Session.log, results] using h
  | cons step rest ih =>
      have hstep : (session.step step).session.grammar = session.grammar ∧
          (session.step step).session.strict = session.strict := by
        have hrun : (session.step step).session = _ := run_eq session [step]
        rw [hrun]
        exact ⟨rfl, rfl⟩
      have hrest := ih (session.step step).session (shows_step h step)
      rw [hstep.1, hstep.2] at hrest
      have hdeliveries := deliveries_append session [step] rest
      rw [List.singleton_append] at hdeliveries
      rw [hdeliveries, LiveReader.receiveAll, List.foldl_append, Session.log, results,
        List.flatMap_cons, ← List.append_assoc]
      exact hrest

end Session

variable {ε : Type}

/-- After any steps of a session with any matchers, feeding a line fails exactly if the line is
refused for one of the two reasons, and then with that refusal. A live reader that received what the
session delivered shows the same model and the same scope and has the same log. It ends the refused
line as it began it, and so does the session. Whatever steps follow, the session ends as if the line
had never been fed, has the same log, and every other step has the same result. A line that is not
refused is taken in by both in the same way. -/
theorem refused_line_leaves_no_trace (grammar : Grammar) (strict : Bool) (source : Source ε)
    (steps : List Step) (number : Int) (raw : String) :
    let start : Session ε := { grammar, strict, source }
    let session := start.run steps
    let live := ({} : LiveReader).receiveAll grammar strict (start.deliveries steps)
    let result := session.step (.feed number raw)
    live.Shows session.reader (start.log steps) ∧
    (∀ fault, result.fault = some fault ↔
      ∃ refusal, Refuses grammar session.reader.scope raw refusal ∧
        fault = .halted (.misplaced refusal)) ∧
    (∀ refusal, Refuses grammar session.reader.scope raw refusal →
      (LiveReader.feed grammar strict number raw).run live = .error refusal live ∧
      result.session = session ∧ result.events = [] ∧
      ∀ more,
        let others := steps ++ more
        let all := steps ++ .feed number raw :: more
        start.run all = start.run others ∧ start.log all = start.log others ∧
          (start.results all).eraseIdx steps.length = start.results others) ∧
    ((∀ refusal, ¬ Refuses grammar session.reader.scope raw refusal) →
      ∃ next, (LiveReader.feed grammar strict number raw).run live = .ok () next ∧
        next.Shows result.session.reader (start.log steps ++ result.events)) := by
  intro start session live result
  have hshows : live.Shows session.reader (start.log steps) :=
    start.shows_run LiveReader.shows_empty steps
  have hsession : session.grammar = grammar ∧ session.strict = strict := by
    have hrun : session = _ := Session.run_eq start steps
    rw [hrun]
    exact ⟨rfl, rfl⟩
  -- the reader of the session refuses the line for the given reasons
  have hrefuses : ∀ refusal, Refuses grammar session.reader.scope raw refusal ↔
      session.reader.feed session.grammar session.strict number raw = .error refusal := by
    intro refusal
    rw [Reader.feed_error_iff, hsession.1]
  refine ⟨hshows, ?_, ?_, ?_⟩
  · intro fault
    simp only [hrefuses]
    cases hfeed : session.reader.feed session.grammar session.strict number raw with
    | ok taken =>
        have hresult : result = _ := Session.feed_of_ok hfeed
        simp [hresult]
    | error refusal =>
        have hresult : result = _ := Session.feed_of_error hfeed
        simp [hresult, eq_comm]
  · intro refusal hrefused
    rw [hrefuses] at hrefused
    have hresult : result = _ := Session.feed_of_error hrefused
    have hsame : result.session = session := by rw [hresult]
    have hsilent : result.events = [] := by rw [hresult]
    rw [hsession.1, hsession.2] at hrefused
    refine ⟨hshows.run_feed_error hrefused, hsame, hsilent, ?_⟩
    intro more others all
    obtain ⟨hrun, hresults⟩ := Session.idle_step hsame more
    exact ⟨hrun, Session.log_idle_step hsame hsilent more, hresults⟩
  · intro htaken
    cases hfeed : session.reader.feed session.grammar session.strict number raw with
    | error refusal => exact absurd ((hrefuses refusal).2 hfeed) (htaken refusal)
    | ok taken =>
        have hresult : result = _ := Session.feed_of_ok hfeed
        rw [hsession.1, hsession.2] at hfeed
        rw [hresult]
        exact hshows.run_feed_ok hfeed

/-- A body matcher takes one mark for a header, and a top matcher takes another one for a member.
Both are refused while a body is open. The session ends as without the first and has the log that it
has without the second. -/
theorem refused_line_leaves_no_trace_marked :
    let header : Matcher := fun text ↦ if text = "!" then some (.header "B") else none
    let member : Matcher := fun text ↦ if text = "?" then some (.attr ⟨"p", "q"⟩) else none
    let grammar : Grammar :=
      ⟨header :: Grammar.standard.body, Grammar.standard.top ++ [member]⟩
    let source : Source Unit := ⟨["x : int"], .failed ()⟩
    let start : Session Unit := { grammar, strict := true, source }
    let steps : List Step := [.feed 1 "class A", .feed 2 "noise"]
    ((start.run steps).step (.feed 3 " ! ")).fault =
        some (.halted (.misplaced (.inBody (.header "B")))) ∧
      ((start.run steps).step (.feed 3 "?")).fault =
        some (.halted (.misplaced (.atTop (.attr ⟨"p", "q"⟩)))) ∧
      start.run (steps ++ .feed 3 " ! " :: [.parse]) = start.run (steps ++ [.parse]) ∧
      start.log (steps ++ .feed 3 "?" :: [.parse]) = [.unrecognised true 2 "noise"] := by
  intro header member grammar source start steps
  have hopen : (start.run steps).reader.scope = .inBody ⟨"A", [], []⟩ := by decide
  obtain ⟨-, hfault, hrefused, -⟩ :=
    refused_line_leaves_no_trace grammar true source steps 3 " ! "
  obtain ⟨-, hfault', hrefused', -⟩ :=
    refused_line_leaves_no_trace grammar true source steps 3 "?"
  have hbody : Refuses grammar (start.run steps).reader.scope " ! " (.inBody (.header "B")) :=
    .inBody "!" _ _ (by decide) hopen ⟨[], header, _, rfl, by simp, by decide⟩ rfl
  have htop : Refuses grammar (start.run steps).reader.scope "?" (.atTop (.attr ⟨"p", "q"⟩)) :=
    .atTop "?" _ (by decide) (Or.inr (by decide)) ⟨_, member, [], rfl, by decide, by decide⟩ rfl
  obtain ⟨-, -, -, hmore⟩ := hrefused _ hbody
  obtain ⟨-, -, -, hmore'⟩ := hrefused' _ htop
  refine ⟨(hfault _).2 ⟨_, hbody, rfl⟩, (hfault' _).2 ⟨_, htop, rfl⟩, (hmore [.parse]).1, ?_⟩
  rw [(hmore' [.parse]).2.1]
  decide

end ClassDiagram
