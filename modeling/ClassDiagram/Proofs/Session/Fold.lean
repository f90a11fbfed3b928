import ClassDiagram.Proofs.Reader.Run
import ClassDiagram.Session

/-!
# A session is one fold over its lines

Whatever steps a session takes, its reader has received one sequence of deliveries
(`Session.run_eq`): the lines that were fed directly, and at the first reading of the source the
lines of the source up to the first that is refused, with the end of the source behind them if it
was reached.

`Reader.Reads` says what the first reading delivers and what stops it, for each way in which a
source can stop and for a line that is refused. A refused line brings no change and nothing behind
it is asked for, so neither the lines behind it nor the way in which the source would have stopped
make any difference.
-/

namespace ClassDiagram

/-! ## Deliveries -/

/-- What is delivered to the reader of a session. -/
inductive Delivery where
  | line (number : Int) (raw : String)
  | finish
deriving DecidableEq, Repr

/-- Deliveries of lines that are numbered from `number` on. -/
def numbered (number : Int) : List String → List Delivery
  | [] => []
  | raw :: rest => .line number raw :: numbered (number + 1) rest

namespace Reader

section

variable (grammar : Grammar) (strict : Bool)

/-- Receives one delivery. A line that is refused changes nothing, and the end of the source closes
the open body. -/
def receive (reader : Reader) : Delivery → Reader
  | .line number raw =>
      match reader.feed grammar strict number raw with
      | .ok (next, _) => next
      | .error _ => reader
  | .finish => { reader with scope := .topLevel }

/-- Receives deliveries in order. -/
def receiveAll (reader : Reader) (deliveries : List Delivery) : Reader :=
  deliveries.foldl (receive grammar strict) reader

/-- The lines up to the first that is refused, with that line. -/
def upToRefused (reader : Reader) (number : Int) : List String → List String
  | [] => []
  | raw :: rest =>
    match reader.feed grammar strict number raw with
    | .error _ => [raw]
    | .ok (next, _) => raw :: next.upToRefused (number + 1) rest

/-- None of the lines is refused when they are taken in in order, numbered from `number` on. -/
def TakesAll (reader : Reader) (number : Int) (lines : List String) : Prop :=
  ∀ k raw, lines[k]? = some raw → ∃ result,
    (reader.receiveAll grammar strict (numbered number (lines.take k))).feed grammar strict
      (number + k) raw = .ok result

/-- At position `k` stands the first of the lines that is refused, for the given reason. -/
structure RefusesAt (reader : Reader) (number : Int) (lines : List String) (k : Nat)
    (refusal : Misplaced) : Prop where
  before : reader.TakesAll grammar strict number (lines.take k)
  refused : ∃ raw, lines[k]? = some raw ∧
    (reader.receiveAll grammar strict (numbered number (lines.take k))).feed grammar strict
      (number + k) raw = .error refusal

/-- What the first reading of a source delivers to a reader, and what stops it. The source delivers
the lines and then ends by itself or raises an error. -/
inductive Reads {ε : Type} (kinds : ErrorKinds ε) (reader : Reader) (lines : List String)
    (raised : Option ε) : List Delivery → Option (Halt ε) → Prop where
  /-- All lines are taken in and the source ends, by itself or with an error that says so. -/
  | ends : reader.TakesAll grammar strict 1 lines →
      (∀ error, raised = some error → kinds.stops error = true) →
      Reads kinds reader lines raised (numbered 1 lines ++ [.finish]) none
  | unreadable (error : ε) : reader.TakesAll grammar strict 1 lines → raised = some error →
      kinds.stops error = false → kinds.system error = true ∨ kinds.value error = true →
      Reads kinds reader lines raised (numbered 1 lines)
        (some (.unreadable lines.length error))
  | broken (error : ε) : reader.TakesAll grammar strict 1 lines → raised = some error →
      kinds.stops error = false → kinds.system error = false → kinds.value error = false →
      Reads kinds reader lines raised (numbered 1 lines) (some (.broken error))
  /-- A line is refused, and those before it are taken in. -/
  | refused (k : Nat) (refusal : Misplaced) : reader.RefusesAt grammar strict 1 lines k refusal →
      Reads kinds reader lines raised (numbered 1 (lines.take (k + 1)))
        (some (.misplaced refusal))

end

variable {grammar : Grammar} {strict : Bool} {reader next : Reader} {number : Int} {raw : String}
  {lines rest : List String} {events : List Event} {refusal : Misplaced} {k : Nat}

theorem receive_ok (h : reader.feed grammar strict number raw = .ok (next, events)) :
    reader.receive grammar strict (.line number raw) = next := by
  simp only [receive, h]

theorem receive_error (h : reader.feed grammar strict number raw = .error refusal) :
    reader.receive grammar strict (.line number raw) = reader := by
  simp only [receive, h]

theorem receiveAll_append (first second : List Delivery) :
    reader.receiveAll grammar strict (first ++ second) =
      (reader.receiveAll grammar strict first).receiveAll grammar strict second :=
  List.foldl_append

/-- Taking in lines up to the first that is refused is receiving these lines. -/
theorem receiveAll_upToRefused (grammar : Grammar) (strict : Bool) (reader : Reader)
    (number : Int) (lines : List String) :
    reader.receiveAll grammar strict
        (numbered number (reader.upToRefused grammar strict number lines)) =
      (reader.feedAll grammar strict number lines).reader := by
  induction lines generalizing reader number with
  | nil => rfl
  | cons raw rest ih =>
      cases hfeed : reader.feed grammar strict number raw with
      | error refusal =>
          simp only [upToRefused, feedAll, hfeed]
          exact receive_error hfeed
      | ok result =>
          simp only [upToRefused, feedAll, hfeed]
          rw [numbered, receiveAll, List.foldl_cons, receive_ok hfeed]
          exact ih result.1 (number + 1)

/-! ## The first line that is refused -/

/-- Where the first line is taken in, what is received behind it is received by the next reader. -/
theorem feed_behind (h : reader.feed grammar strict number raw = .ok (next, events)) (k : Nat)
    (line : String) :
    (reader.receiveAll grammar strict (numbered number ((raw :: rest).take (k + 1)))).feed grammar
        strict (number + (k + 1 : Nat)) line =
      (next.receiveAll grammar strict (numbered (number + 1) (rest.take k))).feed grammar strict
        (number + 1 + k) line := by
  have hnumber : number + ((k + 1 : Nat) : Int) = number + 1 + k := by omega
  rw [List.take_succ_cons, numbered, receiveAll, List.foldl_cons, receive_ok h, hnumber]
  rfl

/-- No line is refused exactly if the first is not, and none behind it is refused from there on. -/
theorem takesAll_cons :
    reader.TakesAll grammar strict number (raw :: rest) ↔
      ∃ next events, reader.feed grammar strict number raw = .ok (next, events) ∧
        next.TakesAll grammar strict (number + 1) rest := by
  constructor
  · intro h
    obtain ⟨⟨next, events⟩, hfeed⟩ := h 0 raw rfl
    rw [Int.natCast_zero, Int.add_zero] at hfeed
    refine ⟨next, events, hfeed, ?_⟩
    intro k line hline
    rw [← feed_behind hfeed]
    exact h (k + 1) line hline
  · rintro ⟨next, events, hfeed, hrest⟩ k line hline
    cases k with
    | zero =>
        cases hline
        rw [Int.natCast_zero, Int.add_zero]
        exact ⟨(next, events), hfeed⟩
    | succ k =>
        rw [feed_behind hfeed]
        exact hrest k line hline

/-- A line behind a first one that is taken in is refused as it is refused from there on. -/
theorem refusesAt_cons (h : reader.feed grammar strict number raw = .ok (next, events)) :
    reader.RefusesAt grammar strict number (raw :: rest) (k + 1) refusal ↔
      next.RefusesAt grammar strict (number + 1) rest k refusal := by
  constructor
  · rintro ⟨hbefore, line, hline, hrefused⟩
    rw [List.take_succ_cons, takesAll_cons] at hbefore
    obtain ⟨next', events', hfeed, hbefore⟩ := hbefore
    rw [h, Except.ok.injEq, Prod.mk.injEq] at hfeed
    rw [feed_behind h] at hrefused
    exact ⟨hfeed.1 ▸ hbefore, line, hline, hrefused⟩
  · rintro ⟨hbefore, line, hline, hrefused⟩
    rw [← feed_behind h] at hrefused
    exact ⟨takesAll_cons.2 ⟨next, events, h, hbefore⟩, line, hline, hrefused⟩

/-- The first line is refused if the reader refuses it as it is. -/
theorem refusesAt_zero :
    reader.RefusesAt grammar strict number (raw :: rest) 0 refusal ↔
      reader.feed grammar strict number raw = .error refusal := by
  constructor
  · rintro ⟨-, line, hline, hrefused⟩
    cases hline
    rw [Int.natCast_zero, Int.add_zero] at hrefused
    exact hrefused
  · intro h
    refine ⟨fun k line hline ↦ by simp at hline, raw, rfl, ?_⟩
    rw [Int.natCast_zero, Int.add_zero]
    exact h

/-- Of some lines, either none is refused or one is the first. -/
theorem takesAll_or_refusesAt (grammar : Grammar) (strict : Bool) (reader : Reader) (number : Int)
    (lines : List String) :
    reader.TakesAll grammar strict number lines ∨
      ∃ k refusal, reader.RefusesAt grammar strict number lines k refusal := by
  induction lines generalizing reader number with
  | nil => exact Or.inl fun k raw hraw ↦ by simp at hraw
  | cons raw rest ih =>
      cases hfeed : reader.feed grammar strict number raw with
      | error refusal => exact Or.inr ⟨0, refusal, refusesAt_zero.2 hfeed⟩
      | ok result =>
          rcases ih result.1 (number + 1) with hall | ⟨k, refusal, hrefused⟩
          · exact Or.inl (takesAll_cons.2 ⟨result.1, result.2, hfeed, hall⟩)
          · exact Or.inr ⟨k + 1, refusal, (refusesAt_cons hfeed).2 hrefused⟩

/-- If no line is refused, all lines are delivered and nothing stops the reader. -/
theorem upToRefused_of_takesAll (h : reader.TakesAll grammar strict number lines) :
    reader.upToRefused grammar strict number lines = lines ∧
      (reader.feedAll grammar strict number lines).halt = none := by
  induction lines generalizing reader number with
  | nil => exact ⟨rfl, rfl⟩
  | cons raw rest ih =>
      obtain ⟨next, events, hfeed, hrest⟩ := takesAll_cons.1 h
      obtain ⟨hlines, hhalt⟩ := ih hrest
      simp only [upToRefused, feedAll, hfeed]
      exact ⟨by rw [hlines], hhalt⟩

/-- If a line is refused, no line behind it is delivered, and the refusal stops the reader. -/
theorem upToRefused_of_refusesAt (h : reader.RefusesAt grammar strict number lines k refusal) :
    reader.upToRefused grammar strict number lines = lines.take (k + 1) ∧
      (reader.feedAll grammar strict number lines).halt = some refusal := by
  induction lines generalizing reader number k with
  | nil =>
      obtain ⟨raw, hraw, -⟩ := h.refused
      simp at hraw
  | cons raw rest ih =>
      cases k with
      | zero =>
          have hfeed := refusesAt_zero.1 h
          simp [upToRefused, feedAll, hfeed]
      | succ k =>
          have hbefore := h.before
          rw [List.take_succ_cons, takesAll_cons] at hbefore
          obtain ⟨next, events, hfeed, -⟩ := hbefore
          obtain ⟨hlines, hhalt⟩ := ih ((refusesAt_cons hfeed).1 h)
          simp only [upToRefused, feedAll, hfeed]
          exact ⟨by rw [hlines, List.take_succ_cons], hhalt⟩

/-- Every source is read in one of the ways. -/
theorem exists_reads {ε : Type} (grammar : Grammar) (strict : Bool) (kinds : ErrorKinds ε)
    (reader : Reader) (lines : List String) (raised : Option ε) :
    ∃ deliveries halt, Reads grammar strict kinds reader lines raised deliveries halt := by
  rcases takesAll_or_refusesAt grammar strict reader 1 lines with hall | ⟨k, refusal, hrefused⟩
  · cases raised with
    | none => exact ⟨_, _, .ends hall fun error herror ↦ by cases herror⟩
    | some error =>
        cases hstops : kinds.stops error with
        | true => exact ⟨_, _, .ends hall fun other hother ↦ by cases hother; exact hstops⟩
        | false =>
            cases hsystem : kinds.system error with
            | true => exact ⟨_, _, .unreadable error hall rfl hstops (Or.inl hsystem)⟩
            | false =>
                cases hvalue : kinds.value error with
                | true => exact ⟨_, _, .unreadable error hall rfl hstops (Or.inr hvalue)⟩
                | false => exact ⟨_, _, .broken error hall rfl hstops hsystem hvalue⟩
  · exact ⟨_, _, .refused k refusal hrefused⟩

end Reader

/-! ## Sessions -/

/-- The lines that are fed directly among the steps of a session, in order. -/
def fedDirectly : List Step → List Delivery
  | [] => []
  | .feed number raw :: rest => .line number raw :: fedDirectly rest
  | .parse :: rest => fedDirectly rest

namespace Session

variable {ε : Type}

/-- The session after some steps. -/
def run (session : Session ε) (steps : List Step) : Session ε :=
  steps.foldl (fun session step ↦ (session.step step).session) session

/-- What reading the source delivers: its lines up to the first that is refused, and its end if that
is reached. -/
def sourceDeliveries (session : Session ε) : List Delivery :=
  numbered 1 (session.reader.upToRefused session.grammar session.strict 1 session.source.lines) ++
    if session.parse.fault.isNone then [.finish] else []

/-- What steps deliver to the reader of a session. -/
def deliveries (session : Session ε) : List Step → List Delivery
  | [] => []
  | .feed number raw :: rest =>
    .line number raw :: (session.feed number raw).session.deliveries rest
  | .parse :: rest =>
    (if session.consumed then [] else session.sourceDeliveries) ++
      session.parse.session.deliveries rest

/-- A line that is fed directly is delivered to the reader, and nothing else changes. -/
theorem session_feed (session : Session ε) (number : Int) (raw : String) :
    (session.feed number raw).session =
      { session with reader :=
        session.reader.receive session.grammar session.strict (.line number raw) } := by
  unfold feed
  cases h : session.reader.feed session.grammar session.strict number raw with
  | ok result => rw [Reader.receive_ok h]
  | error refusal => rw [Reader.receive_error h]

/-- A source that has been read is not read again, and the attempt changes nothing. -/
theorem parse_of_consumed {session : Session ε} (h : session.consumed = true) :
    session.parse = { session, fault := some .alreadyRead } := by
  rw [parse, if_pos h]

/-- The first reading of the source uses it up. The reader receives what the source delivers. -/
theorem session_parse {session : Session ε} (h : session.consumed = false) :
    session.parse.session =
      { session with
        reader := session.reader.receiveAll session.grammar session.strict session.sourceDeliveries
        consumed := true } := by
  have hlines := Reader.receiveAll_upToRefused session.grammar session.strict session.reader 1
    session.source.lines
  rw [sourceDeliveries, Reader.receiveAll_append, hlines]
  simp only [parse, h, Bool.false_eq_true, if_false, Option.isNone_map, Reader.read]
  cases (session.reader.feedAll session.grammar session.strict 1 session.source.lines).halt with
  | some refusal => rfl
  | none => cases session.source.ending <;> rfl

/-- The reader of a session receives what its steps deliver, and the source is used up once it was
read. Nothing else changes. -/
theorem run_eq (session : Session ε) (steps : List Step) :
    session.run steps =
      { session with
        reader :=
          session.reader.receiveAll session.grammar session.strict (session.deliveries steps)
        consumed := session.consumed || decide (.parse ∈ steps) } := by
  induction steps generalizing session with
  | nil => simp [run, deliveries, Reader.receiveAll]
  | cons step rest ih =>
      cases step with
      | feed number raw =>
          show (session.feed number raw).session.run rest = _
          rw [ih, deliveries, session_feed]
          simp [Reader.receiveAll]
      | parse =>
          show session.parse.session.run rest = _
          rw [ih, deliveries, Reader.receiveAll_append]
          cases hconsumed : session.consumed with
          | true => simp [parse_of_consumed hconsumed, hconsumed, Reader.receiveAll]
          | false => simp [session_parse hconsumed]

theorem deliveries_append (session : Session ε) (first second : List Step) :
    session.deliveries (first ++ second) =
      session.deliveries first ++ (session.run first).deliveries second := by
  induction first generalizing session with
  | nil => rfl
  | cons step rest ih =>
      cases step with
      | feed number raw =>
          rw [List.cons_append, deliveries, ih, deliveries, List.cons_append]
          rfl
      | parse =>
          rw [List.cons_append, deliveries, ih, deliveries, List.append_assoc]
          rfl

/-- Steps that do not read the source deliver the lines that they feed, and nothing else. -/
theorem deliveries_direct {session : Session ε} {steps : List Step}
    (h : session.consumed = true ∨ .parse ∉ steps) :
    session.deliveries steps = fedDirectly steps := by
  induction steps generalizing session with
  | nil => rfl
  | cons step rest ih =>
      cases step with
      | feed number raw =>
          rw [deliveries, fedDirectly, ih]
          rw [session_feed]
          exact h.imp_right fun hrest ↦ mt (List.mem_cons_of_mem _) hrest
      | parse =>
          have hconsumed : session.consumed = true := h.resolve_right (by simp)
          rw [deliveries, fedDirectly, if_pos hconsumed, parse_of_consumed hconsumed,
            ih (Or.inl hconsumed)]
          rfl

/-- The first reading of the source delivers what `Reads` says, and reports what stopped it. -/
theorem sourceDeliveries_of_reads {session : Session ε} {kinds : ErrorKinds ε}
    {lines : List String} {raised : Option ε} {deliveries : List Delivery}
    {halt : Option (Halt ε)} (hnew : session.consumed = false)
    (hsource : session.source = .delivering kinds lines raised)
    (h : Reader.Reads session.grammar session.strict kinds session.reader lines raised deliveries
      halt) :
    session.sourceDeliveries = deliveries ∧ session.parse.fault = halt.map .halted := by
  cases h with
  | ends hall hstops =>
      obtain ⟨hlines, hhalt⟩ := Reader.upToRefused_of_takesAll hall
      have hending : (Source.delivering kinds lines raised).ending = .finished := by
        cases raised with
        | none => rfl
        | some error => simp [Source.delivering, Ending.ofError, hstops error rfl]
      have hfault : session.parse.fault = none := by
        simp only [parse, hnew, hsource, Reader.read, hending]
        simp [Source.delivering, hhalt]
      refine ⟨?_, hfault⟩
      simp [sourceDeliveries, hfault, hsource, Source.delivering, hlines]
  | unreadable error hall hraised hstops hkind =>
      obtain ⟨hlines, hhalt⟩ := Reader.upToRefused_of_takesAll hall
      simp [sourceDeliveries, parse, hnew, hsource, Reader.read, Source.delivering, Ending.ofError,
        hraised, hstops, hkind, hhalt, hlines]
  | broken error hall hraised hstops hsystem hvalue =>
      obtain ⟨hlines, hhalt⟩ := Reader.upToRefused_of_takesAll hall
      simp [sourceDeliveries, parse, hnew, hsource, Reader.read, Source.delivering, Ending.ofError,
        hraised, hstops, hsystem, hvalue, hhalt, hlines]
  | refused k refusal hrefused =>
      obtain ⟨hlines, hhalt⟩ := Reader.upToRefused_of_refusesAt hrefused
      simp [sourceDeliveries, parse, hnew, hsource, Reader.read, Source.delivering, hhalt, hlines]

end Session

variable {ε : Type}

/-- Whatever steps a session takes, its reader has received one sequence of deliveries, in which a
refused line changes nothing. Before the source is read, these are the lines that were fed directly.
The first reading adds what `Reader.Reads` says: the lines of the source, numbered from one and up
to the first that is refused, and the end of the source only where it was reached. That reading
reports what stopped it, and any further attempt to read only reports that the source was read
before. -/
theorem session_is_fold (grammar : Grammar) (strict : Bool) (kinds : ErrorKinds ε)
    (lines : List String) (raised : Option ε) :
    let start : Session ε := { grammar, strict, source := .delivering kinds lines raised }
    (∀ steps, .parse ∉ steps →
      (start.run steps).reader = ({} : Reader).receiveAll grammar strict (fedDirectly steps)) ∧
    ∀ before, .parse ∉ before →
      let reader := ({} : Reader).receiveAll grammar strict (fedDirectly before)
      (∃ deliveries halt, reader.Reads grammar strict kinds lines raised deliveries halt) ∧
      ∀ deliveries halt, reader.Reads grammar strict kinds lines raised deliveries halt →
        ((start.run before).step .parse).fault = halt.map .halted ∧
        ∀ after,
          let session := start.run (before ++ .parse :: after)
          session.reader = ({} : Reader).receiveAll grammar strict
              (fedDirectly before ++ deliveries ++ fedDirectly after) ∧
            session.step .parse = { session, fault := some .alreadyRead } := by
  intro start
  refine ⟨?_, ?_⟩
  · intro steps hsteps
    rw [Session.run_eq, Session.deliveries_direct (Or.inr hsteps)]
  · intro before hbefore reader
    have hstart : start.run before = { start with reader } := by
      rw [Session.run_eq, Session.deliveries_direct (Or.inr hbefore)]
      simp [hbefore, start, reader]
    refine ⟨Reader.exists_reads grammar strict kinds reader lines raised, ?_⟩
    intro deliveries halt hreads
    have hnew : (start.run before).consumed = false := by rw [hstart]
    obtain ⟨hdeliveries, hfault⟩ := Session.sourceDeliveries_of_reads hnew
      (by rw [hstart]) (by rw [hstart]; exact hreads)
    refine ⟨hfault, ?_⟩
    intro after session
    have hconsumed : (start.run before).parse.session.consumed = true := by
      rw [Session.session_parse hnew]
    have hall : start.deliveries (before ++ .parse :: after) =
        fedDirectly before ++ deliveries ++ fedDirectly after := by
      rw [Session.deliveries_append, Session.deliveries_direct (Or.inr hbefore),
        Session.deliveries, hnew, hdeliveries, Session.deliveries_direct (Or.inl hconsumed),
        List.append_assoc]
      rfl
    refine ⟨?_, Session.parse_of_consumed ?_⟩
    · show (start.run (before ++ .parse :: after)).reader = _
      rw [Session.run_eq, hall]
    · show (start.run (before ++ .parse :: after)).consumed = true
      simp [Session.run_eq]

/-- The source fails behind two lines while a body is open. The failure is reported with the number
of lines, the body stays open, and a line that is fed afterwards still goes into it. -/
theorem session_is_fold_failing :
    let kinds : ErrorKinds String := ⟨(· == "stop"), (· == "system"), (· == "value")⟩
    let start : Session String :=
      { grammar := Grammar.standard, strict := true
        source := .delivering kinds ["class A \x7b", " x : int"] (some "system") }
    ((start.run [.feed 7 "class B"]).step .parse).fault =
        some (.halted (.unreadable 2 "system")) ∧
      (start.run [.feed 7 "class B", .parse, .feed 9 "y : int"]).reader.scope =
        .inBody ⟨"A", [⟨"x", "int"⟩, ⟨"y", "int"⟩], []⟩ := by
  intro kinds start
  obtain ⟨-, hread⟩ := session_is_fold Grammar.standard true kinds ["class A \x7b", " x : int"]
    (some "system")
  obtain ⟨-, hreads⟩ := hread [.feed 7 "class B"] (by decide)
  have htakes : (({} : Reader).receiveAll Grammar.standard true [.line 7 "class B"]).TakesAll
      Grammar.standard true 1 ["class A \x7b", " x : int"] :=
    fun k raw _ ↦ ⟨_, Reader.feed_standard _ _ _ _⟩
  obtain ⟨hfault, hafter⟩ :=
    hreads _ _ (.unreadable "system" htakes rfl (by decide) (Or.inl (by decide)))
  obtain ⟨hreader, -⟩ := hafter [.feed 9 "y : int"]
  refine ⟨hfault, ?_⟩
  rw [show [Step.feed 7 "class B", .parse, .feed 9 "y : int"] =
    [.feed 7 "class B"] ++ .parse :: [.feed 9 "y : int"] from rfl, hreader]
  decide

end ClassDiagram
