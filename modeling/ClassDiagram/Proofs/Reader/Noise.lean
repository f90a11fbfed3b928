import ClassDiagram.Proofs.Reader.Account

/-!
# Lines that do nothing

A line is noise at its place if it is skipped, if it is a closing brace where no body is open, or if
it is dropped (`Reader.Ignores`). Whether a line is noise depends on the reader that meets it: the
same text is a member in a body and noise outside of one.

Noise can be taken out of a list of lines, and lines to skip can be put in. Both change the numbers
of the other lines. The proof runs the two lists in step, and relates a reader of the one to a
reader of the other by what becomes of the number of a line: it gets another number, or it is gone
(`Reader.renumber`). A line with a new number does the same to both readers
(`Reader.takeItem_renumber`), and noise that is gone leaves no trace (`Reader.takeItem_ignored`).
-/

namespace ClassDiagram

/-! ## Noise -/

/-- A reader passes over a line and stays as it is, but for an unmatched line that it may keep. -/
inductive Reader.Ignores (grammar : Grammar) (reader : Reader) (raw : String) : Prop where
  | skip : Line.classify raw = .skip → Ignores grammar reader raw
  /-- The line is a closing brace, and no body is open. -/
  | close : Line.classify raw = .close → reader.scope = .topLevel → Ignores grammar reader raw
  /-- No matcher that is tried recognises the line. -/
  | dropped (text : String) : Line.classify raw = .content text →
      reader.bodyMatch grammar text = none → findFragment grammar.top text = none →
      Ignores grammar reader raw

/-- A reader takes in noise without a change, or passes over it. -/
theorem Reader.feed_ignored {grammar : Grammar} {reader : Reader} {raw : String}
    (h : reader.Ignores grammar raw) (strict : Bool) (number : Int) :
    reader.feed grammar strict number raw = .ok (reader, []) ∨
      ∃ text, reader.feed grammar strict number raw = .ok (reader.passOver strict number text) := by
  unfold feed
  cases h with
  | skip hline =>
      rw [hline]
      exact Or.inl rfl
  | close hline hscope =>
      rw [hline, ← hscope]
      exact Or.inl rfl
  | dropped text hline hbody htop =>
      rw [hline]
      simp only [feedContent, hbody, htop]
      exact Or.inr ⟨text, rfl⟩

/-! ## New numbers for lines -/

/-- An unmatched line with the new number of its line, unless the line is gone. -/
def UnmatchedLine.renumber (ρ : Int → Option Int) (line : UnmatchedLine) : Option UnmatchedLine :=
  (ρ line.number).map fun number ↦ { line with number }

/-- An event with the new number of the line that it reports, unless the line is gone. -/
def Event.renumber (ρ : Int → Option Int) : Event → Option Event
  | unrecognised strict number text => (ρ number).map fun number ↦ .unrecognised strict number text
  | redeclared name => some (.redeclared name)
  | parsed path entities relationships constraints =>
      some (.parsed path entities relationships constraints)
  | undeclared input name => some (.undeclared input name)
  | wrote path => some (.wrote path)

namespace Reader

/-- A reader with new numbers for its unmatched lines. -/
def renumber (ρ : Int → Option Int) (reader : Reader) : Reader :=
  { reader with model :=
    { reader.model with unmatched := reader.model.unmatched.filterMap (·.renumber ρ) } }

variable (ρ : Int → Option Int) (reader : Reader) (strict : Bool) {number number' : Int}

/-- A line that gets a new number is passed over as before. -/
theorem passOver_renumber (h : ρ number = some number') (text : String) :
    (reader.renumber ρ).passOver strict number' text =
      ((reader.passOver strict number text).1.renumber ρ,
        (reader.passOver strict number text).2.filterMap (·.renumber ρ)) := by
  cases strict with
  | false => simp [passOver, Event.renumber, h]
  | true => simp [passOver, renumber, UnmatchedLine.renumber, Event.renumber, h]

/-- A line that gets a new number does the same as before. -/
theorem takeItem_renumber (h : ρ number = some number') (item : Item) :
    (reader.renumber ρ).takeItem strict number' item =
      ((reader.takeItem strict number item).1.renumber ρ,
        (reader.takeItem strict number item).2.filterMap (·.renumber ρ)) := by
  have hscope : (reader.renumber ρ).scope = reader.scope := rfl
  cases item with
  | skip | close => rfl
  | unknown text => exact passOver_renumber ρ reader strict h text
  | known text fragment =>
      cases fragment with
      | header name =>
          refine Prod.ext rfl ?_
          show (if reader.model.entities.contains name then [Event.redeclared name] else []) =
            (if reader.model.entities.contains name then [Event.redeclared name] else []).filterMap
              (·.renumber ρ)
          cases reader.model.entities.contains name <;> rfl
      | relationship link | constraint rule => rfl
      | attr member | method member =>
          cases hopen : reader.scope with
          | topLevel =>
              simp only [takeItem, takeFragment, hscope, hopen]
              exact passOver_renumber ρ reader strict h text
          | inBody entity =>
              simp only [takeItem, takeFragment, hscope, hopen]
              rfl

variable {ρ} {reader}

/-- Noise that is gone leaves no trace. -/
theorem takeItem_ignored {raw : String} (h : reader.Ignores Grammar.standard raw)
    (hgone : ρ number = none) :
    (reader.takeItem strict number (Item.ofLine raw)).1.renumber ρ = reader.renumber ρ ∧
      (reader.takeItem strict number (Item.ofLine raw)).2.filterMap (·.renumber ρ) = [] := by
  have hfeed := feed_ignored h strict number
  rw [feed_standard] at hfeed
  rcases hfeed with hsame | ⟨text, hpass⟩
  · rw [Except.ok.inj hsame]
    exact ⟨rfl, rfl⟩
  · rw [Except.ok.inj hpass]
    cases strict with
    | false => simp [passOver, Event.renumber, hgone]
    | true => simp [passOver, renumber, UnmatchedLine.renumber, Event.renumber, hgone]

end Reader

/-! ## Lines taken out -/

/-- The lines without those at the deleted positions. -/
def withoutLines (deleted : Nat → Bool) (lines : List String) : List String :=
  (lines.zipIdx.filter fun entry ↦ !deleted entry.2).map (·.1)

/-- The number of deleted positions before a position. -/
def deletedBefore (deleted : Nat → Bool) (i : Nat) : Nat := (List.range i).countP deleted

/-- The number of a line after the deletion, if it is not deleted itself. The first line has the
number one. -/
def numberWithout (deleted : Nat → Bool) (number : Int) : Option Int :=
  let i := (number - 1).toNat
  if deleted i then none else some (number - deletedBefore deleted i)

section Deletion

variable (deleted : Nat → Bool) (strict : Bool) (lines : List String) (raw : String)

theorem withoutLines_concat :
    withoutLines deleted (lines ++ [raw]) =
      withoutLines deleted lines ++ if deleted lines.length then [] else [raw] := by
  rw [withoutLines, List.zipIdx_append, List.filter_append, List.map_append, ← withoutLines]
  cases h : deleted lines.length <;> simp [h]

theorem deletedBefore_succ (i : Nat) :
    deletedBefore deleted (i + 1) = deletedBefore deleted i + if deleted i then 1 else 0 := by
  simp [deletedBefore, List.range_succ, List.countP_append, List.countP_singleton]

/-- Every line is deleted or stays. -/
theorem length_withoutLines :
    (withoutLines deleted lines).length + deletedBefore deleted lines.length = lines.length := by
  induction lines using List.reverseRecOn with
  | nil => rfl
  | append_singleton lines raw ih =>
      rw [withoutLines_concat, List.length_append, List.length_append, List.length_singleton,
        deletedBefore_succ]
      cases deleted lines.length <;> simp <;> omega

/-- A line that stays stands behind the lines before it that stay. -/
theorem numberWithout_length (h : deleted lines.length = false) :
    numberWithout deleted (lines.length + 1) =
      some (((withoutLines deleted lines).length : Int) + 1) := by
  have hlength := length_withoutLines deleted lines
  have hposition : ((lines.length : Int) + 1 - 1).toNat = lines.length := by omega
  simp only [numberWithout, hposition, h, Bool.false_eq_true, if_false, Option.some.injEq]
  omega

variable {lines}

/-- Without some of its noise, a list of lines gives the same reader and the same events, but for
the numbers. -/
theorem run_withoutLines
    (h : ∀ i raw, lines[i]? = some raw → deleted i = true →
      (({} : Reader).run strict 1 (lines.take i)).Ignores Grammar.standard raw) :
    ({} : Reader).run strict 1 (withoutLines deleted lines) =
        (({} : Reader).run strict 1 lines).renumber (numberWithout deleted) ∧
      eventsOf strict (withoutLines deleted lines) =
        (eventsOf strict lines).filterMap (·.renumber (numberWithout deleted)) := by
  induction lines using List.reverseRecOn with
  | nil => exact ⟨rfl, rfl⟩
  | append_singleton lines raw ih =>
      -- what comes before a position does not depend on the line at the end
      have hbefore : ∀ i raw', lines[i]? = some raw' → deleted i = true →
          (({} : Reader).run strict 1 (lines.take i)).Ignores Grammar.standard raw' := by
        intro i raw' hraw hdeleted
        have hlt := (List.getElem?_eq_some_iff.1 hraw).1
        have hnoise := h i raw' (by rw [List.getElem?_append_left hlt, hraw]) hdeleted
        rwa [List.take_append_of_le_length (Nat.le_of_lt hlt)] at hnoise
      obtain ⟨hreader, hevents⟩ := ih hbefore
      rw [withoutLines_concat, Reader.run_concat, eventsOf_concat, List.filterMap_append]
      cases hdeleted : deleted lines.length with
      | true =>
          have hnoise : (({} : Reader).run strict 1 lines).Ignores Grammar.standard raw := by
            have hlast := h lines.length raw (by simp) hdeleted
            rwa [List.take_left] at hlast
          have hgone : numberWithout deleted (lines.length + 1) = none := by
            simp [numberWithout, hdeleted]
          obtain ⟨hsame, hnone⟩ := Reader.takeItem_ignored strict hnoise hgone
          rw [if_pos rfl, List.append_nil, hsame, hnone, List.append_nil]
          exact ⟨hreader, hevents⟩
      | false =>
          have hnumber := numberWithout_length deleted lines hdeleted
          have hstep := Reader.takeItem_renumber (numberWithout deleted)
            (({} : Reader).run strict 1 lines) strict hnumber (Item.ofLine raw)
          rw [if_neg Bool.false_ne_true, Reader.run_concat, eventsOf_concat, hreader, hevents,
            hstep]
          exact ⟨rfl, rfl⟩

end Deletion

/-! ## Lines put in -/

/-- The lines with further lines in front of each of them. -/
def insertBefore (inserted : Nat → List String) (lines : List String) : List String :=
  lines.zipIdx.flatMap fun entry ↦ inserted entry.2 ++ [entry.1]

/-- The lines with further lines in front of each of them, and behind the last. -/
def withLines (inserted : Nat → List String) (lines : List String) : List String :=
  insertBefore inserted lines ++ inserted lines.length

/-- The number of lines that are inserted in front of the first `count` positions. -/
def insertedBefore (inserted : Nat → List String) (count : Nat) : Nat :=
  ((List.range count).flatMap inserted).length

/-- The number of a line after the insertion. The line with number `n` stands behind what is
inserted in front of the first `n` positions. -/
def numberWith (inserted : Nat → List String) (number : Int) : Int :=
  number + insertedBefore inserted number.toNat

section Insertion

variable {inserted : Nat → List String} (strict : Bool) (lines : List String)

/-- Lines to skip at the end change nothing. -/
theorem run_append_skips {skips : List String}
    (h : ∀ raw ∈ skips, Line.classify raw = .skip) :
    ({} : Reader).run strict 1 (lines ++ skips) = ({} : Reader).run strict 1 lines ∧
      eventsOf strict (lines ++ skips) = eventsOf strict lines := by
  induction skips using List.reverseRecOn with
  | nil => simp
  | append_singleton skips raw ih =>
      obtain ⟨hreader, hevents⟩ := ih fun raw' hraw' ↦ h raw' (List.mem_append_left _ hraw')
      have hitem : Item.ofLine raw = .skip := by
        rw [Item.ofLine, h raw (by simp)]
      rw [← List.append_assoc, Reader.run_concat, eventsOf_concat, hitem, hreader, hevents]
      exact ⟨rfl, List.append_nil _⟩

theorem insertedBefore_succ (inserted : Nat → List String) (count : Nat) :
    insertedBefore inserted (count + 1) =
      insertedBefore inserted count + (inserted count).length := by
  simp [insertedBefore, List.range_succ]

theorem insertBefore_concat (raw : String) :
    insertBefore inserted (lines ++ [raw]) =
      insertBefore inserted lines ++ inserted lines.length ++ [raw] := by
  rw [insertBefore, List.zipIdx_append, List.flatMap_append, ← insertBefore, List.append_assoc]
  simp

theorem length_insertBefore :
    (insertBefore inserted lines).length = lines.length + insertedBefore inserted lines.length := by
  induction lines using List.reverseRecOn with
  | nil => rfl
  | append_singleton lines raw ih =>
      rw [insertBefore_concat, List.length_append, List.length_append, List.length_append,
        List.length_singleton, ih, insertedBefore_succ]
      omega

/-- With further lines to skip, a list of lines gives the same reader and the same events, but for
the numbers. -/
theorem run_withLines (h : ∀ i, ∀ raw ∈ inserted i, Line.classify raw = .skip) :
    ({} : Reader).run strict 1 (withLines inserted lines) =
        (({} : Reader).run strict 1 lines).renumber (fun n ↦ some (numberWith inserted n)) ∧
      eventsOf strict (withLines inserted lines) =
        (eventsOf strict lines).filterMap (·.renumber fun n ↦ some (numberWith inserted n)) := by
  obtain ⟨hreader, hevents⟩ :=
    run_append_skips strict (insertBefore inserted lines) (h lines.length)
  rw [withLines, hreader, hevents]
  clear hreader hevents
  induction lines using List.reverseRecOn with
  | nil => exact ⟨rfl, rfl⟩
  | append_singleton lines raw ih =>
      obtain ⟨hreader, hevents⟩ := ih
      obtain ⟨hskips, hskips'⟩ :=
        run_append_skips strict (insertBefore inserted lines) (h lines.length)
      have hlength : ((insertBefore inserted lines ++ inserted lines.length).length : Int) + 1 =
          numberWith inserted (lines.length + 1) := by
        have hcount : ((lines.length : Int) + 1).toNat = lines.length + 1 := by omega
        rw [List.length_append, length_insertBefore, numberWith, hcount, insertedBefore_succ]
        omega
      have hstep := Reader.takeItem_renumber (fun n ↦ some (numberWith inserted n))
        (({} : Reader).run strict 1 lines) strict (Eq.refl (some (numberWith inserted
          (lines.length + 1)))) (Item.ofLine raw)
      rw [insertBefore_concat, Reader.run_concat, eventsOf_concat, hlength, hskips, hskips',
        hreader, hevents, hstep, Reader.run_concat, eventsOf_concat, List.filterMap_append]
      exact ⟨rfl, rfl⟩

end Insertion

/-! ## Whole readings -/

variable {ε : Type}

/-- Noise can be removed. Whatever lines are deleted that the reader ignores at their places, the
entities in their order, the relationships and the constraints stay as they are. The unmatched lines
and the events of the other lines keep their texts and their order, and their numbers go down by the
number of deleted lines before them. And lines to skip can be inserted anywhere: nothing changes but
the numbers, which go up by the number of inserted lines before them. -/
theorem noise_can_be_removed (strict : Bool) (lines : List String) :
    ∃ model, (parse Grammar.standard strict (⟨lines, .finished⟩ : Source ε)).model? = .ok model ∧
      (∀ deleted : Nat → Bool,
        (∀ i raw, lines[i]? = some raw → deleted i = true →
          (({} : Reader).feedAll Grammar.standard strict 1
            (lines.take i)).reader.Ignores Grammar.standard raw) →
        let thinned := parse Grammar.standard strict
          (⟨withoutLines deleted lines, .finished⟩ : Source ε)
        thinned.model? = .ok { model with
            unmatched := model.unmatched.filterMap (·.renumber (numberWithout deleted)) } ∧
          thinned.events = (parse Grammar.standard strict
            (⟨lines, .finished⟩ : Source ε)).events.filterMap
              (·.renumber (numberWithout deleted))) ∧
      ∀ inserted : Nat → List String,
        (∀ i, ∀ raw ∈ inserted i, Line.classify raw = .skip) →
        let widened := parse Grammar.standard strict
          (⟨withLines inserted lines, .finished⟩ : Source ε)
        widened.model? = .ok { model with
            unmatched := model.unmatched.map fun line ↦
              { line with number := numberWith inserted line.number } } ∧
          widened.events = (parse Grammar.standard strict
            (⟨lines, .finished⟩ : Source ε)).events.filterMap
              (·.renumber fun number ↦ some (numberWith inserted number)) := by
  refine ⟨modelOf strict lines, parse_lines strict lines, ?_, ?_⟩
  · intro deleted hnoise thinned
    have hrun : ∀ i raw, lines[i]? = some raw → deleted i = true →
        (({} : Reader).run strict 1 (lines.take i)).Ignores Grammar.standard raw := by
      intro i raw hraw hdeleted
      have hignored := hnoise i raw hraw hdeleted
      rwa [(Reader.feedAll_standard strict {} 1 (lines.take i)).1] at hignored
    obtain ⟨hreader, hevents⟩ := run_withoutLines deleted strict hrun
    show (parse Grammar.standard strict (⟨withoutLines deleted lines, .finished⟩ :
      Source ε)).model? = _ ∧ (parse Grammar.standard strict _).events = _
    rw [parse_lines, events_parse, events_parse, modelOf, hreader, hevents]
    exact ⟨rfl, rfl⟩
  · intro inserted hskip widened
    obtain ⟨hreader, hevents⟩ := run_withLines strict lines hskip
    have hmap : ∀ unmatched : List UnmatchedLine,
        unmatched.filterMap (·.renumber fun n ↦ some (numberWith inserted n)) =
          unmatched.map fun line ↦ { line with number := numberWith inserted line.number } := by
      intro unmatched
      rw [← List.filterMap_eq_map]
      rfl
    show (parse Grammar.standard strict (⟨withLines inserted lines, .finished⟩ :
      Source ε)).model? = _ ∧ (parse Grammar.standard strict _).events = _
    rw [parse_lines, events_parse, events_parse, modelOf, hreader, hevents, ← hmap]
    exact ⟨rfl, rfl⟩

/-- The same text is noise on the second line, where no body is open, and a member on the fifth. A
closing brace, the noise on the second line and a comment in the body are deleted, and lines are
inserted before the header. -/
theorem noise_can_be_removed_between :
    let lines : List String :=
      ["\x7d", "x : int", "class A", "' note", "x : int", "+", "\x7d", "x : int"]
    let deleted : Nat → Bool := fun i ↦ i == 0 || i == 1 || i == 3
    let inserted : Nat → List String := fun i ↦ if i = 2 then ["", "@startuml"] else []
    let entities : Table String Entity := ⟨[("A", ⟨"A", [⟨"x", "int"⟩], []⟩)]⟩
    (parse Grammar.standard true (⟨lines, .finished⟩ : Source Unit)).model? =
        .ok { entities, unmatched := [⟨2, "x : int"⟩, ⟨6, "+"⟩, ⟨8, "x : int"⟩] } ∧
      (parse Grammar.standard true
          (⟨withoutLines deleted lines, .finished⟩ : Source Unit)).model? =
        .ok { entities, unmatched := [⟨3, "+"⟩, ⟨5, "x : int"⟩] } ∧
      (parse Grammar.standard true (⟨withLines inserted lines, .finished⟩ : Source Unit)).model? =
        .ok { entities, unmatched := [⟨2, "x : int"⟩, ⟨8, "+"⟩, ⟨10, "x : int"⟩] } := by
  intro lines deleted inserted entities
  obtain ⟨model, hmodel, hdeleted, hinserted⟩ := noise_can_be_removed true lines
  have hknown : (parse Grammar.standard true (⟨lines, .finished⟩ : Source Unit)).model? =
      .ok { entities, unmatched := [⟨2, "x : int"⟩, ⟨6, "+"⟩, ⟨8, "x : int"⟩] } := by
    rw [parse_lines]
    decide
  cases hmodel.symm.trans hknown
  refine ⟨hknown, (hdeleted deleted ?_).1, (hinserted inserted ?_).1⟩
  · intro i raw hraw hi
    have hcases : i = 0 ∨ i = 1 ∨ i = 3 := by simpa [deleted, or_assoc] using hi
    rcases hcases with rfl | rfl | rfl <;> cases hraw
    · exact .close (by decide) rfl
    · exact .dropped "x : int" (by decide) (by decide) (by decide)
    · exact .skip (by decide)
  · intro i raw hraw
    have hskip : ∀ raw ∈ ["", "@startuml"], Line.classify raw = .skip := by decide
    by_cases hi : i = 2
    · exact hskip raw (by simpa [inserted, hi] using hraw)
    · simp [inserted, hi] at hraw

end ClassDiagram
