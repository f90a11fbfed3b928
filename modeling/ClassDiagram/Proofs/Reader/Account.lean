import ClassDiagram.Proofs.Reader.Entities
import Mathlib.Data.List.Forall2
import Mathlib.Data.List.Induction

/-!
# Every content line is accounted for

A content line is a header, a member that comes into an open body, a relationship, a constraint, or
it is dropped, and strict reading keeps exactly the dropped lines. Whether a body is open in front
of a line is told by positions (`BodyOpenAt`), and `Reader.isOpen_run` says that the scope of a
reader agrees with it.

The proofs go over the lines from the left, one line at the end at a time, since a position keeps
its meaning when more lines follow. What one line adds is read off its item and off whether a body
is open (`Item.dropped?`, `Item.balance`).

Lenient reading runs in step with strict reading: its reader is the strict one without the unmatched
lines (`Reader.run_forget`), and it reports the same at other levels.
-/

namespace ClassDiagram

/-! ## Positions -/

/-- A body is open in front of position `i`: some header line stands before it, and no line between
the two is a closing brace. -/
def BodyOpenAt (lines : List String) (i : Nat) : Prop :=
  ∃ h, h < i ∧ (lines[h]?.bind (Line.find? Form.header?)).isSome ∧
    ∀ k, k < i → h < k → lines[k]?.map Line.classify ≠ some .close

instance (lines : List String) (i : Nat) : Decidable (BodyOpenAt lines i) :=
  inferInstanceAs (Decidable (∃ h, h < i ∧ _))

/-- At position `i` stands a content line of the given text that has no place in the model: no top
matcher accepts it, and no body matcher does or no body is open. -/
structure DroppedAt (lines : List String) (i : Nat) (text : String) : Prop where
  content : lines[i]?.bind Line.text? = some text
  top : ∀ matcher ∈ Grammar.standard.top, matcher text = none
  body : (∀ matcher ∈ Grammar.standard.body, matcher text = none) ∨ ¬ BodyOpenAt lines i

/-- Whether some body matcher accepts the text of a content line. -/
def Line.isMember (raw : String) : Bool :=
  (Line.text? raw).any fun text ↦ Grammar.standard.body.any fun matcher ↦ (matcher text).isSome

/-- At position `i` stands a member line, and a body is open there. -/
def MemberAt (lines : List String) (i : Nat) : Prop :=
  lines[i]?.any Line.isMember = true ∧ BodyOpenAt lines i

instance (lines : List String) (i : Nat) : Decidable (MemberAt lines i) :=
  inferInstanceAs (Decidable (_ ∧ _))

/-- The number of member lines that are met in an open body. -/
def memberCount (lines : List String) : Nat :=
  (List.range lines.length).countP fun i ↦ MemberAt lines i

variable {lines : List String} {raw : String}

/-- Whether a body is open at a position does not depend on the lines from there on. -/
theorem bodyOpenAt_append {i : Nat} (h : i ≤ lines.length) (rest : List String) :
    BodyOpenAt (lines ++ rest) i ↔ BodyOpenAt lines i := by
  have hsame : ∀ k, k < i → (lines ++ rest)[k]? = lines[k]? :=
    fun k hk ↦ List.getElem?_append_left (by omega)
  constructor
  · rintro ⟨j, hj, hheader, hstays⟩
    rw [hsame j hj] at hheader
    exact ⟨j, hj, hheader, fun k hk hjk ↦ hsame k hk ▸ hstays k hk hjk⟩
  · rintro ⟨j, hj, hheader, hstays⟩
    rw [← hsame j hj] at hheader
    exact ⟨j, hj, hheader, fun k hk hjk ↦ (hsame k hk).symm ▸ hstays k hk hjk⟩

/-- Behind one more line a body is open if the line is a header, or if it was open before and the
line is no closing brace. -/
theorem bodyOpenAt_concat :
    BodyOpenAt (lines ++ [raw]) (lines.length + 1) ↔
      Line.classify raw ≠ .close ∧
        ((Line.find? Form.header? raw).isSome ∨ BodyOpenAt lines lines.length) := by
  have hlast : (lines ++ [raw])[lines.length]? = some raw := by simp
  have hsame : ∀ k, k < lines.length → (lines ++ [raw])[k]? = lines[k]? :=
    fun k hk ↦ List.getElem?_append_left hk
  constructor
  · rintro ⟨j, hj, hheader, hstays⟩
    by_cases hend : j = lines.length
    · rw [hend, hlast] at hheader
      have hheader : (Line.find? Form.header? raw).isSome := hheader
      refine ⟨?_, Or.inl hheader⟩
      intro hclose
      simp [Line.find?, Line.text?, hclose] at hheader
    · have hraw := hstays lines.length (by omega) (by omega)
      rw [hlast] at hraw
      refine ⟨fun hclose ↦ hraw (by rw [Option.map_some, hclose]), Or.inr ?_⟩
      refine ⟨j, by omega, by rwa [← hsame j (by omega)], ?_⟩
      intro k hk hjk
      rw [← hsame k hk]
      exact hstays k (by omega) hjk
  · rintro ⟨hraw, hheader | ⟨j, hj, hheader, hstays⟩⟩
    · refine ⟨lines.length, by omega, by rw [hlast]; exact hheader, ?_⟩
      intro k hk hjk
      omega
    · refine ⟨j, by omega, by rwa [hsame j hj], ?_⟩
      intro k hk hjk
      by_cases hend : k = lines.length
      · rw [hend, hlast, Option.map_some]
        exact fun hclose ↦ hraw (Option.some.inj hclose)
      · rw [hsame k (by omega)]
        exact hstays k (by omega) hjk

/-! ## What one line adds -/

namespace Item

/-- The text of the content line of an item. -/
def text? : Item → Option String
  | known text _ | unknown text => some text
  | skip | close => none

/-- The text that an item drops, with or without an open body: that of a line without a form, and
that of a member outside of a body. -/
def dropped? (opened : Bool) : Item → Option String
  | unknown text => some text
  | known text fragment => if fragment.isMember && !opened then some text else none
  | skip | close => none

/-- Whether a body is open behind an item. -/
def leavesOpen (opened : Bool) : Item → Bool
  | close => false
  | known _ (.header _) => true
  | skip | unknown _ | known _ (.attr _) | known _ (.method _) | known _ (.relationship _)
  | known _ (.constraint _) => opened

/-- Whether an item is a member. -/
def isMember (item : Item) : Bool := item.fragment?.any (·.isMember)

theorem text?_ofLine (raw : String) : (ofLine raw).text? = Line.text? raw := by
  unfold ofLine Line.text?
  cases Line.classify raw with
  | skip | close => rfl
  | content text =>
      cases h : Form.fragment? text <;> simp [text?, h]

/-- The fragment of an item is that of its text. -/
theorem fragment?_ofLine (raw : String) :
    (ofLine raw).fragment? = (Line.text? raw).bind Form.fragment? := by
  unfold ofLine Line.text?
  cases Line.classify raw with
  | skip | close => rfl
  | content text =>
      cases h : Form.fragment? text <;> simp [fragment?, h]

/-- An item drops its text if that has no fragment, or a member where no body is open. -/
theorem dropped?_ofLine {opened : Bool} {text : String} :
    (ofLine raw).dropped? opened = some text ↔
      Line.text? raw = some text ∧ ∀ fragment, Form.fragment? text = some fragment →
        fragment.isMember = true ∧ opened = false := by
  unfold ofLine Line.text?
  cases Line.classify raw with
  | skip | close => simp [dropped?]
  | content line =>
      cases h : Form.fragment? line with
      | none =>
          simp only [h, dropped?, Option.some.injEq]
          constructor
          · rintro rfl
            simp [h]
          · exact And.left
      | some fragment =>
          simp only [h, dropped?, Option.ite_none_right_eq_some, Option.some.injEq]
          constructor
          · rintro ⟨hmember, rfl⟩
            simpa [h] using hmember
          · rintro ⟨rfl, hall⟩
            simpa using hall fragment h

/-- A content line is a header, a member in an open body, a relationship, a constraint, or it is
dropped, and it is only one of these. -/
theorem balance (item : Item) (opened : Bool) :
    item.text?.toList.length =
      (item.fragment?.bind Fragment.header?).toList.length +
        (if item.isMember && opened then 1 else 0) +
        (item.fragment?.bind Fragment.relationship?).toList.length +
        (item.fragment?.bind Fragment.constraint?).toList.length +
        (item.dropped? opened).toList.length := by
  cases item with
  | skip | close | unknown => rfl
  | known text fragment => cases fragment <;> cases opened <;> rfl

end Item

/-- A body matcher accepts a content line exactly if its item is a member. -/
theorem Line.isMember_eq (raw : String) : Line.isMember raw = (Item.ofLine raw).isMember := by
  rw [Line.isMember, Item.isMember, Item.fragment?_ofLine]
  cases Line.text? raw with
  | none => rfl
  | some text =>
      have hbody := Grammar.Rearranged.standard.findFragment_body text
      have hany : (Grammar.standard.body.any fun matcher ↦ (matcher text).isSome) =
          (findFragment Grammar.standard.body text).isSome := by
        rw [findFragment, Bool.eq_iff_iff, List.findSome?_isSome_iff, List.any_eq_true]
      simp only [Option.any_some, Option.bind_some, hany, hbody]
      cases Form.fragment? text with
      | none => rfl
      | some fragment => cases h : fragment.isMember <;> simp [Option.filter, h]

/-- The dropped lines in front of a further line are those that were dropped without it. -/
theorem droppedAt_append {i : Nat} (h : i < lines.length) {text : String} :
    DroppedAt (lines ++ [raw]) i text ↔ DroppedAt lines i text := by
  have hline : (lines ++ [raw])[i]? = lines[i]? := List.getElem?_append_left h
  have hopen := bodyOpenAt_append (Nat.le_of_lt h) [raw]
  constructor
  · rintro ⟨hcontent, htop, hbody⟩
    exact ⟨hline ▸ hcontent, htop, hbody.imp_right fun hclosed ↦ hclosed ∘ hopen.2⟩
  · rintro ⟨hcontent, htop, hbody⟩
    exact ⟨hline.symm ▸ hcontent, htop, hbody.imp_right fun hclosed ↦ hclosed ∘ hopen.1⟩

/-- No top matcher accepts a text exactly if its fragment, if it has one, is a member. -/
theorem top_declines_iff {text : String} :
    (∀ matcher ∈ Grammar.standard.top, matcher text = none) ↔
      ∀ fragment, Form.fragment? text = some fragment → fragment.isMember = true := by
  have hfind := Grammar.Rearranged.standard.findFragment_top text
  rw [findFragment] at hfind
  rw [← List.findSome?_eq_none_iff, hfind]
  simp [Option.filter_eq_none_iff]

/-- No body matcher accepts a text exactly if its fragment, if it has one, is no member. -/
theorem body_declines_iff {text : String} :
    (∀ matcher ∈ Grammar.standard.body, matcher text = none) ↔
      ∀ fragment, Form.fragment? text = some fragment → fragment.isMember = false := by
  have hfind := Grammar.Rearranged.standard.findFragment_body text
  rw [findFragment] at hfind
  rw [← List.findSome?_eq_none_iff, hfind]
  simp [Option.filter_eq_none_iff]

/-- The last of some lines is dropped exactly if its item drops its text. -/
theorem droppedAt_last {text : String} :
    DroppedAt (lines ++ [raw]) lines.length text ↔
      (Item.ofLine raw).dropped? (decide (BodyOpenAt lines lines.length)) = some text := by
  have hline : (lines ++ [raw])[lines.length]?.bind Line.text? = Line.text? raw := by simp
  have hopen := bodyOpenAt_append (Nat.le_refl lines.length) [raw]
  rw [Item.dropped?_ofLine]
  constructor
  · rintro ⟨hcontent, htops, hbodies⟩
    rw [hline] at hcontent
    refine ⟨hcontent, ?_⟩
    intro fragment hfragment
    have hmember := top_declines_iff.1 htops fragment hfragment
    refine ⟨hmember, ?_⟩
    rcases hbodies with hbodies | hclosed
    · rw [body_declines_iff.1 hbodies fragment hfragment] at hmember
      cases hmember
    · simpa using hclosed ∘ hopen.2
  · rintro ⟨hcontent, hall⟩
    refine ⟨hline.trans hcontent, top_declines_iff.2 fun fragment h ↦ (hall fragment h).1, ?_⟩
    cases hfragment : Form.fragment? text with
    | none => exact Or.inl (body_declines_iff.2 (by simp [hfragment]))
    | some fragment =>
        have hclosed := (hall fragment hfragment).2
        exact Or.inr (by simpa [hopen] using hclosed)

/-! ## What one line adds to a reader -/

/-- Whether the scope is that of an open body. -/
def Scope.isOpen : Scope → Bool
  | topLevel => false
  | inBody _ => true

namespace Reader

variable (strict : Bool) (reader : Reader) (number : Int) (item : Item)

/-- An item leaves a body open or not, whatever the reader has read before. -/
theorem takeItem_isOpen :
    (reader.takeItem strict number item).1.scope.isOpen =
      item.leavesOpen reader.scope.isOpen := by
  cases item with
  | skip | close => rfl
  | unknown text => simp [takeItem, Item.leavesOpen]
  | known text fragment =>
      cases fragment with
      | header | relationship | constraint => rfl
      | attr member | method member =>
          cases hscope : reader.scope <;>
            simp [takeItem, takeFragment, Item.leavesOpen, Scope.isOpen, hscope, openBody]

/-- Strict reading keeps the text that an item drops, with the number of the line. -/
theorem takeItem_unmatched :
    (reader.takeItem true number item).1.model.unmatched =
      reader.model.unmatched ++
        ((item.dropped? reader.scope.isOpen).map (UnmatchedLine.mk number)).toList := by
  cases item with
  | skip | close => simp [takeItem, Item.dropped?]
  | unknown text => simp [takeItem, Item.dropped?, passOver]
  | known text fragment =>
      cases fragment with
      | header | relationship | constraint =>
          simp [takeItem, takeFragment, Item.dropped?, Fragment.isMember, openBody]
      | attr member | method member =>
          cases hscope : reader.scope <;>
            simp [takeItem, takeFragment, Item.dropped?, Fragment.isMember, Scope.isOpen, hscope,
              openBody, passOver]

end Reader

/-- Whether an event reports that an entity was declared again. -/
def Event.isRedeclared : Event → Bool
  | redeclared _ => true
  | unrecognised .. | parsed .. | undeclared .. | wrote _ => false

/-- A header either adds an entity or is reported as a further declaration. -/
theorem Reader.takeItem_redeclared {reader : Reader} (h : reader.Coherent) (strict : Bool)
    (number : Int) (item : Item) :
    (reader.takeItem strict number item).2.countP Event.isRedeclared +
        (reader.takeItem strict number item).1.model.entities.size =
      reader.model.entities.size + (item.fragment?.bind Fragment.header?).toList.length := by
  rw [Table.size_eq, Table.size_eq, takeItem_keys h]
  cases item with
  | skip | close => simp [takeItem, Item.fragment?]
  | unknown text => simp [takeItem, passOver, Item.fragment?, Event.isRedeclared]
  | known text fragment =>
      cases fragment with
      | header name =>
          simp only [takeItem, takeFragment, Item.fragment?, Fragment.header?, Option.bind_some]
          by_cases hkey : name ∈ reader.model.entities.keys
          · simp [hkey, Table.contains_iff.2 hkey, Event.isRedeclared]
            omega
          · have hnew : reader.model.entities.contains name = false := by
              rw [Bool.eq_false_iff]
              exact fun hkey' ↦ hkey (Table.contains_iff.1 hkey')
            simp [hkey, hnew]
      | relationship | constraint =>
          simp [takeItem, takeFragment, Item.fragment?, Fragment.header?]
      | attr member | method member =>
          cases hscope : reader.scope <;>
            simp [takeItem, takeFragment, hscope, passOver, Item.fragment?, Fragment.header?,
              Event.isRedeclared]

/-! ## Strict and lenient reading in step -/

/-- Whether an event reports a line that nothing recognised. -/
def Event.isUnrecognised : Event → Bool
  | unrecognised .. => true
  | redeclared _ | parsed .. | undeclared .. | wrote _ => false

/-- An event of strict reading and the event of lenient reading in its place. They have the same
wording, and the same level unless they report an unrecognised line, which is a warning in strict
reading only. -/
structure Event.Counterpart (strict lenient : Event) : Prop where
  message : strict.message = lenient.message
  kind : strict.isUnrecognised = lenient.isUnrecognised
  level : if strict.isUnrecognised then strict.level = .warning ∧ lenient.level = .debug
    else strict.level = lenient.level

theorem Event.Counterpart.unrecognised (number : Int) (text : String) :
    Event.Counterpart (.unrecognised true number text) (.unrecognised false number text) :=
  ⟨rfl, rfl, ⟨rfl, rfl⟩⟩

theorem Event.Counterpart.redeclared (name : String) :
    Event.Counterpart (.redeclared name) (.redeclared name) := ⟨rfl, rfl, rfl⟩

/-- A reader without its unmatched lines. -/
def Reader.forget (reader : Reader) : Reader :=
  { reader with model := { reader.model with unmatched := [] } }

/-- Lenient reading of an item is strict reading that forgets the unmatched line. -/
theorem Reader.takeItem_forget (reader : Reader) (number : Int) (item : Item) :
    (reader.forget.takeItem false number item).1 = (reader.takeItem true number item).1.forget ∧
      List.Forall₂ Event.Counterpart (reader.takeItem true number item).2
        (reader.forget.takeItem false number item).2 := by
  have hdrop : ∀ text, (reader.forget.passOver false number text).1 =
        (reader.passOver true number text).1.forget ∧
      List.Forall₂ Event.Counterpart (reader.passOver true number text).2
        (reader.forget.passOver false number text).2 :=
    fun text ↦ ⟨rfl, .cons (.unrecognised number text) .nil⟩
  cases item with
  | skip | close => exact ⟨rfl, .nil⟩
  | unknown text => exact hdrop text
  | known text fragment =>
      cases fragment with
      | header name =>
          refine ⟨rfl, ?_⟩
          show List.Forall₂ _ (if reader.model.entities.contains name then _ else _)
            (if reader.model.entities.contains name then _ else _)
          split
          · exact .cons (.redeclared name) .nil
          · exact .nil
      | relationship | constraint => exact ⟨rfl, .nil⟩
      | attr member | method member =>
          have hscope : reader.forget.scope = reader.scope := rfl
          cases hopen : reader.scope with
          | topLevel =>
              simp only [takeItem, takeFragment, hscope, hopen]
              exact hdrop text
          | inBody entity =>
              simp only [takeItem, takeFragment, hscope, hopen]
              exact ⟨rfl, .nil⟩

/-! ## Runs, one line at the end at a time -/

/-- The events of a list of lines. -/
def eventsOf (strict : Bool) (lines : List String) : List Event :=
  (({} : Reader).feedAll Grammar.standard strict 1 lines).events

/-- One more line is taken in by the reader of the lines before it, and gets the next number. -/
theorem Reader.run_concat (strict : Bool) (lines : List String) (raw : String) :
    ({} : Reader).run strict 1 (lines ++ [raw]) =
      ((({} : Reader).run strict 1 lines).takeItem strict (lines.length + 1)
        (Item.ofLine raw)).1 := by
  rw [run_append, Int.add_comm]
  rfl

/-- One more line adds its own events. -/
theorem eventsOf_concat (strict : Bool) (lines : List String) (raw : String) :
    eventsOf strict (lines ++ [raw]) =
      eventsOf strict lines ++
        ((({} : Reader).run strict 1 lines).takeItem strict (lines.length + 1)
          (Item.ofLine raw)).2 := by
  obtain ⟨hreader, hhalt⟩ := Reader.feedAll_standard strict {} 1 lines
  rw [eventsOf, Reader.feedAll_append]
  simp only [hhalt, hreader, Reader.feedAll, Reader.feed_standard, List.append_nil, eventsOf]
  rw [Int.add_comm]

/-- The scope of a reader is an open body exactly if a body is open behind its lines. -/
theorem Reader.isOpen_run (strict : Bool) (lines : List String) :
    (({} : Reader).run strict 1 lines).scope.isOpen = decide (BodyOpenAt lines lines.length) := by
  induction lines using List.reverseRecOn with
  | nil =>
      have hnone : ¬ BodyOpenAt [] 0 := by
        rintro ⟨j, hj, _⟩
        omega
      simp [run, Scope.isOpen, hnone]
  | append_singleton lines raw ih =>
      rw [run_concat, takeItem_isOpen, ih, List.length_append, List.length_singleton,
        Bool.eq_iff_iff, decide_eq_true_iff, bodyOpenAt_concat, Line.find?_header]
      unfold Item.ofLine
      cases Line.classify raw with
      | skip => simp [Item.leavesOpen, Item.fragment?]
      | close => simp [Item.leavesOpen]
      | content text =>
          cases hfragment : Form.fragment? text with
          | none => simp [hfragment, Item.leavesOpen, Item.fragment?]
          | some fragment =>
              cases fragment <;>
                simp [hfragment, Item.leavesOpen, Item.fragment?, Fragment.header?]

/-- Lenient reading is strict reading without the unmatched lines, and reports the same events at
their own levels. -/
theorem Reader.run_forget (lines : List String) :
    ({} : Reader).run false 1 lines = (({} : Reader).run true 1 lines).forget ∧
      List.Forall₂ Event.Counterpart (eventsOf true lines) (eventsOf false lines) := by
  induction lines using List.reverseRecOn with
  | nil => exact ⟨rfl, .nil⟩
  | append_singleton lines raw ih =>
      obtain ⟨hreader, hevents⟩ := ih
      obtain ⟨hnext, hadded⟩ := takeItem_forget (({} : Reader).run true 1 lines)
        (lines.length + 1) (Item.ofLine raw)
      rw [run_concat, run_concat, eventsOf_concat, eventsOf_concat, hreader]
      exact ⟨hnext, List.rel_append hevents hadded⟩

/-! ## The unmatched lines -/

/-- A position at which a line is dropped is one of the positions of the lines. -/
theorem DroppedAt.lt_length {i : Nat} {text : String} (h : DroppedAt lines i text) :
    i < lines.length := by
  obtain ⟨raw, hraw, -⟩ := Option.bind_eq_some_iff.1 h.content
  exact (List.getElem?_eq_some_iff.1 hraw).1

/-- Strict reading keeps exactly the dropped lines, with their positions counted from one. -/
theorem mem_unmatched_iff {lines : List String} {number : Int} {text : String} :
    ⟨number, text⟩ ∈ (modelOf true lines).unmatched ↔
      ∃ i : Nat, number = i + 1 ∧ DroppedAt lines i text := by
  induction lines using List.reverseRecOn with
  | nil =>
      have hnone : ¬ ∃ i : Nat, number = i + 1 ∧ DroppedAt [] i text := by
        rintro ⟨i, -, hdropped⟩
        exact absurd hdropped.lt_length (Nat.not_lt_zero i)
      simp [modelOf, Reader.run, hnone]
  | append_singleton lines raw ih =>
      rw [modelOf] at ih
      rw [modelOf, Reader.run_concat, Reader.takeItem_unmatched, Reader.isOpen_run,
        List.mem_append, ih, Option.mem_toList, Option.map_eq_some_iff]
      constructor
      · rintro (⟨i, hnumber, hdropped⟩ | ⟨line, hline, heq⟩)
        · exact ⟨i, hnumber, (droppedAt_append hdropped.lt_length).2 hdropped⟩
        · cases heq
          exact ⟨lines.length, rfl, droppedAt_last.2 hline⟩
      · rintro ⟨i, hnumber, hdropped⟩
        have hlt := hdropped.lt_length
        rw [List.length_append, List.length_singleton] at hlt
        by_cases hi : i < lines.length
        · exact Or.inl ⟨i, hnumber, (droppedAt_append hi).1 hdropped⟩
        · have hlast : i = lines.length := by omega
          rw [hlast] at hdropped hnumber
          exact Or.inr ⟨text, droppedAt_last.1 hdropped, by rw [hnumber]⟩

/-- The numbers of the unmatched lines increase. -/
theorem pairwise_unmatched (lines : List String) :
    (modelOf true lines).unmatched.Pairwise (·.number < ·.number) := by
  induction lines using List.reverseRecOn with
  | nil => exact List.Pairwise.nil
  | append_singleton lines raw ih =>
      rw [modelOf] at ih
      rw [modelOf, Reader.run_concat, Reader.takeItem_unmatched, List.pairwise_append]
      refine ⟨ih, ?_, ?_⟩
      · cases (Item.ofLine raw).dropped? _ <;> simp
      · intro earlier hearlier later hlater
        obtain ⟨text, -, hlater⟩ := Option.map_eq_some_iff.1 (Option.mem_toList.1 hlater)
        obtain ⟨i, hnumber, hdropped⟩ := mem_unmatched_iff.1 hearlier
        have hlt := hdropped.lt_length
        rw [← hlater, hnumber]
        show ((i : Int) + 1 < lines.length + 1)
        omega

/-! ## The balance -/

theorem filterMap_concat {α : Type} (f : String → Option α) (lines : List String) (raw : String) :
    (lines ++ [raw]).filterMap f = lines.filterMap f ++ (f raw).toList := by
  rw [List.filterMap_append]
  cases h : f raw <;> simp [h]

/-- One more line adds to the number of members if it is a member and a body is open. -/
theorem memberCount_concat (lines : List String) (raw : String) :
    memberCount (lines ++ [raw]) =
      memberCount lines +
        (if (Item.ofLine raw).isMember && decide (BodyOpenAt lines lines.length) then 1
          else 0) := by
  have hlast : MemberAt (lines ++ [raw]) lines.length ↔
      (Item.ofLine raw).isMember = true ∧ BodyOpenAt lines lines.length := by
    rw [MemberAt, bodyOpenAt_append (Nat.le_refl _), ← Line.isMember_eq]
    simp
  have hbefore : ∀ i ∈ List.range lines.length,
      (decide (MemberAt (lines ++ [raw]) i) = true ↔ decide (MemberAt lines i) = true) := by
    intro i hi
    have hlt := List.mem_range.1 hi
    rw [decide_eq_true_iff, decide_eq_true_iff, MemberAt, MemberAt,
      bodyOpenAt_append (Nat.le_of_lt hlt), List.getElem?_append_left hlt]
  rw [memberCount, List.length_append, List.length_singleton, List.range_succ, List.countP_append,
    List.countP_congr hbefore, List.countP_singleton, memberCount]
  simp [hlast]

/-- All content lines are headers, members in an open body, relationships, constraints or unmatched
lines of strict reading. -/
theorem content_balance (lines : List String) :
    (lines.filterMap Line.text?).length =
      (headerNames lines).length + memberCount lines + (modelOf true lines).relationships.length +
        (modelOf true lines).constraints.length + (modelOf true lines).unmatched.length := by
  induction lines using List.reverseRecOn with
  | nil => rfl
  | append_singleton lines raw ih =>
      have hstep := (Item.ofLine raw).balance (decide (BodyOpenAt lines lines.length))
      rw [Item.text?_ofLine, ← Line.find?_header] at hstep
      obtain ⟨hrelationships, hconstraints⟩ := Reader.takeItem_lists true
        (({} : Reader).run true 1 lines) (lines.length + 1) (Item.ofLine raw)
      simp only [modelOf, headerNames] at ih
      simp only [modelOf, headerNames, Reader.run_concat, hrelationships, hconstraints,
        Reader.takeItem_unmatched, Reader.isOpen_run, filterMap_concat, memberCount_concat,
        List.length_append, Option.toList_map, List.length_map]
      omega

/-- Each header line adds an entity or is reported as a further declaration. -/
theorem redeclared_balance (strict : Bool) (lines : List String) :
    (eventsOf strict lines).countP Event.isRedeclared + (modelOf strict lines).entities.size =
      (headerNames lines).length := by
  induction lines using List.reverseRecOn with
  | nil => rfl
  | append_singleton lines raw ih =>
      have hcoherent := Reader.coherent_empty.run strict 1 lines
      have hstep := Reader.takeItem_redeclared hcoherent strict (lines.length + 1)
        (Item.ofLine raw)
      rw [modelOf] at ih
      rw [eventsOf_concat, List.countP_append, modelOf, Reader.run_concat, Nat.add_assoc, hstep,
        headerNames, filterMap_concat, Line.find?_header, List.length_append, ← headerNames]
      omega

/-! ## Strict reading -/

variable {ε : Type}

/-- With the standard grammar, the events of a reading are those of its lines. -/
theorem events_parse (strict : Bool) (lines : List String) :
    (parse Grammar.standard strict (⟨lines, .finished⟩ : Source ε)).events =
      eventsOf strict lines := by
  obtain ⟨-, hhalt⟩ := Reader.feedAll_standard strict {} 1 lines
  simp [parse, Reader.read, hhalt, eventsOf]

/-- Strict reading accounts for every content line and changes nothing else. Strict and lenient
reading of the same lines give the same entities in the same order, the same relationships and the
same constraints. Lenient reading keeps no unmatched lines, strict reading keeps exactly the dropped
ones, by increasing numbers. Every content line is a header, a member in an open body, a
relationship, a constraint or an unmatched line, and every header adds an entity or is reported as a
further declaration. The reports of the two readings are the same in the same order, but for the
level of unrecognised lines. -/
theorem strict_accounts_for_every_line (lines : List String) :
    ∃ strict lenient : Model,
      (parse Grammar.standard true (⟨lines, .finished⟩ : Source ε)).model? = .ok strict ∧
      (parse Grammar.standard false (⟨lines, .finished⟩ : Source ε)).model? = .ok lenient ∧
      strict.entities = lenient.entities ∧
      strict.relationships = lenient.relationships ∧
      strict.constraints = lenient.constraints ∧
      lenient.unmatched = [] ∧
      strict.unmatched.Pairwise (·.number < ·.number) ∧
      (∀ (number : Int) (text : String), ⟨number, text⟩ ∈ strict.unmatched ↔
        ∃ i : Nat, number = i + 1 ∧ DroppedAt lines i text) ∧
      (lines.filterMap Line.text?).length =
        (headerNames lines).length + memberCount lines + strict.relationships.length +
          strict.constraints.length + strict.unmatched.length ∧
      (∀ flag, (parse Grammar.standard flag (⟨lines, .finished⟩ : Source ε)).events.countP
          Event.isRedeclared + strict.entities.size = (headerNames lines).length) ∧
      List.Forall₂ Event.Counterpart
        (parse Grammar.standard true (⟨lines, .finished⟩ : Source ε)).events
        (parse Grammar.standard false (⟨lines, .finished⟩ : Source ε)).events := by
  obtain ⟨hreader, hevents⟩ := Reader.run_forget lines
  have hmodel : modelOf false lines = { modelOf true lines with unmatched := [] } := by
    rw [modelOf, hreader]
    rfl
  refine ⟨modelOf true lines, modelOf false lines, parse_lines true lines,
    parse_lines false lines, by rw [hmodel], by rw [hmodel], by rw [hmodel], by rw [hmodel],
    pairwise_unmatched lines, fun _ _ ↦ mem_unmatched_iff, content_balance lines, ?_, ?_⟩
  · intro flag
    rw [events_parse]
    cases flag with
    | true => exact redeclared_balance true lines
    | false =>
        have hbalance := redeclared_balance false lines
        rwa [hmodel] at hbalance
  · rw [events_parse, events_parse]
    exact hevents

end ClassDiagram
