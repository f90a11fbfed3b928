import ClassDiagram.Form.Basic
import Mathlib.Data.List.TakeWhile

/-!
# What the scanning pieces take

One lemma for each piece of `ClassDiagram.Form.Scan` that says exactly when it succeeds and where it
cuts the line. All of them are stated with the rest of the line present, so they can be chained in
either direction: from a scan to the parts of a line, and from the parts of a line to its scan.
-/

namespace ClassDiagram.Scan

open Text Form

/-- Every character of the text is in `p`. -/
def OnlyOf (p : Char → Bool) (text : List Char) : Prop := ∀ c ∈ text, p c = true

/-- At least one character, and all of them in `p`. -/
def RunOf (p : Char → Bool) (text : List Char) : Prop := text ≠ [] ∧ OnlyOf p text

/-- A run in `p` does not go on into the text: the text is empty or starts outside `p`. -/
def Stops (p : Char → Bool) (text : List Char) : Prop := ∀ c ∈ text.head?, p c = false

/-- What may stand behind the last word of a line: nothing, or one line feed. -/
def LineEnd (text : List Char) : Prop := text = [] ∨ text = ['\n']

instance (p : Char → Bool) (text : List Char) : Decidable (OnlyOf p text) :=
  decidable_of_iff (text.all p = true) List.all_eq_true

instance (p : Char → Bool) (text : List Char) : Decidable (RunOf p text) :=
  inferInstanceAs (Decidable (_ ∧ _))

/-! ## Characters -/

/-- A gap character is a space or has one of five code points. -/
theorem isGap_cases {c : Char} (h : isGap c = true) :
    c = ' ' ∨ c = '\t' ∨ c = '\n' ∨ c = '\x0b' ∨ c = '\x0c' ∨ c = '\r' := by
  simp only [isGap, Bool.or_eq_true, Bool.and_eq_true, beq_iff_eq, decide_eq_true_eq] at h
  have hchar : ∀ d : Char, c.toNat = d.toNat → c = d := fun d hd ↦ Char.toNat_inj.1 hd
  rcases h with h | ⟨hlow, hhigh⟩
  · exact Or.inl h
  · have hcode : c.toNat = 9 ∨ c.toNat = 10 ∨ c.toNat = 11 ∨ c.toNat = 12 ∨ c.toNat = 13 := by
      omega
    rcases hcode with h | h | h | h | h
    · exact Or.inr (Or.inl (hchar _ h))
    · exact Or.inr (Or.inr (Or.inl (hchar _ h)))
    · exact Or.inr (Or.inr (Or.inr (Or.inl (hchar _ h))))
    · exact Or.inr (Or.inr (Or.inr (Or.inr (Or.inl (hchar _ h)))))
    · exact Or.inr (Or.inr (Or.inr (Or.inr (Or.inr (hchar _ h)))))

/-- No gap character belongs to a word. -/
theorem not_word_of_gap {c : Char} (h : isGap c = true) : isWordChar c = false := by
  rcases isGap_cases h with rfl | rfl | rfl | rfl | rfl | rfl <;> decide

/-- No gap character belongs to a connector. -/
theorem not_connector_of_gap {c : Char} (h : isGap c = true) : isConnectorChar c = false := by
  rcases isGap_cases h with rfl | rfl | rfl | rfl | rfl | rfl <;> decide

/-- No character of a word separates words. -/
theorem not_gap_of_word {c : Char} (h : isWordChar c = true) : isGap c = false := by
  by_contra hgap
  simp [not_word_of_gap (by simpa using hgap)] at h

/-- No character of a connector separates words. -/
theorem not_gap_of_connector {c : Char} (h : isConnectorChar c = true) : isGap c = false := by
  by_contra hgap
  simp [not_connector_of_gap (by simpa using hgap)] at h

/-- A word character is none of the marks that structure a line. -/
theorem ne_of_word {c d : Char} (h : isWordChar c = true) (hd : isWordChar d = false) : c ≠ d := by
  intro heq
  rw [heq, hd] at h
  cases h

/-! ## Where runs stop -/

theorem OnlyOf.nil (p : Char → Bool) : OnlyOf p [] := by simp [OnlyOf]

theorem OnlyOf.append {p : Char → Bool} {first second : List Char} (hf : OnlyOf p first)
    (hs : OnlyOf p second) : OnlyOf p (first ++ second) := by
  intro c hc
  rcases List.mem_append.1 hc with hc | hc
  · exact hf c hc
  · exact hs c hc

theorem Stops.nil (p : Char → Bool) : Stops p [] := by simp [Stops]

theorem Stops.cons {p : Char → Bool} {c : Char} {text : List Char} (h : p c = false) :
    Stops p (c :: text) := by
  simpa [Stops] using h

/-- A run in `p` stops before a run of characters outside `p`. -/
theorem RunOf.stops {p q : Char → Bool} {run text : List Char} (hrun : RunOf q run)
    (h : ∀ c, q c = true → p c = false) : Stops p (run ++ text) := by
  obtain ⟨hne, hall⟩ := hrun
  cases run with
  | nil => exact absurd rfl hne
  | cons c rest => exact Stops.cons (h c (hall c List.mem_cons_self))

/-- A run in `p` stops before characters outside `p`, if it stops before what follows them. -/
theorem OnlyOf.stops {p q : Char → Bool} {front text : List Char} (hfront : OnlyOf q front)
    (h : ∀ c, q c = true → p c = false) (htext : Stops p text) : Stops p (front ++ text) := by
  cases front with
  | nil => exact htext
  | cons c rest => exact Stops.cons (h c (hfront c List.mem_cons_self))

/-- A word stops before the end of a line. -/
theorem LineEnd.stops_word {tail : List Char} (h : LineEnd tail) : Stops isWordChar tail := by
  rcases h with rfl | rfl
  · exact Stops.nil _
  · exact Stops.cons (by decide)

/-- The end of a line consists of gap characters. -/
theorem LineEnd.onlyOf {tail : List Char} (h : LineEnd tail) : OnlyOf isGap tail := by
  rcases h with rfl | rfl
  · exact OnlyOf.nil _
  · intro c hc
    simp only [List.mem_singleton] at hc
    rw [hc]
    decide

/-! ## The pieces -/

/-- A run is taken exactly if it lies in `p` and stops before the rest. -/
theorem run?_iff {p : Char → Bool} {line run rest : List Char} :
    run? p line = some (run, rest) ↔ line = run ++ rest ∧ RunOf p run ∧ Stops p rest := by
  rw [run?_eq_some_iff, RunOf, OnlyOf, Stops, and_assoc]

/-- A word is taken exactly if it stops before the rest. -/
theorem word?_iff {line word rest : List Char} :
    word? line = some (word, rest) ↔
      line = word ++ rest ∧ RunOf isWordChar word ∧ Stops isWordChar rest :=
  run?_iff

/-- A character is taken exactly if the line starts with it. -/
theorem char?_iff {c : Char} {line rest : List Char} :
    char? c line = some rest ↔ line = c :: rest := by
  cases line with
  | nil => simp [char?]
  | cons first tail =>
      by_cases h : first = c
      · simp [char?, h]
      · simp [char?, h]

/-- Dropping a run leaves `rest` exactly if the text is a run in `p`, perhaps an empty one, and then
`rest`. -/
theorem dropWhile_iff {p : Char → Bool} {text rest : List Char} :
    text.dropWhile p = rest ↔ ∃ front, text = front ++ rest ∧ OnlyOf p front ∧ Stops p rest := by
  constructor
  · intro h
    refine ⟨text.takeWhile p, ?_, fun c hc ↦ List.mem_takeWhile_imp hc, ?_⟩
    · rw [← h, List.takeWhile_append_dropWhile]
    · intro c hc
      have hhead := List.head?_dropWhile_not p text
      rw [h, Option.mem_def.1 hc] at hhead
      simpa using hhead
  · intro h
    obtain ⟨front, htext, hfront, hrest⟩ := h
    rw [htext, List.dropWhile_append_of_pos hfront]
    cases rest with
    | nil => rfl
    | cons c tail => simp [hrest c rfl]

/-- Two cuts of the same list are the same, if both have a run in `p` in front that stops at the
cut. -/
theorem append_inj_of_stops {α : Type} {p : α → Bool} {run run' rest rest' : List α}
    (h : run ++ rest = run' ++ rest') (hrun : ∀ x ∈ run, p x = true)
    (hrun' : ∀ x ∈ run', p x = true) (hrest : ∀ x ∈ rest.head?, p x = false)
    (hrest' : ∀ x ∈ rest'.head?, p x = false) : run = run' ∧ rest = rest' := by
  -- both runs are what `takeWhile` takes
  have htake : ∀ {run rest : List α}, (∀ x ∈ run, p x = true) → (∀ x ∈ rest.head?, p x = false) →
      (run ++ rest).takeWhile p = run := by
    intro run rest hrun hrest
    rw [List.takeWhile_append_of_pos hrun]
    cases rest with
    | nil => simp
    | cons x tail => simp [hrest x rfl]
  have hsame : run = run' := by rw [← htake hrun hrest, h, htake hrun' hrest']
  subst hsame
  exact ⟨rfl, List.append_cancel_left h⟩

/-- Passing over a gap leaves `rest` exactly if the line is a gap and then `rest`. -/
theorem skipGap_iff {line rest : List Char} :
    skipGap line = rest ↔ ∃ gap, line = gap ++ rest ∧ OnlyOf isGap gap ∧ Stops isGap rest :=
  dropWhile_iff

/-- The line is a gap and then what remains of it. -/
theorem exists_gap (line : List Char) :
    ∃ gap, line = gap ++ skipGap line ∧ OnlyOf isGap gap ∧ Stops isGap (skipGap line) :=
  skipGap_iff.1 rfl

/-- A gap in front of a text that starts outside the gap characters is passed over. -/
theorem skipGap_append {gap rest : List Char} (hgap : OnlyOf isGap gap)
    (hrest : Stops isGap rest) : skipGap (gap ++ rest) = rest :=
  skipGap_iff.2 ⟨gap, rfl, hgap, hrest⟩

/-- A text that starts outside the gap characters is left alone. -/
theorem skipGap_of_stops {rest : List Char} (hrest : Stops isGap rest) : skipGap rest = rest :=
  skipGap_append (OnlyOf.nil _) hrest

/-- A gap is taken exactly if it is not empty and stops before the rest. -/
theorem gap?_iff {line rest : List Char} :
    gap? line = some rest ↔ ∃ gap, line = gap ++ rest ∧ RunOf isGap gap ∧ Stops isGap rest := by
  rw [gap?, Option.map_eq_some_iff]
  constructor
  · intro hparts
    obtain ⟨⟨gap, rest'⟩, h, rfl⟩ := hparts
    exact ⟨gap, run?_iff.1 h⟩
  · intro hparts
    obtain ⟨gap, h⟩ := hparts
    exact ⟨(gap, rest), run?_iff.2 h, rfl⟩

/-- Where a gap is taken, passing over a gap leaves the same rest. -/
theorem skipGap_of_gap? {line rest : List Char} (h : gap? line = some rest) :
    skipGap line = rest := by
  obtain ⟨gap, hline, hgap, hrest⟩ := gap?_iff.1 h
  exact skipGap_iff.2 ⟨gap, hline, hgap.2, hrest⟩

/-- A line is over exactly if only its end is left. -/
theorem atEnd_iff {line : List Char} : atEnd line = true ↔ LineEnd line := by
  simp [atEnd, LineEnd]

/-- A quoted text is taken exactly if it stands between the first two quotes and is not empty. -/
theorem quoted?_iff {line text rest : List Char} :
    quoted? line = some (text, rest) ↔
      line = '"' :: text ++ '"' :: rest ∧ text ≠ [] ∧ '"' ∉ text := by
  have hchars : ∀ text : List Char, OnlyOf (· != '"') text ↔ '"' ∉ text := by
    intro text
    simp only [OnlyOf, bne_iff_ne]
    exact ⟨fun h hmem ↦ h _ hmem rfl, fun h c hc heq ↦ h (heq ▸ hc)⟩
  simp only [quoted?, bind, Option.bind_eq_some_iff, Prod.exists, char?_iff, run?_iff, pure,
    Option.some.injEq, Prod.mk.injEq]
  constructor
  · intro hparts
    obtain ⟨_, rfl, _, _, ⟨rfl, ⟨hne, hall⟩, -⟩, _, rfl, rfl, rfl⟩ := hparts
    exact ⟨rfl, hne, (hchars _).1 hall⟩
  · intro hparts
    obtain ⟨rfl, hne, hquote⟩ := hparts
    exact ⟨_, rfl, _, _, ⟨rfl, ⟨hne, (hchars _).2 hquote⟩, Stops.cons (by decide)⟩, _, rfl, rfl,
      rfl⟩

/-- A multiplicity in a line: nothing at all for the empty one, and otherwise a gap and the text
between quotes. -/
def Multiplicity (part text : List Char) : Prop :=
  (part = [] ∧ text = []) ∨
    ∃ gap, part = gap ++ '"' :: text ++ ['"'] ∧ OnlyOf isGap gap ∧ text ≠ [] ∧ '"' ∉ text

/-- A multiplicity is taken exactly if it stands in front of the rest, where the empty one needs a
rest without a quote as its next mark. -/
theorem multiplicity?_iff {line text rest : List Char} :
    multiplicity? line = some (text, rest) ↔
      ∃ part, line = part ++ rest ∧ Multiplicity part text ∧
        (part = [] → (skipGap line).head? ≠ some '"') := by
  obtain ⟨gap, hline, hgap, hstop⟩ := exists_gap line
  unfold multiplicity?
  -- the next mark behind the gap decides whether there is a multiplicity
  split
  · next quoted hskip =>
      rw [quoted?_iff]
      constructor
      · intro hparts
        obtain ⟨hquoted, hne, hquote⟩ := hparts
        refine ⟨gap ++ '"' :: text ++ ['"'], ?_, Or.inr ⟨gap, rfl, hgap, hne, hquote⟩, by simp⟩
        rw [hline, hskip, hquoted]
        simp
      · intro hparts
        rcases hparts with ⟨part, hpart, ⟨rfl, rfl⟩ | ⟨gap', rfl, hgap', hne, hquote⟩, hnone⟩
        · exact absurd (by rw [hskip]; rfl) (hnone rfl)
        · refine ⟨?_, hne, hquote⟩
          -- both descriptions of the line are a gap and then a quote
          have hsame : skipGap line = '"' :: text ++ '"' :: rest := by
            refine skipGap_iff.2 ⟨gap', by rw [hpart]; simp, hgap', Stops.cons (by decide)⟩
          rw [← hskip, hsame]
  · next hskip =>
      have hnone : (skipGap line).head? ≠ some '"' := by
        intro hhead
        obtain ⟨tail, htail⟩ := List.head?_eq_some_iff.1 hhead
        exact hskip tail htail
      constructor
      · intro h
        cases h
        exact ⟨[], rfl, Or.inl ⟨rfl, rfl⟩, fun _ ↦ hnone⟩
      · intro hparts
        rcases hparts with ⟨part, hpart, ⟨rfl, rfl⟩ | ⟨gap', rfl, hgap', -, -⟩, -⟩
        · rw [hpart, List.nil_append]
        · have hsame : skipGap line = '"' :: text ++ '"' :: rest := by
            refine skipGap_iff.2 ⟨gap', by rw [hpart]; simp, hgap', Stops.cons (by decide)⟩
          exact absurd hsame (hskip _)

/-- A line is split at a character exactly if the character does not occur behind the split. -/
theorem splitLast?_iff {c : Char} {line before after : List Char} :
    splitLast? c line = some (before, after) ↔ line = before ++ c :: after ∧ c ∉ after := by
  constructor
  · intro h
    have hsplit := List.takeWhile_append_dropWhile (p := (· != c)) (l := line.reverse)
    unfold splitLast? at h
    split at h
    · cases h
    · next d rest hdrop =>
        cases h
        have hd : d = c := by
          have := List.head?_dropWhile_not (· != c) line.reverse
          rw [hdrop] at this
          simpa using this
        subst hd
        rw [hdrop] at hsplit
        refine ⟨?_, fun hmem ↦ ?_⟩
        · have hline := congrArg List.reverse hsplit
          simpa using hline.symm
        · simpa using List.mem_takeWhile_imp (List.mem_reverse.1 hmem)
  · intro hparts
    obtain ⟨rfl, hafter⟩ := hparts
    have hstop : ∀ d ∈ after.reverse, (d != c) = true := by
      intro d hd
      rw [bne_iff_ne]
      intro heq
      exact hafter (heq ▸ List.mem_reverse.1 hd)
    have hrev : (before ++ c :: after).reverse = after.reverse ++ c :: before.reverse := by simp
    rw [splitLast?, hrev, List.dropWhile_append_of_pos hstop, List.takeWhile_append_of_pos hstop]
    simp

/-! ## Free text -/

/-- A free text in a line: a gap that is passed over, the text, and the end of the line. The text
starts outside the gap characters, unless it is the one character that is left of a gap. -/
structure FreeText (line text : List Char) : Prop where
  parts : ∃ gap feed, line = gap ++ text ++ feed ∧ OnlyOf isGap gap ∧ LineEnd feed
  nonempty : text ≠ []
  oneLine : '\n' ∉ text
  start : Stops isGap text ∨ ∃ c, text = [c] ∧ isGap c = true

/-- Without a line feed at its end, a line is left alone. -/
theorem dropFeed_append {text feed : List Char} (htext : '\n' ∉ text)
    (hfeed : LineEnd feed) : dropFeed (text ++ feed) = text := by
  rcases hfeed with rfl | rfl
  · have hlast : text.getLast? ≠ some '\n' := fun h ↦ htext (List.mem_of_getLast? h)
    rw [List.append_nil, dropFeed, if_neg hlast]
  · simp [dropFeed]

/-- A line is what remains without its line feed, and then its end. -/
theorem exists_feed (line : List Char) : ∃ feed, line = dropFeed line ++ feed ∧ LineEnd feed := by
  unfold dropFeed
  split
  · next h =>
      obtain ⟨front, rfl⟩ := List.getLast?_eq_some_iff.1 h
      exact ⟨['\n'], by simp, Or.inr rfl⟩
  · exact ⟨[], by simp, Or.inl rfl⟩

/-- The last character of a gap is itself a free text. -/
theorem freeText_of_gap {line text : List Char} (hskip : skipGap line = [])
    (htext : (dropFeed line).getLast?.toList = text) (hne : text ≠ []) (hfeed : '\n' ∉ text) :
    FreeText line text := by
  obtain ⟨gap, hline, hgap, -⟩ := exists_gap line
  rw [hskip, List.append_nil] at hline
  obtain ⟨feed, hparts, hend⟩ := exists_feed line
  cases hlast : (dropFeed line).getLast? with
  | none =>
      rw [hlast] at htext
      exact absurd htext.symm hne
  | some c =>
      rw [hlast] at htext
      obtain ⟨front, hfront⟩ := List.getLast?_eq_some_iff.1 hlast
      rw [hfront] at hparts
      have hall : OnlyOf isGap (front ++ [c] ++ feed) := by rw [← hparts, hline]; exact hgap
      refine ⟨⟨front, feed, by rw [← htext]; exact hparts, ?_, hend⟩, hne, hfeed,
        Or.inr ⟨c, ?_, ?_⟩⟩
      · exact fun d hd ↦ hall d (by simp [hd])
      · exact htext.symm
      · exact hall c (by simp)

/-- A text is taken exactly if it is the free text of the line. -/
theorem freeText?_iff {line text : List Char} :
    freeText? line = some text ↔ FreeText line text := by
  constructor
  · intro h
    obtain ⟨gap, hline, hgap, hstop⟩ := exists_gap line
    simp only [freeText?, Option.ite_none_left_eq_some, not_or, Option.some.injEq] at h
    obtain ⟨⟨hne, hfeed⟩, htext⟩ := h
    rw [htext] at hne hfeed
    split at htext
    · next hskip => exact freeText_of_gap hskip htext hne hfeed
    · obtain ⟨feed, hparts, hend⟩ := exists_feed (skipGap line)
      rw [htext] at hparts
      refine ⟨⟨gap, feed, ?_, hgap, hend⟩, hne, hfeed, Or.inl ?_⟩
      · rw [List.append_assoc, ← hparts]
        exact hline
      · intro c hc
        refine hstop c ?_
        rw [hparts, List.head?_append, Option.mem_def.1 hc]
        rfl
  · intro hparts
    obtain ⟨⟨gap, feed, rfl, hgap, hend⟩, hne, hfeed, hstart⟩ := hparts
    have hvalid : ¬ (text = [] ∨ '\n' ∈ text) := by simp [hne, hfeed]
    rcases hstart with hstop | ⟨c, rfl, hc⟩
    · have hskip : skipGap (gap ++ text ++ feed) = text ++ feed := by
        refine skipGap_iff.2 ⟨gap, by simp, hgap, ?_⟩
        intro c hc
        cases text with
        | nil => exact absurd rfl hne
        | cons d rest => exact hstop c hc
      simp only [freeText?, hskip]
      split
      · next hnil => simp [hne] at hnil
      · rw [dropFeed_append hfeed hend, if_neg hvalid]
    · have hskip : skipGap (gap ++ [c] ++ feed) = [] := by
        refine skipGap_iff.2 ⟨gap ++ [c] ++ feed, by simp, ?_, Stops.nil _⟩
        exact (hgap.append (by simpa [OnlyOf] using hc)).append hend.onlyOf
      have hlast : (dropFeed (gap ++ [c] ++ feed)).getLast?.toList = [c] := by
        rcases hend with rfl | rfl
        · have hne : c ≠ '\n' := by rintro rfl; simp at hfeed
          simp [dropFeed, hne]
        · simp [dropFeed]
      simp only [freeText?, hskip]
      rw [hlast, if_neg hvalid]

/-- A label in the rest of a line: none where only the end is left, and otherwise a colon behind a
gap and then a free text. -/
def Label (rest text : List Char) : Prop :=
  (LineEnd rest ∧ text = []) ∨
    ∃ gap line, rest = gap ++ ':' :: line ∧ OnlyOf isGap gap ∧ FreeText line text

/-- A label is taken exactly if it is the label of the rest. -/
theorem label?_iff {rest text : List Char} : label? rest = some text ↔ Label rest text := by
  by_cases hend : LineEnd rest
  · have hcolon : ¬ ∃ gap line, rest = gap ++ ':' :: line := by
      intro hparts
      obtain ⟨gap, line, rfl⟩ := hparts
      rcases hend with h | h
      · simp at h
      · rw [List.append_eq_singleton_iff] at h
        simp at h
    rw [label?, if_pos (atEnd_iff.2 hend), Option.some.injEq]
    constructor
    · exact fun h ↦ Or.inl ⟨hend, h.symm⟩
    · intro hcases
      rcases hcases with ⟨-, h⟩ | ⟨gap, line, h, -, -⟩
      · exact h.symm
      · exact absurd ⟨gap, line, h⟩ hcolon
  · rw [label?, if_neg (fun h ↦ hend (atEnd_iff.1 h))]
    simp only [bind, Option.bind_eq_some_iff, char?_iff, freeText?_iff, skipGap_iff]
    constructor
    · intro hparts
      obtain ⟨line, ⟨gap, hrest, hgap, -⟩, htext⟩ := hparts
      exact Or.inr ⟨gap, line, hrest, hgap, htext⟩
    · intro hcases
      rcases hcases with ⟨h, -⟩ | ⟨gap, line, hrest, hgap, htext⟩
      · exact absurd h hend
      · exact ⟨line, ⟨gap, hrest, hgap, Stops.cons (by decide)⟩, htext⟩

end ClassDiagram.Scan
