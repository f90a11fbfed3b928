import ClassDiagram.Proofs.Form.Grammar
import Mathlib.Data.List.Basic

/-!
# The splits of a relationship line

The parts of a relationship line follow one another in a fixed order, but a line can often be cut
into such parts in several ways: the text behind the colon may itself start with gap characters, so
the gap in front of it may end sooner or later. `RelationshipSplit` is any way to cut a line, with
no word on which one is found.

All splits of a line agree on everything in front of the colon, which is `RelationshipSplit.unique`.
Behind the colon the splits differ in the length of the gap, and the form takes the longest gap that
leaves some text (`freeText_iff_longest`). `relationship_form_exact` puts the two together: the form
accepts exactly the lines that have a split.
-/

namespace ClassDiagram.Scan

open Text

/-! ## The text behind a colon -/

/-- One way to cut what stands behind a colon: a gap, a text on one line, and the end of the line.
The text is not empty, and it may start with gap characters. -/
structure FreeCut (line gap text : List Char) : Prop where
  parts : ∃ feed, line = gap ++ (text ++ feed) ∧ LineEnd feed
  gap : OnlyOf isGap gap
  nonempty : text ≠ []
  oneLine : '\n' ∉ text

variable {line gap text gap' text' : List Char}

/-- A free text stands behind some gap. -/
theorem FreeText.exists_cut (h : FreeText line text) : ∃ gap, FreeCut line gap text := by
  obtain ⟨gap, feed, hline, hgap, hend⟩ := h.parts
  rw [List.append_assoc] at hline
  exact ⟨gap, ⟨feed, hline, hend⟩, hgap, h.nonempty, h.oneLine⟩

/-- Two cuts of a line end it in the same way: a line feed at its end is in neither text. -/
theorem length_eq_of_cuts (h : FreeCut line gap text) (h' : FreeCut line gap' text') :
    gap.length + text.length = gap'.length + text'.length := by
  -- a line feed that only one of the cuts leaves out would be the last character of the other text
  have hlast : ∀ {front front' text : List Char}, text ≠ [] → '\n' ∉ text →
      front ++ text ≠ front' ++ ['\n'] := by
    intro front front' text hne hfeed heq
    have hchar : (front ++ text).getLast? = some '\n' := by simp [heq]
    rw [List.getLast?_append_of_ne_nil _ hne] at hchar
    exact hfeed (List.mem_of_getLast? hchar)
  obtain ⟨feed, hline, hend⟩ := h.parts
  obtain ⟨feed', hline', hend'⟩ := h'.parts
  rw [hline] at hline'
  have hlength := congrArg List.length hline'
  rcases hend with rfl | rfl <;> rcases hend' with rfl | rfl
  · simpa using hlength
  · rw [List.append_nil, ← List.append_assoc] at hline'
    exact absurd hline' (hlast h.nonempty h.oneLine)
  · rw [List.append_nil, ← List.append_assoc] at hline'
    exact absurd hline'.symm (hlast h'.nonempty h'.oneLine)
  · simp only [List.length_append, List.length_singleton] at hlength
    omega

/-- The gap in front of a free text is as long as the gap of any cut. -/
theorem FreeText.length_le (h : FreeText line text) (hcut : FreeCut line gap text)
    (hcut' : FreeCut line gap' text') : gap'.length ≤ gap.length := by
  rcases h.start with hstart | ⟨c, hc, -⟩
  · obtain ⟨feed, hline, -⟩ := hcut.parts
    obtain ⟨feed', hline', -⟩ := hcut'.parts
    rcases List.append_eq_append_iff.1 (hline.symm.trans hline') with
      ⟨more, hgap', hrest⟩ | ⟨more, hgap, -⟩
    · cases more with
      | nil => simp [hgap']
      | cons d more =>
          -- the text would start with a gap character
          have hd : isGap d = true := hcut'.gap d (by simp [hgap'])
          have hhead : d ∈ text.head? := by
            cases htext : text with
            | nil => exact absurd htext hcut.nonempty
            | cons e rest =>
                rw [htext, List.cons_append, List.cons_append] at hrest
                simp [(List.cons.inj hrest).1]
          have hnot := hstart d hhead
          rw [hd] at hnot
          cases hnot
    · simp [hgap]
  · -- one character is left of the gap, and every text has as much
    have hlength := length_eq_of_cuts hcut hcut'
    have hone : text.length = 1 := by rw [hc]; rfl
    have hpos : 0 < text'.length := List.length_pos_iff_ne_nil.2 hcut'.nonempty
    omega

/-- A cut with the longest gap gives the free text. -/
theorem FreeCut.freeText (h : FreeCut line gap text)
    (hlongest : ∀ gap' text', FreeCut line gap' text' → gap'.length ≤ gap.length) :
    FreeText line text := by
  obtain ⟨feed, hline, hend⟩ := h.parts
  refine ⟨⟨gap, feed, by rw [hline, List.append_assoc], h.gap, hend⟩, h.nonempty, h.oneLine, ?_⟩
  cases text with
  | nil => exact absurd rfl h.nonempty
  | cons c rest =>
      by_cases hc : isGap c = true
      · cases rest with
        | nil => exact Or.inr ⟨c, rfl, hc⟩
        | cons d rest =>
            -- otherwise the first character of the text could go to the gap
            have hlonger : FreeCut line (gap ++ [c]) (d :: rest) :=
              ⟨⟨feed, by rw [hline]; simp, hend⟩, h.gap.append (by simpa [OnlyOf] using hc),
                List.cons_ne_nil _ _, fun hmem ↦ h.oneLine (List.mem_cons_of_mem _ hmem)⟩
            have hle := hlongest _ _ hlonger
            rw [List.length_append, List.length_singleton] at hle
            omega
      · exact Or.inl (Stops.cons (by simpa using hc))

/-- The free text of a line is the text of the cut with the longest gap. -/
theorem freeText_iff_longest :
    FreeText line text ↔ ∃ gap, FreeCut line gap text ∧
      ∀ gap' text', FreeCut line gap' text' → gap'.length ≤ gap.length := by
  constructor
  · intro h
    obtain ⟨gap, hcut⟩ := h.exists_cut
    exact ⟨gap, hcut, fun _ _ ↦ h.length_le hcut⟩
  · rintro ⟨gap, hcut, hlongest⟩
    exact hcut.freeText hlongest

/-- A line that can be cut at all has a free text. -/
theorem FreeCut.exists_freeText (h : FreeCut line gap text) : ∃ text', FreeText line text' := by
  -- gap characters go from the text to the gap until the text starts outside of them
  induction text generalizing gap with
  | nil => exact absurd rfl h.nonempty
  | cons c rest ih =>
      obtain ⟨feed, hline, hend⟩ := h.parts
      by_cases hmore : isGap c = true ∧ rest ≠ []
      · have hnext : FreeCut line (gap ++ [c]) rest :=
          ⟨⟨feed, by rw [hline]; simp, hend⟩, h.gap.append (by simpa [OnlyOf] using hmore.1),
            hmore.2, fun hmem ↦ h.oneLine (List.mem_cons_of_mem _ hmem)⟩
        exact ih hnext
      · refine ⟨c :: rest, ⟨gap, feed, by rw [hline, List.append_assoc], h.gap, hend⟩,
          h.nonempty, h.oneLine, ?_⟩
        by_cases hc : isGap c = true
        · have hrest : rest = [] := by simpa [hc] using hmore
          exact Or.inr ⟨c, by rw [hrest], hc⟩
        · exact Or.inl (Stops.cons (by simpa using hc))

/-! ## The rest behind the target -/

/-- One way to read the rest of a relationship line behind its target: the end of the line, or a gap
and a colon with a text that is cut in one way. -/
inductive LabelCut : List Char → List Char → List Char → Prop where
  | ending {rest : List Char} : LineEnd rest → LabelCut rest [] []
  | colon {before line gap text : List Char} : OnlyOf isGap before → FreeCut line gap text →
      LabelCut (before ++ ':' :: line) gap text

variable {rest : List Char}

/-- Behind the colon of a rest stands always the same line. -/
theorem colon_unique {before before' line' : List Char} (hbefore : OnlyOf isGap before)
    (hbefore' : OnlyOf isGap before') (h : before ++ ':' :: line = before' ++ ':' :: line') :
    line = line' := by
  have hcolon : ∀ line, Stops isGap (':' :: line) := fun _ ↦ Stops.cons rfl
  obtain ⟨-, hrest⟩ := append_inj_of_stops h hbefore hbefore' (hcolon _) (hcolon _)
  exact (List.cons.inj hrest).2

/-- The end of a line has no colon. -/
theorem LineEnd.ne_colon {before : List Char} (h : LineEnd rest) :
    rest ≠ before ++ ':' :: line := by
  intro hrest
  have hmem : ':' ∈ rest := by rw [hrest]; simp
  rcases h with rfl | rfl <;> simp at hmem

/-- The label of a rest is the text of the reading with the longest gap behind the colon. -/
theorem label_iff_longest :
    Label rest text ↔ ∃ gap, LabelCut rest gap text ∧
      ∀ gap' text', LabelCut rest gap' text' → gap'.length ≤ gap.length := by
  constructor
  · rintro (⟨hend, rfl⟩ | ⟨before, line, rfl, hbefore, hfree⟩)
    · refine ⟨[], .ending hend, ?_⟩
      rintro gap' text' hcut
      cases hcut with
      | ending => exact Nat.le_refl _
      | colon hbefore hcut => exact absurd rfl hend.ne_colon
    · obtain ⟨gap, hcut, hlongest⟩ := freeText_iff_longest.1 hfree
      refine ⟨gap, .colon hbefore hcut, ?_⟩
      rintro gap' text' hother
      generalize hrest : before ++ ':' :: line = rest at hother
      cases hother with
      | ending => exact Nat.zero_le _
      | colon hbefore' hcut' =>
          rw [← colon_unique hbefore hbefore' hrest] at hcut'
          exact hlongest _ _ hcut'
  · rintro ⟨gap, hcut, hlongest⟩
    cases hcut with
    | ending hend => exact Or.inl ⟨hend, rfl⟩
    | @colon before line _ _ hbefore hcut =>
        exact Or.inr ⟨before, line, rfl, hbefore,
          hcut.freeText fun gap' text' h ↦ hlongest _ _ (.colon hbefore h)⟩

/-- A rest that can be read at all has a label. -/
theorem LabelCut.exists_label (h : LabelCut rest gap text) : ∃ text', Label rest text' := by
  cases h with
  | ending hend => exact ⟨[], Or.inl ⟨hend, rfl⟩⟩
  | @colon before line _ _ hbefore hcut =>
      obtain ⟨text', hfree⟩ := hcut.exists_freeText
      exact ⟨text', Or.inr ⟨before, line, rfl, hbefore, hfree⟩⟩

end ClassDiagram.Scan

namespace ClassDiagram

open Scan Text Form

/-! ## Splits -/

/-- One way to cut a line into the parts of a relationship. A multiplicity is part of the line with
the gap in front of it and its quotes, or it is empty and so is its part of the line. -/
structure RelationshipSplit (line : List Char) where
  source : List Char
  sourceMultiplicity : List Char
  /-- The part of the line with the multiplicity at the source. -/
  sourcePart : List Char
  gap : List Char
  kind : List Char
  targetMultiplicity : List Char
  /-- The part of the line with the multiplicity at the target. -/
  targetPart : List Char
  gap' : List Char
  target : List Char
  /-- Everything behind the target. -/
  rest : List Char
  /-- The gap behind the colon, empty if there is no colon. -/
  white : List Char
  label : List Char
  line_eq : line =
    source ++ (sourcePart ++ (gap ++ (kind ++ (targetPart ++ (gap' ++ (target ++ rest))))))
  source_run : RunOf isWordChar source
  source_quoted : Multiplicity sourcePart sourceMultiplicity
  gap_run : RunOf isGap gap
  kind_run : RunOf isConnectorChar kind
  target_quoted : Multiplicity targetPart targetMultiplicity
  gap_run' : RunOf isGap gap'
  target_run : RunOf isWordChar target
  rest_cut : LabelCut rest white label

namespace RelationshipSplit

variable {line : List Char}

/-- The relationship that a split has, with the given label. -/
def link (split : RelationshipSplit line) (label : List Char) : Relationship where
  source := String.ofList split.source
  target := String.ofList split.target
  kind := String.ofList split.kind
  sourceMultiplicity := String.ofList split.sourceMultiplicity
  targetMultiplicity := String.ofList split.targetMultiplicity
  label := String.ofList label

/-- The form finds the relationship of a split, with the label of the rest. -/
theorem relationship?_eq (split : RelationshipSplit line) {label : List Char}
    (h : Label split.rest label) : relationship? line = some (split.link label) :=
  relationship?_iff.2 ⟨_, _, _, _, _, _, _, _, _, _, _, split.line_eq, split.source_run,
    split.source_quoted, split.gap_run, split.kind_run, split.target_quoted, split.gap_run',
    split.target_run, h, rfl⟩

/-- A relationship that the form finds has a split with its label. -/
theorem exists_of_relationship? {link : Relationship} (h : relationship? line = some link) :
    ∃ split : RelationshipSplit line, Label split.rest split.label ∧
      split.link split.label = link ∧
      ∀ gap text, LabelCut split.rest gap text → gap.length ≤ split.white.length := by
  obtain ⟨source, part, gap, kind, part', gap', target, rest, m, m', label, hline, hsource, hpart,
    hgap, hkind, hpart', hgap', htarget, hlabel, hlink⟩ := relationship?_iff.1 h
  obtain ⟨white, hcut, hlongest⟩ := label_iff_longest.1 hlabel
  exact ⟨⟨source, m, part, gap, kind, m', part', gap', target, rest, white, label, hline, hsource,
    hpart, hgap, hkind, hpart', hgap', htarget, hcut⟩, hlabel, hlink, hlongest⟩

/-- Two splits of a line have the same parts up to the target, and the same rest. -/
theorem unique (split other : RelationshipSplit line) :
    split.source = other.source ∧ split.sourceMultiplicity = other.sourceMultiplicity ∧
      split.kind = other.kind ∧ split.targetMultiplicity = other.targetMultiplicity ∧
      split.target = other.target ∧ split.rest = other.rest := by
  have hstops : ∀ split : RelationshipSplit line, Stops isWordChar split.rest := by
    intro split
    obtain ⟨label, hlabel⟩ := split.rest_cut.exists_label
    exact stops_word_of_label hlabel
  -- the parts are taken off from the left, and each stops where the next one starts
  obtain ⟨hsource, hline⟩ := append_inj_of_stops (split.line_eq.symm.trans other.line_eq)
    split.source_run.2 other.source_run.2
    (stops_of_multiplicity split.source_quoted split.gap_run (fun _ ↦ not_word_of_gap) rfl)
    (stops_of_multiplicity other.source_quoted other.gap_run (fun _ ↦ not_word_of_gap) rfl)
  have hquoted := congrArg multiplicity? hline
  rw [multiplicity?_append split.source_quoted split.gap_run split.kind_run
      (fun _ ↦ not_gap_of_connector) rfl,
    multiplicity?_append other.source_quoted other.gap_run other.kind_run
      (fun _ ↦ not_gap_of_connector) rfl, Option.some.injEq, Prod.mk.injEq] at hquoted
  obtain ⟨-, hline⟩ := append_inj_of_stops hquoted.2 split.gap_run.2 other.gap_run.2
    (split.kind_run.stops fun _ ↦ not_gap_of_connector)
    (other.kind_run.stops fun _ ↦ not_gap_of_connector)
  obtain ⟨hkind, hline⟩ := append_inj_of_stops hline split.kind_run.2 other.kind_run.2
    (stops_of_multiplicity split.target_quoted split.gap_run' (fun _ ↦ not_connector_of_gap) rfl)
    (stops_of_multiplicity other.target_quoted other.gap_run' (fun _ ↦ not_connector_of_gap) rfl)
  have hquoted' := congrArg multiplicity? hline
  rw [multiplicity?_append split.target_quoted split.gap_run' split.target_run
      (fun _ ↦ not_gap_of_word) rfl,
    multiplicity?_append other.target_quoted other.gap_run' other.target_run
      (fun _ ↦ not_gap_of_word) rfl, Option.some.injEq, Prod.mk.injEq] at hquoted'
  obtain ⟨-, hline⟩ := append_inj_of_stops hquoted'.2 split.gap_run'.2 other.gap_run'.2
    (split.target_run.stops fun _ ↦ not_gap_of_word)
    (other.target_run.stops fun _ ↦ not_gap_of_word)
  obtain ⟨htarget, hrest⟩ := append_inj_of_stops hline split.target_run.2 other.target_run.2
    (hstops split) (hstops other)
  exact ⟨hsource, hquoted.1, hkind, hquoted'.1, htarget, hrest⟩

end RelationshipSplit

/-- The form of relationships accepts exactly the lines that can be cut into the parts of a
relationship. All splits of a line have the names, the connector and the multiplicities of the
relationship that the form finds. Its label is that of every split with the longest gap behind the
colon, and there is such a split. -/
theorem relationship_form_exact (line : String) :
    ((Form.relationship.recognise line).isSome ↔ Nonempty (RelationshipSplit line.toList)) ∧
    ∀ fragment, Form.relationship.recognise line = some fragment →
      ∃ link, fragment = .relationship link ∧
        (∀ split : RelationshipSplit line.toList,
          String.ofList split.source = link.source ∧ String.ofList split.kind = link.kind ∧
          String.ofList split.target = link.target ∧
          String.ofList split.sourceMultiplicity = link.sourceMultiplicity ∧
          String.ofList split.targetMultiplicity = link.targetMultiplicity) ∧
        (∀ split : RelationshipSplit line.toList,
          (∀ other : RelationshipSplit line.toList, other.white.length ≤ split.white.length) →
            String.ofList split.label = link.label) ∧
        ∃ split : RelationshipSplit line.toList,
          ∀ other : RelationshipSplit line.toList, other.white.length ≤ split.white.length := by
  refine ⟨?_, ?_⟩
  · rw [Form.recognise, Option.isSome_map]
    constructor
    · intro h
      obtain ⟨link, hlink⟩ := Option.isSome_iff_exists.1 h
      obtain ⟨split, -⟩ := RelationshipSplit.exists_of_relationship? hlink
      exact ⟨split⟩
    · rintro ⟨split⟩
      obtain ⟨label, hlabel⟩ := split.rest_cut.exists_label
      rw [split.relationship?_eq hlabel]
      rfl
  · intro fragment hfragment
    obtain ⟨link, hlink, rfl⟩ := Option.map_eq_some_iff.1 hfragment
    obtain ⟨found, -, rfl, hlongest⟩ := RelationshipSplit.exists_of_relationship? hlink
    have hfound : ∀ other : RelationshipSplit line.toList,
        other.white.length ≤ found.white.length := by
      intro other
      obtain ⟨-, -, -, -, -, hrest⟩ := found.unique other
      exact hlongest other.white other.label (hrest ▸ other.rest_cut)
    refine ⟨_, rfl, ?_, ?_, found, hfound⟩
    · intro split
      obtain ⟨hsource, hm, hkind, hm', htarget, -⟩ := split.unique found
      rw [hsource, hm, hkind, hm', htarget]
      exact ⟨rfl, rfl, rfl, rfl, rfl⟩
    · intro split hsplit
      -- a split with the longest gap has the label of its rest, and the form finds that one
      have hlabel : Label split.rest split.label := by
        refine label_iff_longest.2 ⟨split.white, split.rest_cut, ?_⟩
        intro gap text hcut
        obtain ⟨-, -, -, -, -, hrest⟩ := split.unique found
        exact Nat.le_trans (hlongest gap text (hrest ▸ hcut)) (hsplit found)
      have hsame := (split.relationship?_eq hlabel).symm.trans hlink
      exact congrArg Relationship.label (Option.some.inj hsame)

/-- Only gap characters follow the colon, so the label is the last of them in front of the line
feed. The connector is a letter, and one multiplicity has a line feed in it. -/
theorem relationship_form_exact_white :
    let line : String := "A \"1\" o\t\"2\n\" B : \t\n"
    Form.relationship.recognise line =
        some (.relationship ⟨"A", "B", "o", "1", "2\n", "\t"⟩) ∧
      (∀ split : RelationshipSplit line.toList,
        String.ofList split.source = "A" ∧ String.ofList split.kind = "o" ∧
        String.ofList split.target = "B" ∧ String.ofList split.sourceMultiplicity = "1" ∧
        String.ofList split.targetMultiplicity = "2\n") ∧
      ∃ split : RelationshipSplit line.toList, String.ofList split.label = "\t" ∧
        ∀ other : RelationshipSplit line.toList, other.white.length ≤ split.white.length := by
  intro line
  have hfound : Form.relationship.recognise line =
      some (.relationship ⟨"A", "B", "o", "1", "2\n", "\t"⟩) := by
    decide
  obtain ⟨link, hlink, hparts, hlabel, split, hsplit⟩ := (relationship_form_exact line).2 _ hfound
  cases hlink
  exact ⟨hfound, hparts, split, hlabel split hsplit, hsplit⟩

end ClassDiagram
