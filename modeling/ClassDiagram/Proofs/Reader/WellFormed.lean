import ClassDiagram.Proofs.Reader.Account
import ClassDiagram.Proofs.Reader.Parts

/-!
# Every model is well formed

The parts of a model are what the forms find in trimmed lines (`modelOf_wellFormed`), and its
unmatched lines are trimmed content lines that were dropped (`mem_unmatched_iff`). So a model is
well formed after any number of lines, whatever the lines are and however the source ends.

Only a multiplicity can hold a line feed, and only if a line has one inside. A line feed at either
end of a line is trimmed off, together with the blank characters around it: `Line.hasInnerFeed_iff`.
-/

namespace ClassDiagram

open Scan Text

/-- A line feed stands inside a line: there are other than blank characters both before and behind
it. -/
def Line.HasInnerFeed (raw : String) : Prop :=
  ∃ front back, raw.toList = front ++ '\n' :: back ∧ ¬ OnlyOf isBlank front ∧
    ¬ OnlyOf isBlank back

/-- A blank character in a trimmed text has other characters on both sides. -/
theorem Text.Trimmed.inner {before behind : List Char} {c : Char}
    (h : Trimmed (before ++ c :: behind)) (hc : isBlank c = true) :
    ¬ OnlyOf isBlank before ∧ ¬ OnlyOf isBlank behind := by
  -- otherwise the text would start or end with a blank character
  have hside : ∀ {part rest : List Char}, Stops isBlank (part ++ c :: rest) →
      ¬ OnlyOf isBlank part := by
    intro part rest hstops hall
    cases part with
    | nil =>
        have hnot := hstops c rfl
        rw [hc] at hnot
        cases hnot
    | cons d part =>
        have hnot := hstops d rfl
        rw [hall d List.mem_cons_self] at hnot
        cases hnot
  refine ⟨hside h.first, ?_⟩
  have hlast := h.last
  rw [List.reverse_append, List.reverse_cons, List.append_assoc, List.singleton_append] at hlast
  exact fun hall ↦ hside hlast fun d hd ↦ hall d (List.mem_reverse.1 hd)

/-- A character with other than blank characters on both sides is not trimmed off. -/
theorem mem_core_of_inner {front core back before behind : List Char} {c : Char}
    (htext : before ++ c :: behind = front ++ (core ++ back)) (hfront : OnlyOf isBlank front)
    (hback : OnlyOf isBlank back) (hbefore : ¬ OnlyOf isBlank before)
    (hbehind : ¬ OnlyOf isBlank behind) : c ∈ core := by
  rcases List.append_eq_append_iff.1 htext with ⟨more, hf, -⟩ | ⟨more, -, hrest⟩
  · exact absurd (fun d hd ↦ hfront d (by rw [hf]; exact List.mem_append_left _ hd)) hbefore
  rcases List.append_eq_append_iff.1 hrest with ⟨more', -, hb⟩ | ⟨more', hcore, hb⟩
  · refine absurd (fun d hd ↦ hback d ?_) hbehind
    rw [hb]
    exact List.mem_append_right _ (List.mem_cons_of_mem _ hd)
  · cases more' with
    | nil =>
        refine absurd (fun d hd ↦ hback d ?_) hbehind
        rw [← List.nil_append back, ← hb]
        exact List.mem_cons_of_mem _ hd
    | cons d more' =>
        rw [List.cons_append, List.cons.injEq] at hb
        rw [hcore, ← hb.1]
        simp

/-- The line feeds inside a line are those that trimming leaves. -/
theorem Line.hasInnerFeed_iff {raw : String} :
    Line.HasInnerFeed raw ↔ '\n' ∈ trim raw.toList := by
  obtain ⟨front, back, htext, hfront, hback, hcore⟩ := trim_iff.1 (Eq.refl (trim raw.toList))
  constructor
  · rintro ⟨before, behind, hraw, hbefore, hbehind⟩
    exact mem_core_of_inner (hraw.symm.trans htext) hfront hback hbefore hbehind
  · intro hfeed
    obtain ⟨before, behind, hsplit⟩ := List.append_of_mem hfeed
    rw [hsplit] at hcore htext
    obtain ⟨hbefore, hbehind⟩ := hcore.inner (by decide)
    refine ⟨front ++ before, behind ++ back, by rw [htext]; simp, ?_, ?_⟩
    · exact fun hall ↦ hbefore fun c hc ↦ hall c (List.mem_append_right _ hc)
    · exact fun hall ↦ hbehind fun c hc ↦ hall c (List.mem_append_left _ hc)

instance (raw : String) : Decidable (Line.HasInnerFeed raw) :=
  decidable_of_iff _ Line.hasInnerFeed_iff.symm

/-- An unmatched line as it can be kept: a trimmed text that is neither empty nor a closing brace
and starts with neither of the two marks of a line to skip. -/
structure UnmatchedLine.WellFormed (line : UnmatchedLine) : Prop where
  nonempty : line.text.toList ≠ []
  trimmed : Trimmed line.text.toList
  unmarked : ∀ c ∈ line.text.toList.head?, c ≠ '@' ∧ c ≠ '\''
  notBrace : line.text.toList ≠ ['}']

/-- A model as it can be read: each entity stands once and under its own name, the parts are well
formed, and so are the unmatched lines. -/
structure Model.WellFormed (model : Model) : Prop where
  distinct : model.entities.keys.Nodup
  named : ∀ entry ∈ model.entities.entries, entry.2.name = entry.1
  parts : model.Parts Fragment.WellFormed
  unmatched : ∀ line ∈ model.unmatched, line.WellFormed

/-- Unmatched lines are content lines. -/
theorem unmatched_wellFormed (strict : Bool) (lines : List String) :
    ∀ line ∈ (modelOf strict lines).unmatched, line.WellFormed := by
  intro line hline
  cases strict with
  | false =>
      rw [modelOf, (Reader.run_forget lines).1] at hline
      cases hline
  | true =>
      obtain ⟨i, -, hdropped⟩ := mem_unmatched_iff.1 hline
      obtain ⟨raw, -, htext⟩ := Option.bind_eq_some_iff.1 hdropped.content
      have hcontent : Line.classify raw = .content line.text := by
        unfold Line.text? at htext
        split at htext
        · next text h => rw [h, Option.some.inj htext]
        · cases htext
        · cases htext
      obtain ⟨htrim, hne, hbrace, hmark⟩ := Line.classify_content_iff.1 hcontent
      obtain ⟨_, _, _, _, _, htrimmed⟩ := trim_iff.1 htrim
      exact ⟨hne, htrimmed, hmark, hbrace⟩

/-- The model of any lines is well formed. -/
theorem wellFormed_modelOf (strict : Bool) (lines : List String) :
    (modelOf strict lines).WellFormed where
  distinct := (Reader.coherent_empty.run strict 1 lines).distinct
  named := (Reader.coherent_empty.run strict 1 lines).named
  parts := modelOf_wellFormed strict lines
  unmatched := unmatched_wellFormed strict lines

variable {ε : Type}

/-- However a source ends, what is read of it is the model of its lines. -/
theorem model_parse (strict : Bool) (source : Source ε) :
    (parse Grammar.standard strict source).reader.model = modelOf strict source.lines := by
  obtain ⟨hreader, hhalt⟩ := Reader.feedAll_standard strict {} 1 source.lines
  cases hending : source.ending <;>
    simp [parse, Reader.read, hhalt, hending, hreader, modelOf]

/-- With the standard grammar, the model is well formed after any number of lines of any source,
strict or not, and at the end of its reading. If no line has a line feed inside, then no
multiplicity has a line feed at any of these times. -/
theorem model_wellFormed_throughout (strict : Bool) (source : Source ε) :
    (∀ k, (({} : Reader).feedAll Grammar.standard strict 1
        (source.lines.take k)).reader.model.WellFormed) ∧
      (parse Grammar.standard strict source).reader.model.WellFormed ∧
      ((∀ raw ∈ source.lines, ¬ Line.HasInnerFeed raw) →
        (∀ k, (({} : Reader).feedAll Grammar.standard strict 1
            (source.lines.take k)).reader.model.Parts Fragment.OneLine) ∧
          (parse Grammar.standard strict source).reader.model.Parts Fragment.OneLine) := by
  have hfirst : ∀ k, (({} : Reader).feedAll Grammar.standard strict 1
      (source.lines.take k)).reader.model = modelOf strict (source.lines.take k) := by
    intro k
    rw [(Reader.feedAll_standard strict {} 1 _).1]
    rfl
  refine ⟨?_, ?_, ?_⟩
  · intro k
    rw [hfirst]
    exact wellFormed_modelOf strict _
  · rw [model_parse]
    exact wellFormed_modelOf strict _
  · intro hlines
    have hfeed : ∀ raw ∈ source.lines, '\n' ∉ trim raw.toList :=
      fun raw hraw hmem ↦ hlines raw hraw (Line.hasInnerFeed_iff.2 hmem)
    refine ⟨?_, ?_⟩
    · intro k
      rw [hfirst]
      exact modelOf_oneLine strict fun raw hraw ↦ hfeed raw (List.mem_of_mem_take hraw)
    · rw [model_parse]
      exact modelOf_oneLine strict hfeed

/-- Lines that end with line feeds, from a source that fails behind them. -/
theorem model_wellFormed_throughout_failing :
    let source : Source Unit :=
      ⟨["class A \x7b\n", "\n A \"1..*\" -- \"0\" B : has\r\n", "+ noise \n"], .failed ()⟩
    (∀ raw ∈ source.lines, ¬ Line.HasInnerFeed raw) ∧
      (parse Grammar.standard true source).reader.model.WellFormed ∧
      (parse Grammar.standard true source).reader.model.Parts Fragment.OneLine := by
  intro source
  have hlines : ∀ raw ∈ source.lines, ¬ Line.HasInnerFeed raw := by decide
  obtain ⟨-, hmodel, honeLine⟩ := model_wellFormed_throughout true source
  exact ⟨hlines, hmodel, (honeLine hlines).2⟩

end ClassDiagram
