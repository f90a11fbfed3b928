import ClassDiagram.Proofs.Form.Disjoint
import ClassDiagram.Proofs.Line

/-!
# Well-formed fragments

What a form finds in a trimmed line is well formed: names and connectors are runs of their
characters, multiplicities have no quote, and a label or an expression is a remark. A remark starts
outside the gap characters and ends outside the blank ones, so it can be written behind a colon and
a space and trimmed with its line, and stays as it is.
-/

namespace ClassDiagram

open Scan Text
open Form (isConnectorChar)

/-- A name: at least one character of a word, and no other character. -/
def IsName (text : String) : Prop := RunOf isWordChar text.toList

/-- What may stand behind the colon of a label or of an expression, up to the end of the line. -/
structure IsRemark (text : String) : Prop where
  nonempty : text.toList ≠ []
  oneLine : '\n' ∉ text.toList
  first : Stops isGap text.toList
  last : Stops isBlank text.toList.reverse

/-- A relationship as a form finds it. -/
structure Relationship.WellFormed (link : Relationship) : Prop where
  source : IsName link.source
  target : IsName link.target
  kind : RunOf isConnectorChar link.kind.toList
  sourceMultiplicity : '"' ∉ link.sourceMultiplicity.toList
  targetMultiplicity : '"' ∉ link.targetMultiplicity.toList
  label : link.label = "" ∨ IsRemark link.label

/-- A constraint as a form finds it. -/
structure Constraint.WellFormed (rule : Constraint) : Prop where
  kind : IsName rule.kind
  target : IsName rule.target
  expression : IsRemark rule.expression

namespace Fragment

/-- A fragment as a form finds it. -/
def WellFormed : Fragment → Prop
  | header name => IsName name
  | attr member => IsName member.name ∧ IsName member.type
  | method member => IsName member.name ∧ IsName member.returnType
  | relationship link => link.WellFormed
  | constraint rule => rule.WellFormed

/-- A fragment without a line feed in a multiplicity. No other part of a well-formed fragment can
have one. -/
def OneLine : Fragment → Prop
  | relationship link =>
    '\n' ∉ link.sourceMultiplicity.toList ∧ '\n' ∉ link.targetMultiplicity.toList
  | header _ | attr _ | method _ | constraint _ => True

/-- A fragment without the character in its multiplicities, its label and its expression. -/
def Lacks (c : Char) : Fragment → Prop
  | relationship link =>
    c ∉ link.sourceMultiplicity.toList ∧ c ∉ link.targetMultiplicity.toList ∧
      c ∉ link.label.toList
  | constraint rule => c ∉ rule.expression.toList
  | header _ | attr _ | method _ => True

variable {fragment : Fragment}

theorem Lacks.oneLine (h : fragment.Lacks '\n') : fragment.OneLine := by
  cases fragment with
  | header | attr | method | constraint => trivial
  | relationship link => exact ⟨h.1, h.2.1⟩

/-- Labels and expressions of well-formed fragments have no line feed. -/
theorem WellFormed.lacks_feed (h : fragment.WellFormed) (hfeed : fragment.OneLine) :
    fragment.Lacks '\n' := by
  cases fragment with
  | header | attr | method => trivial
  | constraint rule => exact Constraint.WellFormed.expression h |>.oneLine
  | relationship link =>
      refine ⟨hfeed.1, hfeed.2, ?_⟩
      rcases Relationship.WellFormed.label h with hempty | hremark
      · rw [hempty]
        exact List.not_mem_nil
      · exact hremark.oneLine

end Fragment

/-! ## What the forms find -/

theorem isName_ofList {word : List Char} (h : RunOf isWordChar word) :
    IsName (String.ofList word) := by
  rw [IsName, String.toList_ofList]
  exact h

/-- The rest of a line ends outside the blank characters, if the line does. -/
theorem stops_reverse_of_append {front rest : List Char}
    (h : Stops isBlank (front ++ rest).reverse) : Stops isBlank rest.reverse := by
  intro c hc
  apply h c
  rw [List.reverse_append, List.head?_append, Option.mem_def.1 hc]
  rfl

/-- The free text of a line is a remark, if the line does not end with a blank character. -/
theorem isRemark_of_freeText {line text : List Char} (h : FreeText line text)
    (hlast : Stops isBlank line.reverse) : IsRemark (String.ofList text) := by
  obtain ⟨gap, feed, hline, -, hend⟩ := h.parts
  -- a line feed behind the text would be a blank character
  have hfeed : feed = [] := by
    rcases hend with hnil | hfeed
    · exact hnil
    · rw [hline, hfeed] at hlast
      have hblank : isBlank '\n' = false := hlast '\n' (by simp)
      cases hblank
  have htext : Stops isBlank text.reverse := by
    rw [hline, hfeed, List.append_nil] at hlast
    exact stops_reverse_of_append hlast
  refine ⟨?_, ?_, ?_, ?_⟩
  · rw [String.toList_ofList]
    exact h.nonempty
  · rw [String.toList_ofList]
    exact h.oneLine
  · rw [String.toList_ofList]
    rcases h.start with hstart | ⟨c, hc, hgap⟩
    · exact hstart
    · -- the last character of a gap is blank, too
      rw [hc] at htext
      have hblank := htext c rfl
      rw [gap_isBlank hgap] at hblank
      cases hblank
  · rw [String.toList_ofList]
    exact htext

/-- The text of a multiplicity has no quote. -/
theorem not_quote_of_multiplicity {part text : List Char} (h : Multiplicity part text) :
    '"' ∉ (String.ofList text).toList := by
  rw [String.toList_ofList]
  rcases h with ⟨_, htext⟩ | ⟨_, _, _, _, hquote⟩
  · simp [htext]
  · exact hquote

/-- The characters of a multiplicity stand in its part of the line. -/
theorem mem_of_mem_multiplicity {part text : List Char} {c : Char} (h : Multiplicity part text)
    (hc : c ∈ (String.ofList text).toList) : c ∈ part := by
  rw [String.toList_ofList] at hc
  rcases h with ⟨_, htext⟩ | ⟨gap, hpart, _⟩
  · simp [htext] at hc
  · simp [hpart, hc]

/-- The characters of a free text stand in its line. -/
theorem mem_of_mem_freeText {line text : List Char} {c : Char} (h : FreeText line text)
    (hc : c ∈ (String.ofList text).toList) : c ∈ line := by
  rw [String.toList_ofList] at hc
  obtain ⟨_, _, hline, _⟩ := h.parts
  simp [hline, hc]

/-- The characters of a label stand in its part of the line. -/
theorem mem_of_mem_label {rest text : List Char} {c : Char} (h : Label rest text)
    (hc : c ∈ (String.ofList text).toList) : c ∈ rest := by
  rcases h with ⟨_, htext⟩ | ⟨gap, line, hrest, _, htext⟩
  · simp [htext] at hc
  · simp [hrest, mem_of_mem_freeText htext hc]

/-- The type in a type clause is a name. -/
theorem isName_of_typeClause? {line : List Char} {type : String}
    (h : Form.typeClause? line = some type) : IsName type := by
  obtain ⟨_, _, word, _, _, _, _, hword, _, htype⟩ := Form.typeClause?_iff.1 h
  rw [← htype]
  exact isName_ofList hword

/-- A relationship in a line that does not end with a blank character is well formed. -/
theorem wellFormed_of_relationship? {line : List Char} {link : Relationship}
    (h : Form.relationship? line = some link) (hlast : Stops isBlank line.reverse) :
    link.WellFormed := by
  obtain ⟨source, part₁, gap₁, kind, part₂, gap₂, target, tail, m₁, m₂, label, hline, hsource, hm₁,
    _, hkind, hm₂, _, htarget, hlabel, hlink⟩ := Form.relationship?_iff.1 h
  rw [← hlink]
  refine ⟨isName_ofList hsource, isName_ofList htarget, by rw [String.toList_ofList]; exact hkind,
    not_quote_of_multiplicity hm₁, not_quote_of_multiplicity hm₂, ?_⟩
  rcases hlabel with ⟨_, hlabel⟩ | ⟨gap, rest, htail, _, hlabel⟩
  · exact Or.inl (by rw [hlabel])
  · -- the label is the last part of the line
    have hsplit : line = (source ++ part₁ ++ gap₁ ++ kind ++ part₂ ++ gap₂ ++ target ++ gap ++
        [':']) ++ rest := by
      rw [hline, htail]
      simp
    rw [hsplit] at hlast
    exact Or.inr (isRemark_of_freeText hlabel (stops_reverse_of_append hlast))

/-- A constraint in a line that does not end with a blank character is well formed. -/
theorem wellFormed_of_constraint? {line : List Char} {rule : Constraint}
    (h : Form.constraint? line = some rule) (hlast : Stops isBlank line.reverse) :
    rule.WellFormed := by
  obtain ⟨gap₁, kind, gap₂, gap₃, target, gap₄, rest, expression, hline, _, hkind, _, _, htarget, _,
    hexpression, hrule⟩ := Form.constraint?_iff.1 h
  have hsplit : line = ("constraint".toList ++ gap₁ ++ kind ++ gap₂ ++ "on".toList ++ gap₃ ++
      target ++ gap₄ ++ [':']) ++ rest := by
    rw [hline]
    simp
  rw [hsplit] at hlast
  rw [← hrule]
  exact ⟨isName_ofList hkind, isName_ofList htarget,
    isRemark_of_freeText hexpression (stops_reverse_of_append hlast)⟩

/-- What any form finds in a line that does not end with a blank character is well formed. -/
theorem Form.wellFormed_of_recognise {form : Form} {text : String} {fragment : Fragment}
    (h : form.recognise text = some fragment) (hlast : Stops isBlank text.toList.reverse) :
    fragment.WellFormed := by
  cases form with
  | header =>
      obtain ⟨name, hname, hfragment⟩ := Option.map_eq_some_iff.1 h
      obtain ⟨_, _, word, _, _, _, _, _, hword, _, _, hname⟩ := Form.header?_iff.1 hname
      rw [← hfragment, ← hname]
      exact isName_ofList hword
  | attr =>
      obtain ⟨member, hmember, hfragment⟩ := Option.map_eq_some_iff.1 h
      obtain ⟨name, _, type, _, hname, htype, hmember⟩ := Form.attr?_iff.1 hmember
      rw [← hfragment, ← hmember]
      exact ⟨isName_ofList hname, isName_of_typeClause? htype⟩
  | method =>
      obtain ⟨member, hmember, hfragment⟩ := Option.map_eq_some_iff.1 h
      obtain ⟨name, _, _, type, _, hname, _, htype, hmember⟩ := Form.method?_iff.1 hmember
      rw [← hfragment, ← hmember]
      exact ⟨isName_ofList hname, isName_of_typeClause? htype⟩
  | relationship =>
      obtain ⟨link, hlink, hfragment⟩ := Option.map_eq_some_iff.1 h
      rw [← hfragment]
      exact wellFormed_of_relationship? hlink hlast
  | constraint =>
      obtain ⟨rule, hrule, hfragment⟩ := Option.map_eq_some_iff.1 h
      rw [← hfragment]
      exact wellFormed_of_constraint? hrule hlast

/-- What any form finds in a text has the characters of the text. -/
theorem Form.lacks_of_recognise {form : Form} {text : String} {fragment : Fragment} {c : Char}
    (h : form.recognise text = some fragment) (hc : c ∉ text.toList) : fragment.Lacks c := by
  cases form with
  | header | attr | method =>
      obtain ⟨_, _, hfragment⟩ := Option.map_eq_some_iff.1 h
      rw [← hfragment]
      trivial
  | constraint =>
      obtain ⟨rule, hrule, hfragment⟩ := Option.map_eq_some_iff.1 h
      obtain ⟨_, _, _, _, _, _, _, _, hline, _, _, _, _, _, _, hexpression, hrule⟩ :=
        Form.constraint?_iff.1 hrule
      rw [← hfragment, ← hrule]
      intro hmem
      refine hc ?_
      rw [hline]
      simp [mem_of_mem_freeText hexpression hmem]
  | relationship =>
      obtain ⟨link, hlink, hfragment⟩ := Option.map_eq_some_iff.1 h
      obtain ⟨_, _, _, _, _, _, _, _, _, _, _, hline, _, hm₁, _, _, hm₂, _, _, hlabel, hlink⟩ :=
        Form.relationship?_iff.1 hlink
      rw [← hfragment, ← hlink]
      rw [hline] at hc
      simp only [List.mem_append, not_or] at hc
      exact ⟨fun hmem ↦ hc.2.1 (mem_of_mem_multiplicity hm₁ hmem),
        fun hmem ↦ hc.2.2.2.2.1 (mem_of_mem_multiplicity hm₂ hmem),
        fun hmem ↦ hc.2.2.2.2.2.2.2 (mem_of_mem_label hlabel hmem)⟩

end ClassDiagram
