import ClassDiagram.Proofs.Output.RoundTrip
import ClassDiagram.Proofs.Reader.Entities
import ClassDiagram.Proofs.Text.Quotes

/-!
# Diagrams with a title

A title is written between quotes in front of the diagram, and read back like anything else. Its
line feeds are written as they are, so it may take up several lines, and a quote in it ends a quoted
text although a backslash stands before it. `title_changes_nothing_iff` says exactly when a diagram
reads back as its model all the same: the lines of the title have no relationship and no constraint,
and the entities that they declare come first in the model anyway, in the same order.

The reason for the last condition is that the diagram declares every entity of the model again. So
the members of an entity never come from the title, and only its place can. The two readers that are
compared read the same lines, one of them from the start and the other behind a title.
-/

namespace ClassDiagram

/-! ## The same lines from two starts -/

/-- Duplicates may be left out before or after a choice. -/
theorem eraseDups_filter {α : Type} [DecidableEq α] (p : α → Bool) (items : List α) :
    (items.filter p).eraseDups = items.eraseDups.filter p := by
  -- by induction on the length, since the duplicates of the first item are taken out of the rest
  induction hlength : items.length using Nat.strong_induction_on generalizing items with
  | _ length ih =>
      cases items with
      | nil => rfl
      | cons first rest =>
          have hshorter : (rest.filter (!· == first)).length < length := by
            have hle := List.length_filter_le (!· == first) rest
            rw [List.length_cons] at hlength
            omega
          have hrest := ih _ hshorter (rest.filter (!· == first)) rfl
          rw [List.eraseDups_cons]
          by_cases hfirst : p first = true
          · rw [List.filter_cons_of_pos hfirst, List.filter_cons_of_pos hfirst, ← hrest,
              List.eraseDups_cons, List.filter_filter, List.filter_filter]
            simp only [Bool.and_comm]
          · rw [List.filter_cons_of_neg hfirst, List.filter_cons_of_neg hfirst, ← hrest,
              List.filter_filter]
            congr 1
            apply List.filter_congr
            intro item _
            by_cases hitem : item = first
            · simp [hitem, hfirst]
            · simp [hitem]

namespace Reader

variable {reader : Reader}

/-- An entity that the lines declare has the same members wherever the reader starts. -/
theorem run_get?_of_header {name : String} {lines : List String} (h : name ∈ headerNames lines)
    (reader other : Reader) (strict : Bool) (number number' : Int) :
    (reader.run strict number lines).model.entities.get? name =
      (other.run strict number' lines).model.entities.get? name := by
  obtain ⟨before, header, after, hlines, hheader, hafter⟩ := exists_split_lastHeader h
  rw [hlines, run_lastHeader strict number hheader hafter,
    run_lastHeader strict number' hheader hafter]

/-- The names of lines that are read from the start. -/
theorem run_empty_keys (strict : Bool) (number : Int) (lines : List String) :
    (({} : Reader).run strict number lines).model.entities.keys =
      (headerNames lines).eraseDups := by
  have hrun := run_keys coherent_empty strict number lines
  simpa [Table.keys] using hrun

/-- A run adds the relationships and the constraints that its lines have by themselves. -/
theorem run_lists_alone (reader : Reader) (strict : Bool) (number : Int) (lines : List String) :
    (reader.run strict number lines).model.relationships =
        reader.model.relationships ++ (modelOf strict lines).relationships ∧
      (reader.run strict number lines).model.constraints =
        reader.model.constraints ++ (modelOf strict lines).constraints := by
  obtain ⟨hrelationships, hconstraints⟩ := run_lists strict reader number lines
  obtain ⟨halone, halone'⟩ := run_lists strict {} 1 lines
  rw [hrelationships, hconstraints, modelOf, halone, halone']
  exact ⟨rfl, rfl⟩

/-- A reader that has entities already ends with those of the lines alone exactly if its names are
the first of theirs. -/
theorem run_entities_iff (h : reader.Coherent) (strict : Bool) (number number' : Int)
    (lines : List String) :
    (reader.run strict number lines).model.entities =
        (({} : Reader).run strict number' lines).model.entities ↔
      reader.model.entities.keys <+:
        (({} : Reader).run strict number' lines).model.entities.keys := by
  have hkeys := run_keys h strict number lines
  have halone := run_empty_keys strict number' lines
  rw [eraseDups_filter, ← halone] at hkeys
  constructor
  · intro heq
    rw [← heq, hkeys]
    exact List.prefix_append _ _
  · intro hprefix
    obtain ⟨others, hothers⟩ := hprefix
    have hdistinct := (coherent_empty.run strict number' lines).distinct
    -- what the lines add to the reader is what follows its own names
    have hadded : (({} : Reader).run strict number' lines).model.entities.keys.filter
        (· ∉ reader.model.entities.keys) = others := by
      rw [← hothers] at hdistinct ⊢
      have hdisjoint := (List.nodup_append.1 hdistinct).2.2
      rw [List.filter_append, List.filter_eq_nil_iff.2 (by simp), List.nil_append,
        List.filter_eq_self]
      intro name hname
      simpa using fun hmem ↦ hdisjoint name hmem name hname rfl
    rw [hadded, hothers] at hkeys
    refine Table.ext_get? (hkeys ▸ hdistinct) hkeys ?_
    intro name hname
    rw [hkeys, halone, List.mem_eraseDups] at hname
    exact run_get?_of_header hname reader {} strict number number'

end Reader

/-! ## The lines of a title -/

/-- The lines that a title takes up in a diagram. An empty title is not written. -/
def titleLines (title : String) : List String :=
  if title = "" then [] else Text.linesOf (Document.titleLine title)

/-- The line of the title stands between the first line of a diagram and all the rest. -/
theorem lines_titled (model : Model) (title : String) :
    (Diagram.document model (some title)).lines = "@startuml" ::
      ((if title = "" then [] else [Document.titleLine title]) ++
        (Diagram.lines model ++ ["@enduml"])) := by
  by_cases hempty : title = ""
  · simp [Diagram.document, Document.start, Document.openingLines, Document.writeLines,
      Document.finish, hempty]
  · simp [Diagram.document, Document.start, Document.openingLines, Document.writeLines,
      Document.finish, hempty]

/-- The lines of the diagram of a writable model: those of the title stand between the first line
and all the rest. -/
theorem linesOf_titled {model : Model} (h : model.Writable) (title : String) :
    Text.linesOf (Diagram.document model (some title)).text =
      "@startuml" :: (titleLines title ++ (Diagram.lines model ++ ["@enduml", ""])) := by
  have hrest : ∀ raw ∈ Diagram.lines model ++ ["@enduml"], '\n' ∉ raw.toList := by
    intro raw hraw
    refine oneLine_document h raw ?_
    rw [lines_document]
    exact List.mem_cons_of_mem _ hraw
  have hfirst : Text.linesOf "@startuml" = ["@startuml"] := rfl
  rw [linesOf_text, lines_titled, List.flatMap_cons, hfirst, List.flatMap_append,
    flatMap_linesOf hrest, titleLines]
  by_cases hempty : title = ""
  · simp [hempty]
  · simp [hempty]

/-! ## Titles on one line -/

open Scan Text

/-- Escaping adds nothing but backslashes. -/
theorem mem_of_mem_escapeQuotes {c : Char} {text : String} (hc : c ≠ '\\')
    (h : c ∈ (escapeQuotes text).toList) : c ∈ text.toList := by
  rw [toList_escapeQuotes] at h
  obtain ⟨d, hd, hmem⟩ := List.mem_flatMap.1 h
  suffices hcd : c = d by rwa [hcd]
  unfold escape at hmem
  split_ifs at hmem with hback hquote
  · simp [hc] at hmem
  · simpa [hc, hquote] using hmem
  · simpa using hmem

/-- What stands behind the first word of the line of a title. -/
def titleTail (title : String) : List Char := ' ' :: '"' :: ((escapeQuotes title).toList ++ ['"'])

/-- The characters of the line of a title. -/
theorem toList_titleLine (title : String) :
    (Document.titleLine title).toList = "title".toList ++ titleTail title := by
  simp [Document.titleLine, titleTail]

/-- The first word of the line of a title. -/
theorem word?_titleLine (title : String) :
    word? (Document.titleLine title).toList = some ("title".toList, titleTail title) :=
  word?_iff.2 ⟨toList_titleLine title, by decide, Stops.cons (by decide)⟩

/-- What a form finds in the line of a title is what it finds in the line as it is. -/
theorem find?_titleLine {α : Type} (form? : List Char → Option α) (title : String) :
    Line.find? form? (Document.titleLine title) = form? (Document.titleLine title).toList := by
  have hend : EndsOutside isBlank ("title".toList ++ titleTail title) :=
    ⟨"title".toList ++ ' ' :: '"' :: (escapeQuotes title).toList, '"', by simp [titleTail],
      by decide⟩
  have htext : Line.classify (Document.titleLine title) =
      .content (String.ofList ("title".toList ++ titleTail title)) :=
    Line.classify_of_word (toList_titleLine title) (OnlyOf.nil _) (by decide) hend
  rw [Line.find?, Line.text?, htext, toList_titleLine]
  show form? (String.ofList _).toList = _
  rw [String.toList_ofList]

/-- The line of a title is no header, since its first word declares nothing. -/
theorem header?_titleLine (title : String) :
    Form.header? (Document.titleLine title).toList = none := by
  rw [Option.eq_none_iff_forall_ne_some]
  intro name hname
  obtain ⟨declarator, rest, hword, hdeclarator, _⟩ := Form.header?_scan.1 hname
  rw [word?_titleLine] at hword
  cases hword
  revert hdeclarator
  decide

/-- The line of a title is no constraint, since its first word is another one. -/
theorem constraint?_titleLine (title : String) :
    Form.constraint? (Document.titleLine title).toList = none := by
  rw [Option.eq_none_iff_forall_ne_some]
  intro rule hrule
  obtain ⟨keyword, rest, hword, hkeyword, _⟩ := Form.constraint?_scan.1 hrule
  rw [word?_titleLine] at hword
  cases hword
  revert hkeyword
  decide

/-- The line of a title without quotes is no relationship: its quoted text ends with the line, and
there is no connector behind it. -/
theorem relationship?_titleLine {title : String} (h : '"' ∉ title.toList) :
    Form.relationship? (Document.titleLine title).toList = none := by
  rw [Option.eq_none_iff_forall_ne_some]
  intro link hlink
  obtain ⟨source, rest, hword, text, rest', hquoted, rest'', hgap, _⟩ :=
    Form.relationship?_scan.1 hlink
  rw [word?_titleLine] at hword
  cases hword
  have hskip : skipGap (titleTail title) = '"' :: ((escapeQuotes title).toList ++ ['"']) := rfl
  have hescaped : '"' ∉ (escapeQuotes title).toList :=
    fun hmem ↦ h (mem_of_mem_escapeQuotes (by decide) hmem)
  rw [Form.multiplicity?, hskip] at hquoted
  obtain ⟨hline, _, _⟩ := quoted?_iff.1 hquoted
  have htail : (escapeQuotes title).toList ++ ['"'] = text ++ '"' :: rest' :=
    (List.cons.inj hline).2
  have hnil : rest' = [] := by
    rcases List.eq_nil_or_concat rest' with hnil | ⟨front, last, hlast⟩
    · exact hnil
    · -- otherwise the closing quote of the text is one of the title
      rw [hlast, List.concat_eq_append, ← List.cons_append, ← List.append_assoc] at htail
      refine absurd ?_ hescaped
      rw [(List.append_inj' htail rfl).1]
      simp
  rw [hnil] at hgap
  cases hgap

/-- A quote in the title ends the quoted text, so a relationship can follow. -/
example : Form.relationship? (Document.titleLine "1\" -- B : x").toList =
    some ⟨"title", "B", "--", "1\\", "", "x\""⟩ := by
  decide

/-- A title without a line feed takes up one line at most, so a form that finds nothing in it finds
nothing in the lines of the title. -/
theorem find?_titleLines {α : Type} {form? : List Char → Option α} {title : String}
    (hfeed : '\n' ∉ title.toList) (h : form? (Document.titleLine title).toList = none) :
    (titleLines title).filterMap (Line.find? form?) = [] := by
  have hescaped : '\n' ∉ (escapeQuotes title).toList :=
    fun hmem ↦ hfeed (mem_of_mem_escapeQuotes (by decide) hmem)
  have hline : '\n' ∉ (Document.titleLine title).toList := by
    rw [toList_titleLine]
    simp [titleTail, hescaped]
  rw [titleLines, linesOf_of_not_mem hline]
  split
  · rfl
  · rw [List.filterMap_cons_none (by rw [find?_titleLine, h]), List.filterMap_nil]

/-! ## The model of a diagram with a title -/

/-- A diagram with a title has the relationships and the constraints of the title before its own,
and it has its own entities exactly if those of the title come first among them. -/
theorem modelOf_titled {model : Model} (h : model.Writable) (strict : Bool) (title : String) :
    let titled := modelOf strict (titleLines title)
    let again := modelOf strict (Text.linesOf (Diagram.document model (some title)).text)
    (again.entities = model.entities ↔ titled.entities.keys <+: model.entities.keys) ∧
      again.relationships = titled.relationships ++ model.relationships ∧
      again.constraints = titled.constraints ++ model.constraints := by
  let rest : List String := Diagram.lines model ++ ["@enduml", ""]
  let behind : Reader := ({} : Reader).run strict 2 (titleLines title)
  have hstart : Item.ofLine "@startuml" = .skip := rfl
  -- without a title the rest of the lines has the model
  have hrest : (({} : Reader).run strict 2 rest).model = { model with unmatched := [] } := by
    have huntitled := modelOf_document strict h
    rw [modelOf, lines_document, List.cons_append, List.append_assoc, Reader.run_skip hstart]
      at huntitled
    exact huntitled
  have hagain : modelOf strict (Text.linesOf (Diagram.document model (some title)).text) =
      (behind.run strict (2 + (titleLines title).length) rest).model := by
    rw [linesOf_titled h, modelOf, Reader.run_skip hstart, Reader.run_append]
    rfl
  dsimp only
  rw [hagain]
  obtain ⟨hrelationships, hconstraints⟩ :=
    behind.run_lists_alone strict (2 + (titleLines title).length) rest
  obtain ⟨htitle, htitle'⟩ := ({} : Reader).run_lists_alone strict 2 (titleLines title)
  obtain ⟨hmodel, hmodel'⟩ := ({} : Reader).run_lists_alone strict 2 rest
  rw [hrest] at hmodel hmodel'
  refine ⟨?_, ?_, ?_⟩
  · have hsame := Reader.run_entities_iff (Reader.coherent_empty.run strict 2 (titleLines title))
      strict (2 + (titleLines title).length) 2 rest
    rw [hrest, Reader.run_empty_keys] at hsame
    rw [modelOf, Reader.run_empty_keys]
    exact hsame
  · rw [hrelationships, htitle, hmodel]
    simp
  · rw [hconstraints, htitle', hmodel']
    simp

/-- A title without line feeds and double quotes changes nothing. -/
theorem modelOf_plainTitle {model : Model} (h : model.Writable) (strict : Bool) {title : String}
    (hfeed : '\n' ∉ title.toList) (hquote : '"' ∉ title.toList) :
    let again := modelOf strict (Text.linesOf (Diagram.document model (some title)).text)
    again.entities = model.entities ∧ again.relationships = model.relationships ∧
      again.constraints = model.constraints := by
  obtain ⟨hentities, hrelationships, hconstraints⟩ := modelOf_titled h strict title
  obtain ⟨htitle, htitle'⟩ := Reader.run_lists strict {} 1 (titleLines title)
  rw [find?_titleLines hfeed (relationship?_titleLine hquote)] at htitle
  rw [find?_titleLines hfeed (constraint?_titleLine title)] at htitle'
  refine ⟨hentities.2 ?_, ?_, ?_⟩
  · rw [modelOf, Reader.run_empty_keys, headerNames,
      find?_titleLines hfeed (header?_titleLine title)]
    exact List.nil_prefix
  · rw [hrelationships, modelOf, htitle]
    rfl
  · rw [hconstraints, modelOf, htitle']
    rfl

variable {ε : Type}

/-- Reading a text, writing the diagram of its model with a title and reading that diagram changes
nothing in the entities, the relationships and the constraints exactly if the lines of the title by
themselves have no relationship and no constraint, and declare no other entities than the first ones
of the model, in the same order. A title on one line changes neither entities nor constraints, and
if it has no double quotes either, it changes nothing. -/
theorem title_changes_nothing_iff (strict : Bool) (text title : String) :
    ∃ model titled again,
      (parse Grammar.standard strict (Source.ofText text : Source ε)).model? = .ok model ∧
      (parse Grammar.standard false (⟨titleLines title, .finished⟩ : Source ε)).model? =
        .ok titled ∧
      (parse Grammar.standard false
        (Source.ofText (Diagram.document model (some title)).text : Source ε)).model? =
          .ok again ∧
      ((again.entities = model.entities ∧ again.relationships = model.relationships ∧
          again.constraints = model.constraints) ↔
        titled.entities.keys <+: model.entities.keys ∧ titled.relationships = [] ∧
          titled.constraints = []) ∧
      ('\n' ∉ title.toList →
        again.entities = model.entities ∧ again.constraints = model.constraints ∧
          ('"' ∉ title.toList → again.relationships = model.relationships)) := by
  have hwritable : (modelOf strict (Text.linesOf text)).Writable :=
    writable_modelOf strict fun raw hraw ↦ Text.not_feed_of_mem_linesOf hraw
  obtain ⟨hentities, hrelationships, hconstraints⟩ := modelOf_titled hwritable false title
  obtain ⟨htitle, htitle'⟩ := Reader.run_lists false {} 1 (titleLines title)
  refine ⟨modelOf strict (Text.linesOf text), modelOf false (titleLines title),
    modelOf false (Text.linesOf (Diagram.document _ (some title)).text),
    parse_text strict text, parse_lines false _, parse_text false _, ?_, ?_⟩
  · rw [hentities, hrelationships, hconstraints, List.append_left_eq_self,
      List.append_left_eq_self]
  · intro hfeed
    refine ⟨hentities.2 ?_, ?_, ?_⟩
    · rw [modelOf, Reader.run_empty_keys, headerNames,
        find?_titleLines hfeed (header?_titleLine title)]
      exact List.nil_prefix
    · rw [hconstraints, modelOf, htitle', find?_titleLines hfeed (constraint?_titleLine title)]
      rfl
    · intro hquote
      rw [hrelationships, modelOf, htitle, find?_titleLines hfeed (relationship?_titleLine hquote)]
      rfl

/-- A title with a line feed can declare an entity, which comes first in the diagram. -/
theorem title_declares_entity :
    ∃ model again,
      (parse Grammar.standard false (Source.ofText "class A \x7b\n\x7d\n" : Source Empty)).model? =
        .ok model ∧
      (parse Grammar.standard false
        (Source.ofText (Diagram.document model (some "x\nclass B\ny")).text :
          Source Empty)).model? = .ok again ∧
      model.entities.keys = ["A"] ∧ again.entities.keys = ["B", "A"] ∧
      ¬ (again.entities = model.entities ∧ again.relationships = model.relationships ∧
        again.constraints = model.constraints) := by
  have hmodel : (parse Grammar.standard false
      (Source.ofText "class A \x7b\n\x7d\n" : Source Empty)).model? =
        .ok { entities := ⟨[("A", ⟨"A", [], []⟩)]⟩ } := by
    decide
  refine ⟨_, { entities := ⟨[("B", ⟨"B", [], []⟩), ("A", ⟨"A", [], []⟩)]⟩ }, hmodel, ?_, rfl, rfl,
    ?_⟩
  · decide
  · simp

end ClassDiagram
