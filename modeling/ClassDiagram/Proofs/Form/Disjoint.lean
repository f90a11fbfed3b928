import ClassDiagram.Proofs.Form.Grammar

/-!
# No line has two forms

A line shows its form by what follows its first word, and if that is another word, by what follows
the second and the third one. `mark` reads the form off in this way, without looking at the rest of
the line. Every form agrees with the mark, so two forms that recognise the same line are the same,
which is `recognise_unique`. The one place where this is not plain is a connector made of the
letter `o`, which is also a word: there the two readings end at the same place, by
`run?_rest_unique`, and the mark is found behind it.

Consequently a line has at most one fragment, whichever form finds it: `recognise_iff` says that
the search through all forms in `fragment?` decides what any single form finds.
-/

namespace ClassDiagram.Form

open Scan Text

/-! ## The mark of a line -/

/-- The form of a line by what comes behind its second word and the gap there. -/
def markThird (third : List Char) : Form :=
  if third = [] ∨ third.head? = some '{' then .header
  else
    match word? third with
    | some (_, rest) => if (skipGap rest).head?.any isWordChar then .constraint else .relationship
    | none => .relationship

/-- The form of a line by what comes behind its first word and the gap there. -/
def markSecond (second : List Char) : Form :=
  if second.head? = some ':' then .attr
  else if second.head? = some '(' then .method
  else
    match word? second with
    | some (_, rest) => markThird (skipGap rest)
    | none => .relationship

/-- The form that a line shows by the characters behind its words, if it starts with a word. -/
def mark (line : List Char) : Option Form :=
  (word? line).map fun parts ↦ markSecond (skipGap parts.2)

theorem mark_eq {line word rest : List Char} (h : word? line = some (word, rest)) :
    mark line = some (markSecond (skipGap rest)) := by
  simp [mark, h]

/-- A run starts with a character of its class. -/
theorem head?_of_run? {p : Char → Bool} {line run rest : List Char}
    (h : run? p line = some (run, rest)) : ∃ c, line.head? = some c ∧ p c = true := by
  obtain ⟨rfl, ⟨hne, hall⟩, -⟩ := run?_iff.1 h
  cases run with
  | nil => exact absurd rfl hne
  | cons c tail => exact ⟨c, rfl, hall c List.mem_cons_self⟩

/-- Behind a first and a second word, the mark is found in third place. -/
theorem markSecond_of_word {second word rest : List Char} (h : word? second = some (word, rest)) :
    markSecond second = markThird (skipGap rest) := by
  obtain ⟨c, hhead, hc⟩ := head?_of_run? h
  have hcolon : c ≠ ':' := ne_of_word hc (by decide)
  have hparen : c ≠ '(' := ne_of_word hc (by decide)
  simp [markSecond, hhead, hcolon, hparen, h]

/-- Behind a third word, the mark is a word character or not. -/
theorem markThird_of_word {third word rest : List Char} (h : word? third = some (word, rest)) :
    markThird third =
      if (skipGap rest).head?.any isWordChar then .constraint else .relationship := by
  obtain ⟨c, hhead, hc⟩ := head?_of_run? h
  have hne : third ≠ [] := by
    intro hnil
    simp [hnil] at hhead
  have hbrace : c ≠ '{' := ne_of_word hc (by decide)
  simp [markThird, hne, hhead, hbrace, h]

/-- No word is taken from a text that starts with another character. -/
theorem word?_eq_none {text : List Char} {c : Char} (hhead : text.head? = some c)
    (hword : isWordChar c = false) : word? text = none := by
  cases h : word? text with
  | none => rfl
  | some parts =>
      obtain ⟨d, hd, hmem⟩ := head?_of_run? h
      cases hhead.symm.trans hd
      simp [hword] at hmem

/-- A second place that starts with no word character is the mark of a relationship, unless it is a
colon or a parenthesis. -/
theorem markSecond_of_not_word {second : List Char} {c : Char} (hhead : second.head? = some c)
    (hword : isWordChar c = false) (hcolon : c ≠ ':') (hparen : c ≠ '(') :
    markSecond second = .relationship := by
  simp [markSecond, hhead, hcolon, hparen, word?_eq_none hhead hword]

/-- A third place that starts with no word character is the mark of a relationship, unless it is a
brace. -/
theorem markThird_of_not_word {third : List Char} {c : Char} (hhead : third.head? = some c)
    (hword : isWordChar c = false) (hbrace : c ≠ '{') : markThird third = .relationship := by
  have hne : third ≠ [] := by
    intro hnil
    simp [hnil] at hhead
  simp [markThird, hne, hhead, hbrace, word?_eq_none hhead hword]

/-! ## Each form has its mark -/

theorem mark_of_attr? {line : List Char} {a : Attribute} (h : attr? line = some a) :
    mark line = some .attr := by
  obtain ⟨name, rest, hname, type, htype, -⟩ := attr?_scan.1 h
  obtain ⟨tail, hcolon, -⟩ := typeClause?_scan.1 htype
  simp [mark_eq hname, hcolon, markSecond]

theorem mark_of_method? {line : List Char} {m : Method} (h : method? line = some m) :
    mark line = some .method := by
  obtain ⟨name, _, hname, rest, rfl, -⟩ := method?_scan.1 h
  have hskip : skipGap ('(' :: rest) = '(' :: rest := skipGap_of_stops (Stops.cons (by decide))
  simp [mark_eq hname, hskip, markSecond]

theorem mark_of_header? {line : List Char} {name : String} (h : header? line = some name) :
    mark line = some .header := by
  obtain ⟨declarator, rest, hdecl, -, rest', hgap, word, tail, hword, htail, -⟩ := header?_scan.1 h
  rw [mark_eq hdecl, skipGap_of_gap? hgap, markSecond_of_word hword]
  rcases htail with htail | htail | htail <;> simp [htail, markThird]

theorem mark_of_constraint? {line : List Char} {c : Constraint} (h : constraint? line = some c) :
    mark line = some .constraint := by
  obtain ⟨_, rest₁, hword₁, -, rest₂, hgap₁, kind, rest₃, hkind, rest₄, hgap₂, _, rest₅, hword₂, -,
    rest₆, hgap₃, target, rest₇, htarget, -⟩ := constraint?_scan.1 h
  obtain ⟨d, hhead, hd⟩ := head?_of_run? htarget
  rw [mark_eq hword₁, skipGap_of_gap? hgap₁, markSecond_of_word hkind, skipGap_of_gap? hgap₂,
    markThird_of_word hword₂, skipGap_of_gap? hgap₃]
  simp [hhead, hd]

/-- Two runs that start at the same place end at the same place, if neither could go on where the
other ends. -/
theorem run?_rest_unique {p q : Char → Bool} {line run run' rest rest' : List Char}
    (h : run? p line = some (run, rest)) (h' : run? q line = some (run', rest'))
    (hrest : Stops q rest) (hrest' : Stops p rest') : rest = rest' := by
  obtain ⟨hline, ⟨-, hall⟩, -⟩ := run?_iff.1 h
  obtain ⟨hline', ⟨-, hall'⟩, -⟩ := run?_iff.1 h'
  -- the longer run would hold a character at which the shorter one had to stop
  rcases List.append_eq_append_iff.1 (hline.symm.trans hline') with
    ⟨more, hrun, hr⟩ | ⟨more, hrun, hr⟩
  · cases more with
    | nil => simpa using hr
    | cons c tail =>
        have hc : q c = true := hall' c (by simp [hrun])
        have hstop : q c = false := hrest c (by simp [hr])
        simp [hc] at hstop
  · cases more with
    | nil => simpa using hr.symm
    | cons c tail =>
        have hc : p c = true := hall c (by simp [hrun])
        have hstop : p c = false := hrest' c (by simp [hr])
        simp [hc] at hstop

/-- What stands in front of a gap behind a multiplicity: the quote of the multiplicity, or nothing
if there is none. -/
theorem skipGap_of_multiplicity? {line text rest rest' : List Char}
    (h : multiplicity? line = some (text, rest)) (hgap : gap? rest = some rest') :
    (skipGap line).head? = some '"' ∨ skipGap line = rest' := by
  obtain ⟨part, rfl, ⟨rfl, -⟩ | ⟨gap, rfl, hall, -⟩, -⟩ := multiplicity?_iff.1 h
  · exact Or.inr (skipGap_of_gap? hgap)
  · left
    simp only [List.append_assoc, List.cons_append]
    rw [skipGap_append hall (Stops.cons (by decide))]
    rfl

/-- No word character comes in front of a label. -/
theorem not_word_of_label? {rest text : List Char} (h : label? rest = some text) :
    (skipGap rest).head?.any isWordChar = false := by
  have hlabel : Label rest text := label?_iff.1 h
  rcases hlabel with ⟨hend, -⟩ | ⟨gap, line, hrest, hgap, -⟩
  · rcases hend with hend | hend <;> rw [hend] <;> decide
  · rw [hrest, skipGap_append hgap (Stops.cons (by decide))]
    show isWordChar ':' = false
    decide

/-- A character of a connector is none of the marks of the other forms. -/
theorem ne_of_connector {c d : Char} (h : isConnectorChar c = true)
    (hd : isConnectorChar d = false) : c ≠ d := by
  intro heq
  simp [heq, hd] at h

theorem mark_of_relationship? {line : List Char} {r : Relationship}
    (h : relationship? line = some r) : mark line = some .relationship := by
  obtain ⟨source, rest₁, hsource, m₁, rest₂, hm₁, rest₃, hgap₁, kind, rest₄, hkind, m₂, rest₅, hm₂,
    rest₆, hgap₂, target, rest₇, htarget, label, hlabel, -⟩ := relationship?_scan.1 h
  rw [mark_eq hsource, Option.some.injEq]
  rcases skipGap_of_multiplicity? hm₁ hgap₁ with hquote | hskip
  · exact markSecond_of_not_word hquote (by decide) (by decide) (by decide)
  rw [hskip]
  obtain ⟨c, hhead, hc⟩ := head?_of_run? hkind
  cases hword : word? rest₃ with
  | none =>
      -- the connector shows the form by itself
      simp [markSecond, hhead, ne_of_connector hc, hword, isConnectorChar]
  | some parts =>
      -- the connector starts with the letter that is also a word
      obtain ⟨word, tail⟩ := parts
      rw [markSecond_of_word hword]
      obtain ⟨-, -, hstop⟩ := word?_iff.1 hword
      by_cases hmore : Stops isConnectorChar tail
      · have hend : tail = rest₄ := by
          refine run?_rest_unique hword hkind hmore ?_
          obtain ⟨part₂, rfl, hpart₂, -⟩ := multiplicity?_iff.1 hm₂
          obtain ⟨gap₂, rfl, hrun, -⟩ := gap?_iff.1 hgap₂
          exact stops_of_multiplicity hpart₂ hrun (fun _ ↦ not_word_of_gap) (by decide)
        rw [hend]
        rcases skipGap_of_multiplicity? hm₂ hgap₂ with hquote | hskip
        · exact markThird_of_not_word hquote (by decide) (by decide)
        · rw [hskip, markThird_of_word htarget, not_word_of_label? hlabel]
          rfl
      · simp only [Stops, not_forall, Bool.not_eq_false] at hmore
        obtain ⟨d, hd, hconnector⟩ := hmore
        have htail : skipGap tail = tail := by
          refine skipGap_of_stops ?_
          intro e he
          cases (Option.mem_def.1 hd).symm.trans (Option.mem_def.1 he)
          exact not_gap_of_connector hconnector
        rw [htail]
        exact markThird_of_not_word hd (hstop d hd) (ne_of_connector hconnector (by decide))

/-! ## The fragment of a line -/

/-- Every form, those of members first. -/
def all : List Form := [.attr, .method, .header, .relationship, .constraint]

theorem mem_all (form : Form) : form ∈ all := by
  cases form <;> decide

/-- A form recognises only lines that have its mark. -/
theorem mark_of_recognise {form : Form} {line : String} {fragment : Fragment}
    (h : form.recognise line = some fragment) : mark line.toList = some form := by
  cases form with
  | header =>
      obtain ⟨name, hname, -⟩ := Option.map_eq_some_iff.1 h
      exact mark_of_header? hname
  | attr =>
      obtain ⟨a, ha, -⟩ := Option.map_eq_some_iff.1 h
      exact mark_of_attr? ha
  | method =>
      obtain ⟨m, hm, -⟩ := Option.map_eq_some_iff.1 h
      exact mark_of_method? hm
  | relationship =>
      obtain ⟨r, hr, -⟩ := Option.map_eq_some_iff.1 h
      exact mark_of_relationship? hr
  | constraint =>
      obtain ⟨c, hc, -⟩ := Option.map_eq_some_iff.1 h
      exact mark_of_constraint? hc

/-- Two forms that recognise the same line are the same. -/
theorem recognise_unique {f g : Form} {line : String} {x y : Fragment}
    (hf : f.recognise line = some x) (hg : g.recognise line = some y) : f = g :=
  Option.some.inj ((mark_of_recognise hf).symm.trans (mark_of_recognise hg))

/-- The fragment of a line, whichever form finds it. -/
def fragment? (line : String) : Option Fragment := all.findSome? (·.recognise line)

end ClassDiagram.Form

namespace ClassDiagram

/-- The form that finds a fragment. -/
def Fragment.form : Fragment → Form
  | .header _ => .header
  | .attr _ => .attr
  | .method _ => .method
  | .relationship _ => .relationship
  | .constraint _ => .constraint

namespace Form

/-- A form finds fragments of its own kind. -/
theorem form_of_recognise {form : Form} {line : String} {fragment : Fragment}
    (h : form.recognise line = some fragment) : fragment.form = form := by
  cases form <;> obtain ⟨_, -, rfl⟩ := Option.map_eq_some_iff.1 h <;> rfl

/-- A form finds exactly the fragment of the line, provided that it is of its kind. -/
theorem recognise_iff {form : Form} {line : String} {fragment : Fragment} :
    form.recognise line = some fragment ↔
      fragment? line = some fragment ∧ fragment.form = form := by
  constructor
  · intro h
    refine ⟨?_, form_of_recognise h⟩
    obtain ⟨found, hfound⟩ : ∃ found, fragment? line = some found := by
      rw [← Option.isSome_iff_exists, fragment?, List.findSome?_isSome_iff]
      exact ⟨form, mem_all form, by simp [h]⟩
    obtain ⟨other, -, hother⟩ := List.exists_of_findSome?_eq_some hfound
    rw [recognise_unique hother h, h] at hother
    rw [hfound, hother]
  · intro h
    obtain ⟨other, -, hother⟩ := List.exists_of_findSome?_eq_some h.1
    rwa [← h.2, form_of_recognise hother]

end Form

end ClassDiagram
