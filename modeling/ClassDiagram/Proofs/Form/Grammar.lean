import ClassDiagram.Proofs.Form.Scan
import Mathlib.Data.Option.Basic

/-!
# The grammar of the five forms

Each form is described twice. The `_scan` lemmas unfold a form into the pieces that it takes one
after the other, which determine each other from left to right. The `_iff` lemmas give the grammar:
the parts of which a line of the form is put together, with no word on how they are found. The
second follow from the first by the lemmas about the pieces.
-/

namespace ClassDiagram.Form

open Scan Text

/-! ## The pieces of each form -/

theorem header?_scan {line : List Char} {name : String} :
    header? line = some name ↔
      ∃ declarator rest, word? line = some (declarator, rest) ∧ declarator ∈ declarators ∧
      ∃ rest', gap? rest = some rest' ∧
      ∃ word tail, word? rest' = some (word, tail) ∧
        (skipGap tail = [] ∨ skipGap tail = ['{'] ∨ skipGap tail = ['{', '\n']) ∧
        String.ofList word = name := by
  simp [header?, bind, Option.bind_eq_some_iff, Option.guard_eq_some', pure]

theorem typeClause?_scan {line : List Char} {type : String} :
    typeClause? line = some type ↔
      ∃ rest, skipGap line = ':' :: rest ∧
      ∃ word tail, word? (skipGap rest) = some (word, tail) ∧ LineEnd tail ∧
        String.ofList word = type := by
  simp [typeClause?, bind, Option.bind_eq_some_iff, Option.guard_eq_some', pure, char?_iff,
    atEnd_iff]

theorem attr?_scan {line : List Char} {a : Attribute} :
    attr? line = some a ↔
      ∃ name rest, word? line = some (name, rest) ∧
      ∃ type, typeClause? rest = some type ∧ ⟨String.ofList name, type⟩ = a := by
  simp [attr?, bind, Option.bind_eq_some_iff, pure]

theorem method?_scan {line : List Char} {m : Method} :
    method? line = some m ↔
      ∃ name rest₁, word? line = some (name, rest₁) ∧
      ∃ rest, rest₁ = '(' :: rest ∧
      ∃ parameters rest', splitLast? ')' rest = some (parameters, rest') ∧ '\n' ∉ parameters ∧
      ∃ type, typeClause? rest' = some type ∧ ⟨String.ofList name, type⟩ = m := by
  simp [method?, bind, Option.bind_eq_some_iff, Option.guard_eq_some', pure, char?_iff]

theorem relationship?_scan {line : List Char} {r : Relationship} :
    relationship? line = some r ↔
      ∃ source rest₁, word? line = some (source, rest₁) ∧
      ∃ sourceMultiplicity rest₂, multiplicity? rest₁ = some (sourceMultiplicity, rest₂) ∧
      ∃ rest₃, gap? rest₂ = some rest₃ ∧
      ∃ kind rest₄, run? isConnectorChar rest₃ = some (kind, rest₄) ∧
      ∃ targetMultiplicity rest₅, multiplicity? rest₄ = some (targetMultiplicity, rest₅) ∧
      ∃ rest₆, gap? rest₅ = some rest₆ ∧
      ∃ target rest₇, word? rest₆ = some (target, rest₇) ∧
      ∃ label, label? rest₇ = some label ∧
        ⟨String.ofList source, String.ofList target, String.ofList kind,
          String.ofList sourceMultiplicity, String.ofList targetMultiplicity,
          String.ofList label⟩ = r := by
  simp [relationship?, bind, Option.bind_eq_some_iff, pure]

theorem constraint?_scan {line : List Char} {c : Constraint} :
    constraint? line = some c ↔
      ∃ keyword rest₁, word? line = some (keyword, rest₁) ∧ keyword = "constraint".toList ∧
      ∃ rest₂, gap? rest₁ = some rest₂ ∧
      ∃ kind rest₃, word? rest₂ = some (kind, rest₃) ∧
      ∃ rest₄, gap? rest₃ = some rest₄ ∧
      ∃ preposition rest₅, word? rest₄ = some (preposition, rest₅) ∧ preposition = "on".toList ∧
      ∃ rest₆, gap? rest₅ = some rest₆ ∧
      ∃ target rest₇, word? rest₆ = some (target, rest₇) ∧
      ∃ rest₈, skipGap rest₇ = ':' :: rest₈ ∧
      ∃ expression, freeText? rest₈ = some expression ∧
        ⟨String.ofList kind, String.ofList target, String.ofList expression⟩ = c := by
  simp only [constraint?, bind, Option.bind_eq_some_iff, Prod.exists, Option.guard_eq_some', pure,
    Option.some.injEq, char?_iff, exists_const]

/-! ## The parts of each form -/

/-- The word that declares an entity is a word. -/
theorem run_of_declarator {word : List Char} (h : word ∈ declarators) :
    RunOf isWordChar word := by
  have hall : ∀ word ∈ declarators, RunOf isWordChar word := by decide
  exact hall word h

/-- The tail of a header starts outside the gap characters. -/
theorem stops_gap_of_brace {tail : List Char}
    (h : tail = [] ∨ tail = ['{'] ∨ tail = ['{', '\n']) : Stops isGap tail := by
  rcases h with rfl | rfl | rfl
  · exact Stops.nil _
  · exact Stops.cons (by decide)
  · exact Stops.cons (by decide)

/-- A word stops before the tail of a header. -/
theorem stops_word_of_brace {tail : List Char}
    (h : tail = [] ∨ tail = ['{'] ∨ tail = ['{', '\n']) : Stops isWordChar tail := by
  rcases h with rfl | rfl | rfl
  · exact Stops.nil _
  · exact Stops.cons (by decide)
  · exact Stops.cons (by decide)

/-- A header is a declarator, a gap, a name, perhaps a gap, and perhaps a brace. -/
theorem header?_iff {line : List Char} {name : String} :
    header? line = some name ↔
      ∃ declarator gap word gap' tail, line = declarator ++ gap ++ word ++ gap' ++ tail ∧
        declarator ∈ declarators ∧ RunOf isGap gap ∧ RunOf isWordChar word ∧ OnlyOf isGap gap' ∧
        (tail = [] ∨ tail = ['{'] ∨ tail = ['{', '\n']) ∧ String.ofList word = name := by
  rw [header?_scan]
  constructor
  · intro hparts
    obtain ⟨declarator, rest, hdecl, hmem, rest', hgap, word, tail, hword, htail, hname⟩ := hparts
    obtain ⟨rfl, -, -⟩ := word?_iff.1 hdecl
    obtain ⟨gap, rfl, hrun, -⟩ := gap?_iff.1 hgap
    obtain ⟨rfl, hrun', -⟩ := word?_iff.1 hword
    obtain ⟨gap', hgap', hall, -⟩ := exists_gap tail
    exact ⟨declarator, gap, word, gap', skipGap tail, by rw [hgap']; simp [← hgap'], hmem, hrun,
      hrun', hall, htail, hname⟩
  · intro hparts
    obtain ⟨declarator, gap, word, gap', tail, rfl, hmem, hrun, hrun', hall, htail, hname⟩ := hparts
    refine ⟨declarator, gap ++ (word ++ (gap' ++ tail)), word?_iff.2 ⟨by simp,
      run_of_declarator hmem, hrun.stops fun _ ↦ not_word_of_gap⟩, hmem, word ++ (gap' ++ tail),
      gap?_iff.2 ⟨gap, rfl, hrun, hrun'.stops fun _ ↦ not_gap_of_word⟩, word, gap' ++ tail,
      word?_iff.2 ⟨rfl, hrun', hall.stops (fun _ ↦ not_word_of_gap) (stops_word_of_brace htail)⟩,
      ?_, hname⟩
    rwa [skipGap_append hall (stops_gap_of_brace htail)]

/-- A type clause is a colon between gaps, a word, and the end of the line. -/
theorem typeClause?_iff {line : List Char} {type : String} :
    typeClause? line = some type ↔
      ∃ gap gap' word tail, line = gap ++ ':' :: (gap' ++ word ++ tail) ∧ OnlyOf isGap gap ∧
        OnlyOf isGap gap' ∧ RunOf isWordChar word ∧ LineEnd tail ∧ String.ofList word = type := by
  rw [typeClause?_scan]
  constructor
  · intro hparts
    obtain ⟨rest, hcolon, word, tail, hword, hend, htype⟩ := hparts
    obtain ⟨gap, rfl, hall, -⟩ := skipGap_iff.1 hcolon
    obtain ⟨hrest, hrun, -⟩ := word?_iff.1 hword
    obtain ⟨gap', rfl, hall', -⟩ := skipGap_iff.1 hrest
    exact ⟨gap, gap', word, tail, by simp, hall, hall', hrun, hend, htype⟩
  · intro hparts
    obtain ⟨gap, gap', word, tail, rfl, hall, hall', hrun, hend, htype⟩ := hparts
    refine ⟨gap' ++ word ++ tail, skipGap_append hall (Stops.cons (by decide)), word, tail, ?_,
      hend, htype⟩
    rw [List.append_assoc, skipGap_append hall' (hrun.stops fun _ ↦ not_gap_of_word)]
    exact word?_iff.2 ⟨rfl, hrun, hend.stops_word⟩

/-- A word stops before a type clause. -/
theorem stops_word_of_colon {gap rest : List Char} (h : OnlyOf isGap gap) :
    Stops isWordChar (gap ++ ':' :: rest) :=
  h.stops (fun _ ↦ not_word_of_gap) (Stops.cons (by decide))

/-- An attribute is a name and a type clause. -/
theorem attr?_iff {line : List Char} {a : Attribute} :
    attr? line = some a ↔
      ∃ name rest type, line = name ++ rest ∧ RunOf isWordChar name ∧
        typeClause? rest = some type ∧ ⟨String.ofList name, type⟩ = a := by
  rw [attr?_scan]
  constructor
  · intro hparts
    obtain ⟨name, rest, hname, type, htype, ha⟩ := hparts
    obtain ⟨rfl, hrun, -⟩ := word?_iff.1 hname
    exact ⟨name, rest, type, rfl, hrun, htype, ha⟩
  · intro hparts
    obtain ⟨name, rest, type, rfl, hrun, htype, ha⟩ := hparts
    obtain ⟨gap, gap', word, tail, rfl, hall, -⟩ := typeClause?_iff.1 htype
    exact ⟨name, _, word?_iff.2 ⟨rfl, hrun, stops_word_of_colon hall⟩, type, htype, ha⟩

/-- Nothing in a type clause is a closing parenthesis. -/
theorem closing_not_mem_of_typeClause? {rest : List Char} {type : String}
    (h : typeClause? rest = some type) : ')' ∉ rest := by
  obtain ⟨gap, gap', word, tail, rfl, hall, hall', hword, hend, -⟩ := typeClause?_iff.1 h
  have hgap : isGap ')' = false := by decide
  have hparen : isWordChar ')' = false := by decide
  simp only [List.mem_append, List.mem_cons, not_or]
  refine ⟨fun h ↦ by simp [hall _ h] at hgap, by decide, ⟨fun h ↦ by simp [hall' _ h] at hgap,
    fun h ↦ by simp [hword.2 _ h] at hparen⟩, ?_⟩
  rcases hend with rfl | rfl <;> simp

/-- A method is a name, parameters on one line between parentheses, and a type clause. Nothing in a
type clause is a parenthesis, so the last one of the line closes the parameters. -/
theorem method?_iff {line : List Char} {m : Method} :
    method? line = some m ↔
      ∃ name parameters rest type, line = name ++ '(' :: (parameters ++ ')' :: rest) ∧
        RunOf isWordChar name ∧ '\n' ∉ parameters ∧ typeClause? rest = some type ∧
        ⟨String.ofList name, type⟩ = m := by
  rw [method?_scan]
  constructor
  · intro hparts
    obtain ⟨name, _, hname, rest, rfl, parameters, rest', hsplit, hfeed, type, htype, hm⟩ := hparts
    obtain ⟨rfl, hrun, -⟩ := word?_iff.1 hname
    obtain ⟨rfl, -⟩ := splitLast?_iff.1 hsplit
    exact ⟨name, parameters, rest', type, rfl, hrun, hfeed, htype, hm⟩
  · intro hparts
    obtain ⟨name, parameters, rest, type, rfl, hrun, hfeed, htype, hm⟩ := hparts
    exact ⟨name, _, word?_iff.2 ⟨rfl, hrun, Stops.cons (by decide)⟩, _, rfl, parameters, rest,
      splitLast?_iff.2 ⟨rfl, closing_not_mem_of_typeClause? htype⟩, hfeed, type, htype, hm⟩

/-- A run in `p` stops before a multiplicity and the gap behind it, if it stops before gaps and
quotes. -/
theorem stops_of_multiplicity {p : Char → Bool} {part text gap rest : List Char}
    (hpart : Multiplicity part text) (hgap : RunOf isGap gap)
    (hp : ∀ c, isGap c = true → p c = false) (hquote : p '"' = false) :
    Stops p (part ++ (gap ++ rest)) := by
  rcases hpart with ⟨rfl, rfl⟩ | ⟨front, rfl, hfront, -, -⟩
  · exact hgap.stops hp
  · simp only [List.append_assoc, List.cons_append]
    exact hfront.stops hp (Stops.cons hquote)

/-- A multiplicity is taken off the front if a gap and then a run without quotes follow it. -/
theorem multiplicity?_append {p : Char → Bool} {part text gap run rest : List Char}
    (hpart : Multiplicity part text) (hgap : RunOf isGap gap) (hrun : RunOf p run)
    (hp : ∀ c, p c = true → isGap c = false) (hquote : p '"' = false) :
    multiplicity? (part ++ (gap ++ (run ++ rest))) = some (text, gap ++ (run ++ rest)) := by
  refine multiplicity?_iff.2 ⟨part, rfl, hpart, ?_⟩
  intro hempty hhead
  subst hempty
  rw [List.nil_append, skipGap_append hgap.2 (hrun.stops hp)] at hhead
  obtain ⟨hne, hall⟩ := hrun
  cases run with
  | nil => exact absurd rfl hne
  | cons c tail =>
      have hc : c = '"' := by simpa using hhead
      have hmem : p c = true := hall c List.mem_cons_self
      rw [hc, hquote] at hmem
      cases hmem

/-- A word stops before the label of a relationship. -/
theorem stops_word_of_label {rest text : List Char} (h : Label rest text) :
    Stops isWordChar rest := by
  rcases h with ⟨hend, -⟩ | ⟨gap, line, rfl, hgap, -⟩
  · exact hend.stops_word
  · exact stops_word_of_colon hgap

/-- A relationship is a name, a connector and a name with gaps between them, where multiplicities
may stand before the gaps, and then a label. -/
theorem relationship?_iff {line : List Char} {r : Relationship} :
    relationship? line = some r ↔
      ∃ source part₁ gap₁ kind part₂ gap₂ target tail sourceMultiplicity targetMultiplicity label,
        line = source ++ (part₁ ++ (gap₁ ++ (kind ++ (part₂ ++ (gap₂ ++ (target ++ tail)))))) ∧
        RunOf isWordChar source ∧ Multiplicity part₁ sourceMultiplicity ∧ RunOf isGap gap₁ ∧
        RunOf isConnectorChar kind ∧ Multiplicity part₂ targetMultiplicity ∧ RunOf isGap gap₂ ∧
        RunOf isWordChar target ∧ Label tail label ∧
        ⟨String.ofList source, String.ofList target, String.ofList kind,
          String.ofList sourceMultiplicity, String.ofList targetMultiplicity,
          String.ofList label⟩ = r := by
  rw [relationship?_scan]
  constructor
  · intro hparts
    obtain ⟨source, rest₁, hword₁, m₁, rest₂, hm₁, rest₃, hskip₁, kind, rest₄, hrun, m₂, rest₅,
      hm₂, rest₆, hskip₂, target, rest₇, hword₂, label, hlabel, hr⟩ := hparts
    obtain ⟨rfl, hsource, -⟩ := word?_iff.1 hword₁
    obtain ⟨part₁, rfl, hpart₁, -⟩ := multiplicity?_iff.1 hm₁
    obtain ⟨gap₁, rfl, hgap₁, -⟩ := gap?_iff.1 hskip₁
    obtain ⟨rfl, hkind, -⟩ := run?_iff.1 hrun
    obtain ⟨part₂, rfl, hpart₂, -⟩ := multiplicity?_iff.1 hm₂
    obtain ⟨gap₂, rfl, hgap₂, -⟩ := gap?_iff.1 hskip₂
    obtain ⟨rfl, htarget, -⟩ := word?_iff.1 hword₂
    exact ⟨source, part₁, gap₁, kind, part₂, gap₂, target, rest₇, m₁, m₂, label, rfl, hsource,
      hpart₁, hgap₁, hkind, hpart₂, hgap₂, htarget, label?_iff.1 hlabel, hr⟩
  · intro hparts
    obtain ⟨source, part₁, gap₁, kind, part₂, gap₂, target, tail, m₁, m₂, label, rfl, hsource,
      hpart₁, hgap₁, hkind, hpart₂, hgap₂, htarget, hlabel, hr⟩ := hparts
    -- every part stops where the next one starts, so the scan finds the same parts
    refine ⟨source, _, word?_iff.2 ⟨rfl, hsource, ?_⟩, m₁, _,
      multiplicity?_append hpart₁ hgap₁ hkind (fun _ ↦ not_gap_of_connector) (by decide), _,
      gap?_iff.2 ⟨gap₁, rfl, hgap₁, ?_⟩, kind, _, run?_iff.2 ⟨rfl, hkind, ?_⟩, m₂, _,
      multiplicity?_append hpart₂ hgap₂ htarget (fun _ ↦ not_gap_of_word) (by decide), _,
      gap?_iff.2 ⟨gap₂, rfl, hgap₂, ?_⟩, target, tail,
      word?_iff.2 ⟨rfl, htarget, stops_word_of_label hlabel⟩, label, label?_iff.2 hlabel, hr⟩
    · exact stops_of_multiplicity hpart₁ hgap₁ (fun _ ↦ not_word_of_gap) (by decide)
    · exact hkind.stops fun _ ↦ not_gap_of_connector
    · exact stops_of_multiplicity hpart₂ hgap₂ (fun _ ↦ not_connector_of_gap) (by decide)
    · exact htarget.stops fun _ ↦ not_gap_of_word

/-- A constraint is its keyword, a kind, the preposition and a target with gaps between them, a
colon, and a free text. -/
theorem constraint?_iff {line : List Char} {c : Constraint} :
    constraint? line = some c ↔
      ∃ gap₁ kind gap₂ gap₃ target gap₄ rest expression,
        line = "constraint".toList ++ (gap₁ ++ (kind ++ (gap₂ ++ ("on".toList ++ (gap₃ ++
          (target ++ (gap₄ ++ ':' :: rest))))))) ∧
        RunOf isGap gap₁ ∧ RunOf isWordChar kind ∧ RunOf isGap gap₂ ∧ RunOf isGap gap₃ ∧
        RunOf isWordChar target ∧ OnlyOf isGap gap₄ ∧ FreeText rest expression ∧
        ⟨String.ofList kind, String.ofList target, String.ofList expression⟩ = c := by
  have hkeyword : RunOf isWordChar "constraint".toList := by decide
  have hpreposition : RunOf isWordChar "on".toList := by decide
  rw [constraint?_scan]
  constructor
  · intro hparts
    obtain ⟨_, rest₁, hword₁, rfl, rest₂, hskip₁, kind, rest₃, hword₂, rest₄, hskip₂, _, rest₅,
      hword₃, rfl, rest₆, hskip₃, target, rest₇, hword₄, rest₈, hcolon, expression, htext, hc⟩ :=
      hparts
    obtain ⟨rfl, -, -⟩ := word?_iff.1 hword₁
    obtain ⟨gap₁, rfl, hgap₁, -⟩ := gap?_iff.1 hskip₁
    obtain ⟨rfl, hkind, -⟩ := word?_iff.1 hword₂
    obtain ⟨gap₂, rfl, hgap₂, -⟩ := gap?_iff.1 hskip₂
    obtain ⟨rfl, -, -⟩ := word?_iff.1 hword₃
    obtain ⟨gap₃, rfl, hgap₃, -⟩ := gap?_iff.1 hskip₃
    obtain ⟨rfl, htarget, -⟩ := word?_iff.1 hword₄
    obtain ⟨gap₄, rfl, hgap₄, -⟩ := skipGap_iff.1 hcolon
    exact ⟨gap₁, kind, gap₂, gap₃, target, gap₄, rest₈, expression, rfl, hgap₁, hkind, hgap₂, hgap₃,
      htarget, hgap₄, freeText?_iff.1 htext, hc⟩
  · intro hparts
    obtain ⟨gap₁, kind, gap₂, gap₃, target, gap₄, rest, expression, rfl, hgap₁, hkind, hgap₂, hgap₃,
      htarget, hgap₄, hexpression, hc⟩ := hparts
    refine ⟨_, _, word?_iff.2 ⟨rfl, hkeyword, hgap₁.stops fun _ ↦ not_word_of_gap⟩, rfl, _,
      gap?_iff.2 ⟨gap₁, rfl, hgap₁, hkind.stops fun _ ↦ not_gap_of_word⟩, kind, _,
      word?_iff.2 ⟨rfl, hkind, hgap₂.stops fun _ ↦ not_word_of_gap⟩, _,
      gap?_iff.2 ⟨gap₂, rfl, hgap₂, hpreposition.stops fun _ ↦ not_gap_of_word⟩, _, _,
      word?_iff.2 ⟨rfl, hpreposition, hgap₃.stops fun _ ↦ not_word_of_gap⟩, rfl, _,
      gap?_iff.2 ⟨gap₃, rfl, hgap₃, htarget.stops fun _ ↦ not_gap_of_word⟩, target, _,
      word?_iff.2 ⟨rfl, htarget, stops_word_of_colon hgap₄⟩, rest,
      skipGap_append hgap₄ (Stops.cons (by decide)), expression, freeText?_iff.2 hexpression, hc⟩

end ClassDiagram.Form
