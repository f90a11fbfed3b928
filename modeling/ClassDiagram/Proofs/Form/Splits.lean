import ClassDiagram.Proofs.Form.Relationship

/-!
# The splits of header, member and constraint lines

A split is any way to cut a line into the parts of its form, with no word on which one is found. A
line can have several: a line feed behind a header belongs to the gap or to the end of the line, and
the expression of a constraint may itself start with gap characters.

The names in a line are the same in all of its splits. For headers, attributes and methods this
follows from the scan alone, since the form finds what any split has. For constraints the parts are
taken off from the left (`ConstraintSplit.unique`), and only the gap behind the colon is open; the
form takes the longest one. `grammar_exact` collects the four forms.
-/

namespace ClassDiagram

open Scan Text Form

variable {line : List Char}

/-! ## Headers -/

/-- One way to cut a line into the parts of an entity header. -/
structure HeaderSplit (line : List Char) where
  declarator : List Char
  gap : List Char
  name : List Char
  gap' : List Char
  brace : List Char
  feed : List Char
  line_eq : line = declarator ++ (gap ++ (name ++ (gap' ++ (brace ++ feed))))
  declares : declarator ∈ declarators
  gap_run : RunOf isGap gap
  name_run : RunOf isWordChar name
  gap_only' : OnlyOf isGap gap'
  brace_cases : brace = [] ∨ brace = ['{']
  feed_end : LineEnd feed

/-- The form finds the name of any split. -/
theorem HeaderSplit.header?_eq (split : HeaderSplit line) :
    header? line = some (String.ofList split.name) := by
  rw [header?_iff]
  rcases split.brace_cases with hbrace | hbrace
  · -- without a brace the line feed goes to the gap
    refine ⟨split.declarator, split.gap, split.name, split.gap' ++ split.feed, [], ?_,
      split.declares, split.gap_run, split.name_run, split.gap_only'.append split.feed_end.onlyOf,
      Or.inl rfl, rfl⟩
    exact split.line_eq.trans (by simp [hbrace])
  · refine ⟨split.declarator, split.gap, split.name, split.gap', '{' :: split.feed, ?_,
      split.declares, split.gap_run, split.name_run, split.gap_only', ?_, rfl⟩
    · exact split.line_eq.trans (by simp [hbrace])
    · rcases split.feed_end with h | h
      · exact Or.inr (Or.inl (by rw [h]))
      · exact Or.inr (Or.inr (by rw [h]))

/-- A header that the form finds has a split. -/
theorem HeaderSplit.exists_of_header? {name : String} (h : header? line = some name) :
    ∃ split : HeaderSplit line, String.ofList split.name = name := by
  obtain ⟨declarator, gap, word, gap', tail, hline, hmem, hgap, hword, hgap', htail, hname⟩ :=
    header?_iff.1 h
  obtain ⟨brace, feed, rfl, hbrace, hfeed⟩ :
      ∃ brace feed, tail = brace ++ feed ∧ (brace = [] ∨ brace = ['{']) ∧ LineEnd feed := by
    rcases htail with rfl | rfl | rfl
    · exact ⟨[], [], rfl, Or.inl rfl, Or.inl rfl⟩
    · exact ⟨['{'], [], rfl, Or.inr rfl, Or.inl rfl⟩
    · exact ⟨['{'], ['\n'], rfl, Or.inr rfl, Or.inr rfl⟩
  exact ⟨⟨declarator, gap, word, gap', brace, feed, by rw [hline]; simp, hmem, hgap, hword, hgap',
    hbrace, hfeed⟩, hname⟩

/-! ## Members -/

/-- One way to cut the rest of a member line into a colon between gaps, a type and the end of the
line. -/
structure TypeSplit (rest : List Char) where
  gap : List Char
  gap' : List Char
  type : List Char
  feed : List Char
  rest_eq : rest = gap ++ ':' :: (gap' ++ type ++ feed)
  gap_only : OnlyOf isGap gap
  gap_only' : OnlyOf isGap gap'
  type_run : RunOf isWordChar type
  feed_end : LineEnd feed

/-- The type clause of any split is found. -/
theorem TypeSplit.typeClause?_eq {rest : List Char} (split : TypeSplit rest) :
    typeClause? rest = some (String.ofList split.type) :=
  typeClause?_iff.2 ⟨split.gap, split.gap', split.type, split.feed, split.rest_eq, split.gap_only,
    split.gap_only', split.type_run, split.feed_end, rfl⟩

/-- A type clause that is found has a split. -/
theorem TypeSplit.exists_of_typeClause? {rest : List Char} {type : String}
    (h : typeClause? rest = some type) :
    ∃ split : TypeSplit rest, String.ofList split.type = type := by
  obtain ⟨gap, gap', word, feed, hrest, hgap, hgap', hword, hfeed, htype⟩ := typeClause?_iff.1 h
  exact ⟨⟨gap, gap', word, feed, hrest, hgap, hgap', hword, hfeed⟩, htype⟩

/-- One way to cut a line into the parts of an attribute. -/
structure AttributeSplit (line : List Char) where
  name : List Char
  rest : List Char
  clause : TypeSplit rest
  line_eq : line = name ++ rest
  name_run : RunOf isWordChar name

/-- The attribute of a split. -/
def AttributeSplit.attribute (split : AttributeSplit line) : Attribute :=
  ⟨String.ofList split.name, String.ofList split.clause.type⟩

/-- The form finds the attribute of any split. -/
theorem AttributeSplit.attr?_eq (split : AttributeSplit line) :
    attr? line = some split.attribute :=
  attr?_iff.2 ⟨split.name, split.rest, _, split.line_eq, split.name_run,
    split.clause.typeClause?_eq, rfl⟩

/-- An attribute that the form finds has a split. -/
theorem AttributeSplit.exists_of_attr? {found : Attribute} (h : attr? line = some found) :
    ∃ split : AttributeSplit line, split.attribute = found := by
  obtain ⟨name, rest, type, hline, hname, htype, rfl⟩ := attr?_iff.1 h
  obtain ⟨clause, rfl⟩ := TypeSplit.exists_of_typeClause? htype
  exact ⟨⟨name, rest, clause, hline, hname⟩, rfl⟩

/-- One way to cut a line into the parts of a method. The parameters are any text on one line. -/
structure MethodSplit (line : List Char) where
  name : List Char
  parameters : List Char
  rest : List Char
  clause : TypeSplit rest
  line_eq : line = name ++ '(' :: (parameters ++ ')' :: rest)
  name_run : RunOf isWordChar name
  oneLine : '\n' ∉ parameters

/-- The method of a split, without its parameters. -/
def MethodSplit.method (split : MethodSplit line) : Method :=
  ⟨String.ofList split.name, String.ofList split.clause.type⟩

/-- The form finds the method of any split. -/
theorem MethodSplit.method?_eq (split : MethodSplit line) : method? line = some split.method :=
  method?_iff.2 ⟨split.name, split.parameters, split.rest, _, split.line_eq, split.name_run,
    split.oneLine, split.clause.typeClause?_eq, rfl⟩

/-- A method that the form finds has a split. -/
theorem MethodSplit.exists_of_method? {found : Method} (h : method? line = some found) :
    ∃ split : MethodSplit line, split.method = found := by
  obtain ⟨name, parameters, rest, type, hline, hname, hfeed, htype, rfl⟩ := method?_iff.1 h
  obtain ⟨clause, rfl⟩ := TypeSplit.exists_of_typeClause? htype
  exact ⟨⟨name, parameters, rest, clause, hline, hname, hfeed⟩, rfl⟩

/-- The parenthesis behind the parameters is the last closing one of the line. -/
theorem MethodSplit.closing_not_mem (split : MethodSplit line) : ')' ∉ split.rest :=
  closing_not_mem_of_typeClause? split.clause.typeClause?_eq

/-! ## Constraints -/

/-- One way to cut a line into the parts of a constraint. -/
structure ConstraintSplit (line : List Char) where
  gap₁ : List Char
  kind : List Char
  gap₂ : List Char
  gap₃ : List Char
  target : List Char
  gap₄ : List Char
  rest : List Char
  white : List Char
  expression : List Char
  line_eq : line = "constraint".toList ++ (gap₁ ++ (kind ++ (gap₂ ++ ("on".toList ++ (gap₃ ++
    (target ++ (gap₄ ++ ':' :: rest)))))))
  gap_run₁ : RunOf isGap gap₁
  kind_run : RunOf isWordChar kind
  gap_run₂ : RunOf isGap gap₂
  gap_run₃ : RunOf isGap gap₃
  target_run : RunOf isWordChar target
  gap_only₄ : OnlyOf isGap gap₄
  rest_cut : FreeCut rest white expression

namespace ConstraintSplit

/-- The constraint that a split has, with the given expression. -/
def constraint (split : ConstraintSplit line) (expression : List Char) : Constraint :=
  ⟨String.ofList split.kind, String.ofList split.target, String.ofList expression⟩

/-- No split of the line has a longer gap behind the colon. -/
def Longest (split : ConstraintSplit line) : Prop :=
  ∀ other : ConstraintSplit line, other.white.length ≤ split.white.length

/-- The form finds the constraint of a split, with the free text of the rest. -/
theorem constraint?_eq (split : ConstraintSplit line) {expression : List Char}
    (h : FreeText split.rest expression) :
    constraint? line = some (split.constraint expression) :=
  constraint?_iff.2 ⟨_, _, _, _, _, _, _, _, split.line_eq, split.gap_run₁, split.kind_run,
    split.gap_run₂, split.gap_run₃, split.target_run, split.gap_only₄, h, rfl⟩

/-- Two splits of a line have the same kind and target, and the same rest behind the colon. -/
theorem unique (split other : ConstraintSplit line) :
    split.kind = other.kind ∧ split.target = other.target ∧ split.rest = other.rest := by
  have hline := List.append_cancel_left (split.line_eq.symm.trans other.line_eq)
  -- gaps and words alternate, so each of them stops where the next one starts
  obtain ⟨-, hline⟩ := append_inj_of_stops hline split.gap_run₁.2 other.gap_run₁.2
    (split.kind_run.stops fun _ ↦ not_gap_of_word) (other.kind_run.stops fun _ ↦ not_gap_of_word)
  obtain ⟨hkind, hline⟩ := append_inj_of_stops hline split.kind_run.2 other.kind_run.2
    (split.gap_run₂.stops fun _ ↦ not_word_of_gap) (other.gap_run₂.stops fun _ ↦ not_word_of_gap)
  obtain ⟨-, hline⟩ := append_inj_of_stops hline split.gap_run₂.2 other.gap_run₂.2
    (Stops.cons (by decide)) (Stops.cons (by decide))
  have hline := List.append_cancel_left hline
  obtain ⟨-, hline⟩ := append_inj_of_stops hline split.gap_run₃.2 other.gap_run₃.2
    (split.target_run.stops fun _ ↦ not_gap_of_word)
    (other.target_run.stops fun _ ↦ not_gap_of_word)
  obtain ⟨htarget, hline⟩ := append_inj_of_stops hline split.target_run.2 other.target_run.2
    (stops_word_of_colon split.gap_only₄) (stops_word_of_colon other.gap_only₄)
  exact ⟨hkind, htarget, colon_unique split.gap_only₄ other.gap_only₄ hline⟩

/-- The expression of a split with the longest gap is the free text of its rest. -/
theorem Longest.freeText {split : ConstraintSplit line} (h : split.Longest) :
    FreeText split.rest split.expression := by
  refine split.rest_cut.freeText ?_
  intro gap text hcut
  exact h { split with white := gap, expression := text, rest_cut := hcut }

/-- A constraint that the form finds is that of a split with the longest gap. -/
theorem exists_of_constraint? {found : Constraint} (h : constraint? line = some found) :
    ∃ split : ConstraintSplit line, split.Longest ∧ split.constraint split.expression = found := by
  obtain ⟨gap₁, kind, gap₂, gap₃, target, gap₄, rest, expression, hline, hgap₁, hkind, hgap₂, hgap₃,
    htarget, hgap₄, hfree, hfound⟩ := constraint?_iff.1 h
  obtain ⟨white, hcut, hlongest⟩ := freeText_iff_longest.1 hfree
  let split : ConstraintSplit line := ⟨gap₁, kind, gap₂, gap₃, target, gap₄, rest, white,
    expression, hline, hgap₁, hkind, hgap₂, hgap₃, htarget, hgap₄, hcut⟩
  refine ⟨split, ?_, hfound⟩
  intro other
  -- the other split cuts the same rest
  have hrest : rest = other.rest := (split.unique other).2.2
  exact hlongest other.white other.expression (hrest ▸ other.rest_cut)

/-- A line with a split is accepted. -/
theorem isSome (split : ConstraintSplit line) : (constraint? line).isSome := by
  obtain ⟨text, hfree⟩ := split.rest_cut.exists_freeText
  rw [split.constraint?_eq hfree]
  rfl

end ConstraintSplit

/-! ## The four forms -/

/-- If every split has what is found, and what is found has a split, then the fragments that are
found are those of the splits. -/
theorem map_eq_some_iff_split {α Split : Type} {found : Option α} {give : Split → α}
    {inject : α → Fragment} {fragment : Fragment} (hsplit : ∀ split, found = some (give split))
    (hfound : ∀ a, found = some a → ∃ split, give split = a) :
    found.map inject = some fragment ↔ ∃ split, fragment = inject (give split) := by
  rw [Option.map_eq_some_iff]
  constructor
  · rintro ⟨a, ha, rfl⟩
    obtain ⟨split, rfl⟩ := hfound a ha
    exact ⟨split, rfl⟩
  · rintro ⟨split, rfl⟩
    exact ⟨give split, hsplit split, rfl⟩

/-- Header, attribute, method and constraint accept exactly the lines that can be cut into their
parts. They give the names of any split, so all splits of a line agree on them, and the parameters
of a method end at the last closing parenthesis. The expression of a constraint is that of a split
with the longest gap behind the colon. -/
theorem grammar_exact (line : String) :
    ((∀ fragment, Form.header.recognise line = some fragment ↔
        ∃ split : HeaderSplit line.toList, fragment = .header (String.ofList split.name)) ∧
      ∀ split other : HeaderSplit line.toList, split.name = other.name) ∧
    ((∀ fragment, Form.attr.recognise line = some fragment ↔
        ∃ split : AttributeSplit line.toList, fragment = .attr split.attribute) ∧
      ∀ split other : AttributeSplit line.toList,
        split.name = other.name ∧ split.clause.type = other.clause.type) ∧
    ((∀ fragment, Form.method.recognise line = some fragment ↔
        ∃ split : MethodSplit line.toList, fragment = .method split.method) ∧
      (∀ split other : MethodSplit line.toList,
        split.name = other.name ∧ split.clause.type = other.clause.type) ∧
      ∀ split : MethodSplit line.toList, ')' ∉ split.rest) ∧
    (((Form.constraint.recognise line).isSome ↔ Nonempty (ConstraintSplit line.toList)) ∧
      (∀ fragment, Form.constraint.recognise line = some fragment ↔
        ∃ split : ConstraintSplit line.toList, split.Longest ∧
          fragment = .constraint (split.constraint split.expression)) ∧
      ∀ split other : ConstraintSplit line.toList,
        split.kind = other.kind ∧ split.target = other.target) := by
  refine ⟨⟨?_, ?_⟩, ⟨?_, ?_⟩, ⟨?_, ?_, ?_⟩, ?_, ?_, ?_⟩
  · intro fragment
    exact map_eq_some_iff_split HeaderSplit.header?_eq fun _ ↦ HeaderSplit.exists_of_header?
  · intro split other
    have hsame := Option.some.inj (split.header?_eq.symm.trans other.header?_eq)
    exact String.ofList_injective hsame
  · intro fragment
    exact map_eq_some_iff_split AttributeSplit.attr?_eq fun _ ↦ AttributeSplit.exists_of_attr?
  · intro split other
    have hsame := Option.some.inj (split.attr?_eq.symm.trans other.attr?_eq)
    exact ⟨String.ofList_injective (congrArg Attribute.name hsame),
      String.ofList_injective (congrArg Attribute.type hsame)⟩
  · intro fragment
    exact map_eq_some_iff_split MethodSplit.method?_eq fun _ ↦ MethodSplit.exists_of_method?
  · intro split other
    have hsame := Option.some.inj (split.method?_eq.symm.trans other.method?_eq)
    exact ⟨String.ofList_injective (congrArg Method.name hsame),
      String.ofList_injective (congrArg Method.returnType hsame)⟩
  · exact fun split ↦ split.closing_not_mem
  · rw [Form.recognise, Option.isSome_map]
    constructor
    · intro h
      obtain ⟨found, hfound⟩ := Option.isSome_iff_exists.1 h
      obtain ⟨split, -⟩ := ConstraintSplit.exists_of_constraint? hfound
      exact ⟨split⟩
    · rintro ⟨split⟩
      exact split.isSome
  · intro fragment
    rw [Form.recognise, Option.map_eq_some_iff]
    constructor
    · rintro ⟨found, hfound, rfl⟩
      obtain ⟨split, hlongest, rfl⟩ := ConstraintSplit.exists_of_constraint? hfound
      exact ⟨split, hlongest, rfl⟩
    · rintro ⟨split, hlongest, rfl⟩
      exact ⟨_, split.constraint?_eq hlongest.freeText, rfl⟩
  · intro split other
    obtain ⟨hkind, htarget, -⟩ := split.unique other
    exact ⟨hkind, htarget⟩

example : Form.method.recognise "f(g(x) : \"y)\" z) :int\n" = some (.method ⟨"f", "int"⟩) := by
  decide

example : Form.constraint.recognise "constraint on on on : \t\n" =
    some (.constraint ⟨"on", "on", "\t"⟩) := by
  decide

end ClassDiagram
