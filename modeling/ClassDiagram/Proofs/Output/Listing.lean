import ClassDiagram.Output.Listing
import ClassDiagram.Proofs.Output.RoundTrip

/-!
# A listing tells models apart

Nothing is escaped in a listing, and yet no two models that were read from texts have the same
listing, unless they differ in their unmatched lines alone. Three facts make it so. A line of the
listing of such a model is one line, so the text of a listing is cut into its lines again. The
beginning of a line tells its kind: the headings of the sections are not indented, and the lines of
an entity, of its attributes and of its methods start in three different ways. And each part of a
line stops where the marks behind it begin, up to the label or the expression, which comes last and
may hold anything.

All cuts are made by `Scan.append_inj_of_stops`, on the characters of a line as well as on the lines
of a listing.
-/

namespace ClassDiagram

open Scan Text

namespace Listing

/-! ## The parts of a line -/

/-- A part of a line and what follows it are known from the characters of the line, if the part has
characters in `p` only and the marks behind it start outside `p`. -/
theorem part_inj {p : Char → Bool} {marks part part' : String} {rest rest' : List Char}
    (hpart : OnlyOf p part.toList) (hpart' : OnlyOf p part'.toList)
    (hmarks : marks.toList.head?.map p = some false)
    (h : part.toList ++ (marks.toList ++ rest) = part'.toList ++ (marks.toList ++ rest')) :
    part = part' ∧ rest = rest' := by
  obtain ⟨mark, hmark, hstop⟩ := Option.map_eq_some_iff.1 hmarks
  have hstops : ∀ rest : List Char, Stops p (marks.toList ++ rest) := by
    intro rest c hc
    rw [List.head?_append, hmark] at hc
    cases hc
    exact hstop
  obtain ⟨hparts, hrests⟩ := append_inj_of_stops h hpart hpart' (hstops rest) (hstops rest')
  exact ⟨String.toList_inj.1 hparts, List.append_cancel_left hrests⟩

/-- No character of a multiplicity is the quote that ends it. -/
theorem onlyOf_of_not_quote {text : String} (h : '"' ∉ text.toList) :
    OnlyOf (· != '"') text.toList := by
  intro c hc
  rw [bne_iff_ne]
  intro heq
  exact h (heq ▸ hc)

/-- A name, marks that do not belong to it, and a type determine the name and the type. -/
theorem member_inj {front marks name name' type type' : String} (hname : IsName name)
    (hname' : IsName name') (hmarks : marks.toList.head?.map isWordChar = some false)
    (hline : front ++ name ++ marks ++ type = front ++ name' ++ marks ++ type') :
    name = name' ∧ type = type' := by
  have hchars := congrArg String.toList hline
  simp only [String.toList_append, List.append_assoc, List.append_cancel_left_eq] at hchars
  obtain ⟨hnames, hrest⟩ := part_inj hname.2 hname'.2 hmarks hchars
  exact ⟨hnames, String.toList_inj.1 hrest⟩

/-- The line of an attribute determines the attribute. -/
theorem attribute_inj {member other : Attribute} (h : (Fragment.attr member).WellFormed)
    (h' : (Fragment.attr other).WellFormed)
    (hline : "    attr " ++ member.name ++ " : " ++ member.type =
      "    attr " ++ other.name ++ " : " ++ other.type) : member = other := by
  obtain ⟨hname, htype⟩ := member_inj h.1 h'.1 rfl hline
  cases member
  cases other
  rw [Attribute.mk.injEq]
  exact ⟨hname, htype⟩

/-- The line of a method determines the method. -/
theorem method_inj {member other : Method} (h : (Fragment.method member).WellFormed)
    (h' : (Fragment.method other).WellFormed)
    (hline : "    method " ++ member.name ++ "() : " ++ member.returnType =
      "    method " ++ other.name ++ "() : " ++ other.returnType) : member = other := by
  obtain ⟨hname, htype⟩ := member_inj h.1 h'.1 rfl hline
  cases member
  cases other
  rw [Method.mk.injEq]
  exact ⟨hname, htype⟩

/-- The characters of the line of a relationship, part by part. -/
theorem toList_relationshipLine (link : Relationship) :
    (relationshipLine link).toList =
      " - ".toList ++ (link.source.toList ++ (" \"".toList ++ (link.sourceMultiplicity.toList ++
        ("\" ".toList ++ (link.kind.toList ++ (" \"".toList ++ (link.targetMultiplicity.toList ++
          ("\" ".toList ++ (link.target.toList ++ (" : ".toList ++ link.label.toList)))))))))) := by
  show (" - " ++ link.source ++ " \"" ++ link.sourceMultiplicity ++ "\" " ++ link.kind ++ " \"" ++
    link.targetMultiplicity ++ "\" " ++ link.target ++ " : " ++ link.label).toList = _
  simp only [String.toList_append, List.append_assoc]

/-- The line of a relationship determines the relationship. -/
theorem relationship_inj {link other : Relationship} (h : link.WellFormed) (h' : other.WellFormed)
    (hline : relationshipLine link = relationshipLine other) : link = other := by
  have hchars := congrArg String.toList hline
  rw [toList_relationshipLine, toList_relationshipLine, List.append_cancel_left_eq] at hchars
  -- each part ends at the space or the quote behind it, and the label at the end of the line
  obtain ⟨hsource, hrest⟩ := part_inj h.source.2 h'.source.2 rfl hchars
  obtain ⟨hm₁, hrest⟩ := part_inj (onlyOf_of_not_quote h.sourceMultiplicity)
    (onlyOf_of_not_quote h'.sourceMultiplicity) rfl hrest
  obtain ⟨hkind, hrest⟩ := part_inj h.kind.2 h'.kind.2 rfl hrest
  obtain ⟨hm₂, hrest⟩ := part_inj (onlyOf_of_not_quote h.targetMultiplicity)
    (onlyOf_of_not_quote h'.targetMultiplicity) rfl hrest
  obtain ⟨htarget, hrest⟩ := part_inj h.target.2 h'.target.2 rfl hrest
  have hlabel := String.toList_inj.1 hrest
  cases link
  cases other
  rw [Relationship.mk.injEq]
  exact ⟨hsource, htarget, hkind, hm₁, hm₂, hlabel⟩

/-- The characters of the line of a constraint, part by part. -/
theorem toList_constraintLine (rule : Constraint) :
    (constraintLine rule).toList =
      " - ".toList ++ (rule.kind.toList ++ (" on ".toList ++ (rule.target.toList ++
        (" : ".toList ++ rule.expression.toList)))) := by
  show (" - " ++ rule.kind ++ " on " ++ rule.target ++ " : " ++ rule.expression).toList = _
  simp only [String.toList_append, List.append_assoc]

/-- The line of a constraint determines the constraint. -/
theorem constraint_inj {rule other : Constraint} (h : rule.WellFormed) (h' : other.WellFormed)
    (hline : constraintLine rule = constraintLine other) : rule = other := by
  have hchars := congrArg String.toList hline
  rw [toList_constraintLine, toList_constraintLine, List.append_cancel_left_eq] at hchars
  obtain ⟨hkind, hrest⟩ := part_inj h.kind.2 h'.kind.2 rfl hchars
  obtain ⟨htarget, hrest⟩ := part_inj h.target.2 h'.target.2 rfl hrest
  have hexpression := String.toList_inj.1 hrest
  cases rule
  cases other
  rw [Constraint.mk.injEq]
  exact ⟨hkind, htarget, hexpression⟩

/-! ## The lines of a list of parts -/

/-- The lines of parts determine the list of the parts, if each line determines its part. -/
theorem map_inj_on {α : Type} {line : α → String} {parts others : List α}
    (hinj : ∀ part ∈ parts, ∀ other ∈ others, line part = line other → part = other)
    (h : parts.map line = others.map line) : parts = others := by
  induction parts generalizing others with
  | nil => simpa using h.symm
  | cons part parts ih =>
      cases others with
      | nil => simp at h
      | cons other others =>
          simp only [List.map_cons, List.cons.injEq] at h
          have hfirst := hinj part List.mem_cons_self other List.mem_cons_self h.1
          have hrest := ih (fun p hp o ho ↦ hinj p (List.mem_cons_of_mem _ hp) o
            (List.mem_cons_of_mem _ ho)) h.2
          rw [hfirst, hrest]

/-- The lines of parts and the lines behind them are known from all lines, if the lines of the parts
are in `p` and the first line behind them is not. -/
theorem map_append_inj {α : Type} {p : String → Bool} {line : α → String} {parts others : List α}
    {rest rest' : List String} (hline : ∀ part, p (line part) = true)
    (hinj : ∀ part ∈ parts, ∀ other ∈ others, line part = line other → part = other)
    (hrest : ∀ raw ∈ rest.head?, p raw = false) (hrest' : ∀ raw ∈ rest'.head?, p raw = false)
    (h : parts.map line ++ rest = others.map line ++ rest') : parts = others ∧ rest = rest' := by
  have hlines : ∀ parts : List α, ∀ raw ∈ parts.map line, p raw = true := by
    intro parts raw hraw
    obtain ⟨part, -, rfl⟩ := List.mem_map.1 hraw
    exact hline part
  obtain ⟨hmaps, hrests⟩ := append_inj_of_stops h (hlines parts) (hlines others) hrest hrest'
  exact ⟨map_inj_on hinj hmaps, hrests⟩

/-- Lines start outside `p`, if they are the lines of parts, which all are outside `p`, and then
lines that start outside `p`. -/
theorem head?_map_append {α : Type} {p : String → Bool} {line : α → String} (parts : List α)
    {rest : List String} (hline : ∀ part, p (line part) = false)
    (hrest : ∀ raw ∈ rest.head?, p raw = false) :
    ∀ raw ∈ (parts.map line ++ rest).head?, p raw = false := by
  cases parts with
  | nil => exact hrest
  | cons part parts =>
      intro raw hraw
      cases hraw
      exact hline part

/-! ## The lines of entities -/

/-- Whether a line starts with the given text. -/
def startsWith (front line : String) : Bool := front.toList.isPrefixOf line.toList

/-- The line is that of an attribute. -/
def isAttribute (line : String) : Bool := startsWith "    attr " line

/-- The line is that of a method. -/
def isMethod (line : String) : Bool := startsWith "    method " line

/-- The line is that of a member of an entity. -/
def isMember (line : String) : Bool := isAttribute line || isMethod line

/-- The lines of an entity, up to a line that is not that of a member, determine it. -/
theorem entityLines_inj {entity other : Entity} {rest rest' : List String}
    (h : entity.Parts Fragment.WellFormed) (h' : other.Parts Fragment.WellFormed)
    (hrest : ∀ raw ∈ rest.head?, isMember raw = false)
    (hrest' : ∀ raw ∈ rest'.head?, isMember raw = false)
    (hlines : entityLines entity ++ rest = entityLines other ++ rest') :
    entity = other ∧ rest = rest' := by
  simp only [entityLines, List.cons_append, List.cons.injEq, List.append_assoc] at hlines
  simp only [isMember, Bool.or_eq_false_iff] at hrest hrest'
  obtain ⟨hheader, hlines⟩ := hlines
  have hname : entity.name = other.name := by
    have hchars := congrArg String.toList hheader
    simp only [String.toList_append, List.append_cancel_left_eq] at hchars
    exact String.toList_inj.1 hchars
  -- the attributes stop at the first method, or behind the entity if it has none
  have hmethod : ∀ m : Method,
      isAttribute ("    method " ++ m.name ++ "() : " ++ m.returnType) = false := by
    simp [isAttribute, startsWith, List.isPrefixOf]
  obtain ⟨hattributes, hlines⟩ := map_append_inj (by simp [isAttribute, startsWith])
    (fun a ha b hb ↦ attribute_inj (h.attributes a ha) (h'.attributes b hb))
    (head?_map_append _ hmethod fun raw hraw ↦ (hrest raw hraw).1)
    (head?_map_append _ hmethod fun raw hraw ↦ (hrest' raw hraw).1) hlines
  obtain ⟨hmethods, hrests⟩ := map_append_inj (by simp [isMethod, startsWith])
    (fun m hm n hn ↦ method_inj (h.methods m hm) (h'.methods n hn))
    (fun raw hraw ↦ (hrest raw hraw).2) (fun raw hraw ↦ (hrest' raw hraw).2) hlines
  refine ⟨?_, hrests⟩
  cases entity
  cases other
  rw [Entity.mk.injEq]
  exact ⟨hname, hattributes, hmethods⟩

/-- The lines of entities start with a line that is not that of a member. -/
theorem not_member_head? (entities : List Entity) :
    ∀ line ∈ (entities.flatMap entityLines).head?, isMember line = false := by
  cases entities with
  | nil =>
      intro line hline
      cases hline
  | cons entity entities =>
      intro line hline
      cases hline
      simp [isMember, isAttribute, isMethod, startsWith, List.isPrefixOf]

/-- The lines of entities determine the entities. -/
theorem entities_inj {entities others : List Entity}
    (h : ∀ entity ∈ entities, entity.Parts Fragment.WellFormed)
    (h' : ∀ entity ∈ others, entity.Parts Fragment.WellFormed)
    (hlines : entities.flatMap entityLines = others.flatMap entityLines) : entities = others := by
  induction entities generalizing others with
  | nil =>
      cases others with
      | nil => rfl
      | cons other others => simp [entityLines] at hlines
  | cons entity entities ih =>
      cases others with
      | nil => simp [entityLines] at hlines
      | cons other others =>
          rw [List.flatMap_cons, List.flatMap_cons] at hlines
          rw [List.forall_mem_cons] at h h'
          obtain ⟨hfirst, hrest⟩ := entityLines_inj h.1 h'.1 (not_member_head? entities)
            (not_member_head? others) hlines
          rw [hfirst, ih h.2 h'.2 hrest]

/-! ## Whole listings -/

/-- The line is indented. The headings of the sections are not. -/
def isIndented (line : String) : Bool := startsWith " " line

/-- All lines of an entity are indented. -/
theorem indented_entityLines (entities : List Entity) :
    ∀ line ∈ entities.flatMap entityLines, isIndented line = true := by
  intro line hline
  obtain ⟨entity, -, hline⟩ := List.mem_flatMap.1 hline
  simp only [entityLines, List.mem_cons, List.mem_append, List.mem_map] at hline
  rcases hline with rfl | ⟨member, -, rfl⟩ | ⟨member, -, rfl⟩ <;> simp [isIndented, startsWith]

/-- The lines of a listing determine the entities, the relationships and the constraints. -/
theorem lines_inj {model other : Model} (h : model.Parts Fragment.WellFormed)
    (h' : other.Parts Fragment.WellFormed) (hlines : lines model = lines other) :
    model.entities.values = other.entities.values ∧ model.relationships = other.relationships ∧
      model.constraints = other.constraints := by
  simp only [lines, List.cons_append, List.append_assoc, List.cons.injEq, true_and] at hlines
  -- a section stops at the heading of the next one
  have hheading : ∀ heading : String, isIndented heading = false →
      ∀ rest : List String, ∀ raw ∈ (heading :: rest).head?, isIndented raw = false := by
    intro heading hout rest raw hraw
    cases hraw
    exact hout
  obtain ⟨hentities, hlines⟩ := append_inj_of_stops hlines
    (indented_entityLines _) (indented_entityLines _) (hheading _ rfl _) (hheading _ rfl _)
  rw [List.cons.injEq] at hlines
  have hlink : ∀ link, isIndented (relationshipLine link) = true := by
    simp [isIndented, startsWith, toList_relationshipLine]
  obtain ⟨hlinks, hlines⟩ := map_append_inj hlink
    (fun r hr s hs ↦ relationship_inj (h.relationships r hr) (h'.relationships s hs))
    (hheading _ rfl _) (hheading _ rfl _) hlines.2
  rw [List.cons.injEq] at hlines
  have hrules := map_inj_on (fun c hc d hd ↦
    constraint_inj (h.constraints c hc) (h'.constraints d hd)) hlines.2
  refine ⟨entities_inj ?_ ?_ hentities, hlinks, hrules⟩
  · intro entity hentity
    obtain ⟨entry, hentry, rfl⟩ := List.mem_map.1 hentity
    exact h.entities entry hentry
  · intro entity hentity
    obtain ⟨entry, hentry, rfl⟩ := List.mem_map.1 hentity
    exact h'.entities entry hentry

/-- Every line of the listing of a writable model is one line. -/
theorem oneLine_lines {model : Model} (h : model.Writable) :
    ∀ raw ∈ lines model, '\n' ∉ raw.toList := by
  have hname : ∀ {name : String}, IsName name → '\n' ∉ name.toList :=
    Diagram.not_mem_name Diagram.isLineEnd_feed
  intro raw hraw
  simp only [lines, entityLines, Table.values, List.mem_append, List.mem_cons, List.mem_flatMap,
    List.mem_map] at hraw
  rcases hraw with ((rfl | ⟨entity, ⟨entry, hentry, rfl⟩, rfl | ⟨member, hmember, rfl⟩ |
    ⟨member, hmember, rfl⟩⟩) | rfl | ⟨link, hlink, rfl⟩) | rfl | ⟨rule, hrule, rfl⟩
  · decide
  · simp [hname (h.wellFormed.entities entry hentry).name]
  · obtain ⟨hmemberName, htype⟩ := (h.wellFormed.entities entry hentry).attributes member hmember
    simp [hname hmemberName, hname htype]
  · obtain ⟨hmemberName, htype⟩ := (h.wellFormed.entities entry hentry).methods member hmember
    simp [hname hmemberName, hname htype]
  · decide
  · have hparts : link.WellFormed := h.wellFormed.relationships link hlink
    have hkind := Diagram.not_mem_connector Diagram.isLineEnd_feed hparts.kind
    obtain ⟨hm₁, hm₂, hlabel⟩ := h.lacks_feed.relationships link hlink
    simp [toList_relationshipLine, hname hparts.source, hname hparts.target, hkind, hm₁, hm₂,
      hlabel]
  · decide
  · have hparts : rule.WellFormed := h.wellFormed.constraints rule hrule
    have hexpression := hparts.expression.oneLine
    simp [toList_constraintLine, hname hparts.kind, hname hparts.target, hexpression]

end Listing

/-- The entities of a writable model are known from the values of the table. -/
theorem Model.Writable.entries_eq {model : Model} (h : model.Writable) :
    model.entities.entries = model.entities.values.map fun entity ↦ (entity.name, entity) := by
  rw [Table.values, List.map_map]
  conv_lhs => rw [← List.map_id model.entities.entries]
  apply List.map_congr_left
  intro entry hentry
  show entry = (entry.2.name, entry.2)
  rw [h.named entry hentry]

/-- The lines of a document are known from its text, if no line has a line feed. -/
theorem Document.text_inj {document other : Document}
    (h : ∀ raw ∈ document.lines, '\n' ∉ raw.toList) (h' : ∀ raw ∈ other.lines, '\n' ∉ raw.toList)
    (htext : document.text = other.text) : document.lines = other.lines := by
  have hlines := congrArg Text.linesOf htext
  rw [linesOf_text, linesOf_text, flatMap_linesOf h, flatMap_linesOf h'] at hlines
  exact List.append_cancel_right hlines

variable {ε : Type}

/-- Two texts have the same listing exactly if they have the same entities in the same order, with
the same attributes and methods, the same relationships and the same constraints. -/
theorem listing_faithful (strict strict' : Bool) (text text' : String) :
    ∃ model model',
      (parse Grammar.standard strict (Source.ofText text : Source ε)).model? = .ok model ∧
      (parse Grammar.standard strict' (Source.ofText text' : Source ε)).model? = .ok model' ∧
      ((Listing.document model).text = (Listing.document model').text ↔
        model.entities = model'.entities ∧ model.relationships = model'.relationships ∧
          model.constraints = model'.constraints) := by
  have hwritable : ∀ strict text, (modelOf strict (Text.linesOf text)).Writable :=
    fun strict text ↦ writable_modelOf strict fun raw hraw ↦ Text.not_feed_of_mem_linesOf hraw
  refine ⟨_, _, parse_text strict text, parse_text strict' text', ?_⟩
  have h := hwritable strict text
  have h' := hwritable strict' text'
  constructor
  · intro htext
    have hlines := Document.text_inj (Listing.oneLine_lines h) (Listing.oneLine_lines h') htext
    obtain ⟨hvalues, hlinks, hrules⟩ := Listing.lines_inj h.wellFormed h'.wellFormed hlines
    refine ⟨?_, hlinks, hrules⟩
    rw [Table.mk.injEq, h.entries_eq, h'.entries_eq, hvalues]
  · intro hsame
    obtain ⟨hentities, hlinks, hrules⟩ := hsame
    unfold Listing.document Listing.lines
    rw [hentities, hlinks, hrules]

end ClassDiagram
