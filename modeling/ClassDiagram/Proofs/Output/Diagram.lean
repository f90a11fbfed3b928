import ClassDiagram.Output.Diagram
import ClassDiagram.Proofs.Reader.Parts

/-!
# The lines of a diagram

Every line that a diagram has for a well-formed part of a model has that part as its fragment, and
it is one line. The proofs give the parts of the written line to the grammar of its form, with a
single space for every gap. A written line has no other line ends, be they line feeds or carriage
returns, than the multiplicities, the label or the expression in it.
-/

namespace ClassDiagram.Diagram

open Scan Text

/-- The line is a writing of the fragment. -/
structure Writes (raw : String) (fragment : Fragment) : Prop where
  oneLine : '\n' ∉ raw.toList
  reads : (Item.ofLine raw).fragment? = some fragment

/-- A line that starts with a word behind blank characters is a writing of what a form finds behind
the blank characters. -/
theorem writes_of_recognise (form : Form) {raw : String} {front word rest : List Char}
    {fragment : Fragment} (hraw : raw.toList = front ++ (word ++ rest))
    (hfront : OnlyOf isBlank front) (hword : RunOf isWordChar word)
    (hend : EndsOutside isBlank rest) (hfeed : '\n' ∉ raw.toList)
    (h : form.recognise (String.ofList (word ++ rest)) = some fragment) : Writes raw fragment where
  oneLine := hfeed
  reads := by
    rw [Item.ofLine, Line.classify_of_word hraw hfront hword (hend.append word)]
    dsimp only
    rw [(Form.recognise_iff.1 h).1]
    rfl

/-! ## Entities -/

/-- A single space is a gap. -/
theorem runOf_space : RunOf isGap [' '] := by decide

/-- A character that ends a line of a text file. -/
def IsLineEnd (c : Char) : Prop := c = '\n' ∨ c = '\r'

theorem isLineEnd_feed : IsLineEnd '\n' := Or.inl rfl

variable {c : Char}

/-- A name has no line end. -/
theorem not_mem_name (hc : IsLineEnd c) {text : String} (h : IsName text) : c ∉ text.toList := by
  intro hmem
  have hword : isWordChar c = true := h.2 _ hmem
  rcases hc with rfl | rfl
  · cases hword
  · cases hword

/-- The first line of an entity is a writing of its header. -/
theorem writes_header {name : String} (h : IsName name) :
    Writes ("class " ++ name ++ " \x7b") (.header name) := by
  have hraw : ("class " ++ name ++ " \x7b").toList =
      [] ++ ("class".toList ++ ([' '] ++ name.toList ++ [' '] ++ ['{'])) := by
    simp
  have hfound : Form.header? ("class".toList ++ ([' '] ++ name.toList ++ [' '] ++ ['{'])) =
      some name :=
    Form.header?_iff.2 ⟨"class".toList, [' '], name.toList, [' '], ['{'], by simp, by decide,
      runOf_space, h, runOf_space.2, by simp, String.ofList_toList⟩
  refine writes_of_recognise .header hraw (OnlyOf.nil _) (Form.run_of_declarator (by decide))
    ⟨_, '{', rfl, by decide⟩ ?_ ?_
  · simp [not_mem_name isLineEnd_feed h]
  · rw [Form.recognise, String.toList_ofList, hfound]
    rfl

/-- A name behind a colon with spaces around it is a type clause. -/
theorem typeClause?_written {type : String} (h : IsName type) :
    Form.typeClause? ([' '] ++ ':' :: ([' '] ++ type.toList ++ [])) = some type :=
  Form.typeClause?_iff.2 ⟨[' '], [' '], type.toList, [], rfl, runOf_space.2, runOf_space.2, h,
    Or.inl rfl, String.ofList_toList⟩

/-- A member is written with its name, perhaps some marks, and its type clause. -/
theorem writes_member (form : Form) {raw name type : String} {marks : List Char}
    {fragment : Fragment} (hname : IsName name) (htype : IsName type) (hmarks : '\n' ∉ marks)
    (hraw : raw.toList = [' ', ' '] ++ (name.toList ++ (marks ++
      ([' '] ++ ':' :: ([' '] ++ type.toList ++ [])))))
    (h : form.recognise (String.ofList (name.toList ++ (marks ++
      ([' '] ++ ':' :: ([' '] ++ type.toList ++ []))))) = some fragment) : Writes raw fragment := by
  refine writes_of_recognise form hraw (by decide) hname ?_ ?_ h
  · rw [List.append_nil]
    exact ((endsOutside_of_word htype).append [' ', ':', ' ']).append marks
  · rw [hraw]
    simp [not_mem_name isLineEnd_feed hname, not_mem_name isLineEnd_feed htype, hmarks]

/-- The line of an attribute is a writing of the attribute. -/
theorem writes_attr {member : Attribute} (h : (Fragment.attr member).WellFormed) :
    Writes ("  " ++ member.name ++ " : " ++ member.type) (.attr member) := by
  obtain ⟨hname, htype⟩ := h
  have hfound : Form.attr? (member.name.toList ++ ([] ++
      ([' '] ++ ':' :: ([' '] ++ member.type.toList ++ [])))) = some member :=
    Form.attr?_iff.2 ⟨member.name.toList, _, member.type, rfl, hname, typeClause?_written htype,
      by rw [String.ofList_toList]⟩
  refine writes_member .attr hname htype List.not_mem_nil (by simp) ?_
  rw [Form.recognise, String.toList_ofList, hfound]
  rfl

/-- The line of a method is a writing of the method, with empty parameters. -/
theorem writes_method {member : Method} (h : (Fragment.method member).WellFormed) :
    Writes ("  " ++ member.name ++ "() : " ++ member.returnType) (.method member) := by
  obtain ⟨hname, htype⟩ := h
  have hfound : Form.method? (member.name.toList ++ (['(', ')'] ++
      ([' '] ++ ':' :: ([' '] ++ member.returnType.toList ++ [])))) = some member :=
    Form.method?_iff.2 ⟨member.name.toList, [], _, member.returnType, rfl, hname,
      List.not_mem_nil, typeClause?_written htype, by rw [String.ofList_toList]⟩
  have hmarks : '\n' ∉ ['(', ')'] := by decide
  refine writes_member .method hname htype hmarks (by simp) ?_
  rw [Form.recognise, String.toList_ofList, hfound]
  rfl

/-- The lines of a well-formed entity have no line end. -/
theorem not_mem_entityLines (hc : IsLineEnd c) {entity : Entity}
    (h : entity.Parts Fragment.WellFormed) : ∀ raw ∈ entityLines entity, c ∉ raw.toList := by
  intro raw hraw
  simp only [entityLines, List.mem_cons, List.mem_append, List.mem_map, List.not_mem_nil,
    or_false] at hraw
  rcases hraw with hraw | (⟨member, hmember, hraw⟩ | ⟨member, hmember, hraw⟩) | hraw
  · have hname := not_mem_name hc h.name
    rw [hraw]
    rcases hc with rfl | rfl <;> simp [hname]
  · have hname := not_mem_name hc (h.attributes member hmember).1
    have htype := not_mem_name hc (h.attributes member hmember).2
    rw [← hraw]
    rcases hc with rfl | rfl <;> simp [hname, htype]
  · have hname := not_mem_name hc (h.methods member hmember).1
    have htype := not_mem_name hc (h.methods member hmember).2
    rw [← hraw]
    rcases hc with rfl | rfl <;> simp [hname, htype]
  · rw [hraw]
    rcases hc with rfl | rfl <;> decide

/-! ## Relationships and constraints -/

/-- A multiplicity with the space in front of it, or nothing if it is empty. -/
def multiplicityPart (text : String) : List Char :=
  if text = "" then [] else ' ' :: '"' :: text.toList ++ ['"']

/-- A label with its colon, or nothing if it is empty. -/
def labelPart (text : String) : List Char :=
  if text = "" then [] else ' ' :: ':' :: ' ' :: text.toList

/-- The characters of the line of a relationship, part by part. -/
theorem toList_relationshipLine (link : Relationship) :
    (relationshipLine link).toList =
      link.source.toList ++ (multiplicityPart link.sourceMultiplicity ++ ([' '] ++
        (link.kind.toList ++ (multiplicityPart link.targetMultiplicity ++ ([' '] ++
          (link.target.toList ++ labelPart link.label)))))) := by
  unfold relationshipLine connection multiplicity multiplicityPart labelPart
  by_cases hsource : link.sourceMultiplicity = "" <;>
    by_cases htarget : link.targetMultiplicity = "" <;>
      by_cases hlabel : link.label = "" <;>
        simp [hsource, htarget, hlabel, String.intercalate_cons_cons]

/-- The written multiplicity is one of the grammar. -/
theorem multiplicity_written {text : String} (h : '"' ∉ text.toList) :
    Multiplicity (multiplicityPart text) text.toList := by
  unfold multiplicityPart
  split
  · next hempty => exact Or.inl ⟨rfl, by rw [hempty]; rfl⟩
  · next hne => exact Or.inr ⟨[' '], rfl, runOf_space.2, by simpa using hne, h⟩

/-- A remark behind a space is a free text. -/
theorem freeText_written {text : String} (h : IsRemark text) :
    FreeText (' ' :: text.toList) text.toList where
  parts := ⟨[' '], [], by simp, runOf_space.2, Or.inl rfl⟩
  nonempty := h.nonempty
  oneLine := h.oneLine
  start := Or.inl h.first

/-- The written label is one of the grammar. -/
theorem label_written {text : String} (h : text = "" ∨ IsRemark text) :
    Label (labelPart text) text.toList := by
  unfold labelPart
  split
  · next hempty => exact Or.inl ⟨Or.inl rfl, by rw [hempty]; rfl⟩
  · next hne =>
      exact Or.inr ⟨[' '], ' ' :: text.toList, rfl, runOf_space.2,
        freeText_written (h.resolve_left hne)⟩

/-- A connector has no line end. -/
theorem not_mem_connector (hc : IsLineEnd c) {text : List Char}
    (h : RunOf Form.isConnectorChar text) : c ∉ text := by
  intro hmem
  have hconnector : Form.isConnectorChar c = true := h.2 _ hmem
  rcases hc with rfl | rfl
  · cases hconnector
  · cases hconnector

/-- A written multiplicity has no other line ends than the multiplicity. -/
theorem not_mem_multiplicityPart (hc : IsLineEnd c) {text : String} (h : c ∉ text.toList) :
    c ∉ multiplicityPart text := by
  unfold multiplicityPart
  split
  · exact List.not_mem_nil
  · rcases hc with rfl | rfl <;> simp [h]

/-- A written label has no other line ends than the label. -/
theorem not_mem_labelPart (hc : IsLineEnd c) {text : String} (h : c ∉ text.toList) :
    c ∉ labelPart text := by
  unfold labelPart
  split
  · exact List.not_mem_nil
  · rcases hc with rfl | rfl <;> simp [h]

/-- The line of a relationship has no other line ends than its multiplicities and its label. -/
theorem not_mem_relationshipLine (hc : IsLineEnd c) {link : Relationship} (h : link.WellFormed)
    (hlacks : (Fragment.relationship link).Lacks c) : c ∉ (relationshipLine link).toList := by
  have hspace : c ∉ [' '] := by rcases hc with rfl | rfl <;> decide
  rw [toList_relationshipLine]
  simp only [List.mem_append, not_or]
  exact ⟨not_mem_name hc h.source, not_mem_multiplicityPart hc hlacks.1, hspace,
    not_mem_connector hc h.kind, not_mem_multiplicityPart hc hlacks.2.1, hspace,
    not_mem_name hc h.target, not_mem_labelPart hc hlacks.2.2⟩

/-- The line of a constraint has no other line ends than its expression. -/
theorem not_mem_constraintLine (hc : IsLineEnd c) {rule : Constraint} (h : rule.WellFormed)
    (hlacks : (Fragment.constraint rule).Lacks c) : c ∉ (constraintLine rule).toList := by
  have hkind := not_mem_name hc h.kind
  have htarget := not_mem_name hc h.target
  have hexpression : c ∉ rule.expression.toList := hlacks
  rcases hc with rfl | rfl <;> simp [constraintLine, hkind, htarget, hexpression]

/-- A remark ends outside the blank characters. -/
theorem endsOutside_of_remark {text : String} (h : IsRemark text) :
    EndsOutside isBlank text.toList :=
  endsOutside_iff.2 ⟨h.nonempty, h.last⟩

/-- The line of a relationship is a writing of the relationship. -/
theorem writes_relationship {link : Relationship} (h : link.WellFormed)
    (hfeed : (Fragment.relationship link).OneLine) :
    Writes (relationshipLine link) (.relationship link) := by
  have hfound : Form.relationship? (link.source.toList ++
      (multiplicityPart link.sourceMultiplicity ++ ([' '] ++
        (link.kind.toList ++ (multiplicityPart link.targetMultiplicity ++ ([' '] ++
          (link.target.toList ++ labelPart link.label))))))) = some link :=
    Form.relationship?_iff.2 ⟨_, _, _, _, _, _, _, _, _, _, _, rfl, h.source,
      multiplicity_written h.sourceMultiplicity, runOf_space, h.kind,
      multiplicity_written h.targetMultiplicity, runOf_space, h.target, label_written h.label,
      by simp only [String.ofList_toList]⟩
  have hraw : (relationshipLine link).toList = [] ++ (link.source.toList ++ _) :=
    toList_relationshipLine link
  refine writes_of_recognise .relationship hraw (OnlyOf.nil _) h.source ?_ ?_ ?_
  · -- the line ends with the label, or with the target if there is no label
    have hend : EndsOutside isBlank (link.target.toList ++ labelPart link.label) := by
      unfold labelPart
      split
      · rw [List.append_nil]
        exact endsOutside_of_word h.target
      · next hne =>
          have hlabel := endsOutside_of_remark (h.label.resolve_left hne)
          exact (hlabel.append [' ', ':', ' ']).append link.target.toList
    exact ((((hend.append _).append _).append _).append _).append _
  · have hwellFormed : (Fragment.relationship link).WellFormed := h
    exact not_mem_relationshipLine isLineEnd_feed h (hwellFormed.lacks_feed hfeed)
  · rw [Form.recognise, String.toList_ofList, hfound]
    rfl

/-- The line of a constraint is a writing of the constraint. -/
theorem writes_constraint {rule : Constraint} (h : rule.WellFormed) :
    Writes (constraintLine rule) (.constraint rule) := by
  have hraw : (constraintLine rule).toList = [] ++ ("constraint".toList ++ ([' '] ++
      (rule.kind.toList ++ ([' '] ++ ("on".toList ++ ([' '] ++ (rule.target.toList ++
        ([' '] ++ ':' :: (' ' :: rule.expression.toList))))))))) := by
    simp [constraintLine]
  have hfound : Form.constraint? ("constraint".toList ++ ([' '] ++ (rule.kind.toList ++ ([' '] ++
      ("on".toList ++ ([' '] ++ (rule.target.toList ++
        ([' '] ++ ':' :: (' ' :: rule.expression.toList))))))))) = some rule :=
    Form.constraint?_iff.2 ⟨_, _, _, _, _, _, _, _, rfl, runOf_space, h.kind, runOf_space,
      runOf_space, h.target, runOf_space.2, freeText_written h.expression,
      by simp only [String.ofList_toList]⟩
  refine writes_of_recognise .constraint hraw (OnlyOf.nil _) (by decide) ?_ ?_ ?_
  · have hend := (endsOutside_of_remark h.expression).append [' ', ':', ' ']
    exact (((((hend.append _).append _).append _).append _).append _).append _
  · have hwellFormed : (Fragment.constraint rule).WellFormed := h
    exact not_mem_constraintLine isLineEnd_feed h (hwellFormed.lacks_feed trivial)
  · rw [Form.recognise, String.toList_ofList, hfound]
    rfl

end ClassDiagram.Diagram
