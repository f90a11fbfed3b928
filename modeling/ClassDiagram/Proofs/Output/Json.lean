import ClassDiagram.Output.Format
import ClassDiagram.Proofs.Form.Scan
import ClassDiagram.Proofs.Output.JsonReader

/-!
# The JSON text of a model reads back

The text of a JSON value is read as the value, whatever the nesting depth it is written at and
whatever follows it. The induction is on the value. Its step is `list?_inside`, which is about the
layout of arrays and objects alike: elements that are read back one by one are read back as a list,
with the gaps and commas that a block puts between them.

Since a value can be had back from its text, no two values have the same text. In particular two
models have the same JSON text exactly if they are the same as JSON values, and that is to say that
they have the same entities, relationships and constraints (`same_json_iff`).
-/

namespace ClassDiagram

open Scan

namespace Json

/-- What holds of every string, and of an array or an object whenever it holds of the values inside,
holds of every value. -/
@[elab_as_elim]
theorem induct {P : Json → Prop} (text : ∀ value, P (.text value))
    (array : ∀ items, (∀ item ∈ items, P item) → P (.array items))
    (object : ∀ fields, (∀ field ∈ fields, P field.2) → P (.object fields)) (value : Json) :
    P value :=
  match value with
  | .text value => text value
  | .array items => array items fun item _ ↦ induct text array object item
  | .object fields => object fields fun field _ ↦ induct text array object field.2
termination_by value
decreasing_by
  · have hlt := List.sizeOf_lt_of_mem ‹item ∈ items›
    simp only [Json.array.sizeOf_spec]
    omega
  · have hlt := List.sizeOf_lt_of_mem ‹field ∈ fields›
    obtain ⟨key, value⟩ := field
    simp only [Json.object.sizeOf_spec, Prod.mk.sizeOf_spec] at hlt ⊢
    omega

/-! ## The layout of arrays and objects -/

theorem renderItems_eq (depth : Nat) (items : List Json) :
    renderItems depth items = items.map (render depth) := by
  induction items with
  | nil => rfl
  | cons item items ih => rw [renderItems, ih, List.map_cons]

/-- The text of a field. -/
def fieldText (depth : Nat) (field : String × Json) : String :=
  quote field.1 ++ ": " ++ field.2.render depth

theorem renderFields_eq (depth : Nat) (fields : List (String × Json)) :
    renderFields depth fields = fields.map (fieldText depth) := by
  induction fields with
  | nil => rfl
  | cons field fields ih =>
      obtain ⟨key, value⟩ := field
      rw [renderFields, ih, List.map_cons]
      rfl

/-- The characters of a line feed and an indentation. -/
def gap (depth : Nat) : List Char := (newline depth).toList

/-- The characters between the marks of a block: each text behind a gap, with commas between. -/
def inside (depth : Nat) : List String → List Char
  | [] => []
  | first :: others =>
    gap (depth + 1) ++ (first.toList ++
      (others.flatMap (fun other ↦ ',' :: (gap (depth + 1) ++ other.toList)) ++ gap depth))

theorem toList_block (opening closing : String) (depth : Nat) (texts : List String) :
    (block opening closing depth texts).toList =
      opening.toList ++ (inside depth texts ++ closing.toList) := by
  cases texts with
  | nil => simp [block, inside]
  | cons first others =>
      have hjoin : (("," ++ newline (depth + 1)).intercalate (first :: others)).toList =
          first.toList ++ others.flatMap fun other ↦ ',' :: (gap (depth + 1) ++ other.toList) := by
        induction others generalizing first with
        | nil => simp
        | cons other others ih =>
            rw [String.intercalate_cons_cons, String.toList_append, String.toList_append, ih,
              List.flatMap_cons]
            simp [gap]
      rw [block, if_neg (List.cons_ne_nil _ _)]
      simp only [String.toList_append, hjoin, List.append_assoc, gap, inside]

/-- A block is longer than any text in it. -/
theorem length_le_inside {α : Type} (write : α → String) {element : α} {elements : List α}
    (h : element ∈ elements) (depth : Nat) :
    (write element).toList.length ≤ (inside depth (elements.map write)).length := by
  obtain ⟨before, after, rfl⟩ := List.append_of_mem h
  cases before with
  | nil =>
      simp only [List.nil_append, List.map_cons, inside, List.length_append]
      omega
  | cons first before =>
      simp only [List.cons_append, List.map_cons, List.map_append, inside, List.flatMap_append,
        List.flatMap_cons, List.length_append, List.length_cons]
      omega

/-- Every text in a block has a character of the block to itself, its comma or the last gap. -/
theorem count_le_inside (depth : Nat) (texts : List String) :
    texts.length ≤ (inside depth texts).length := by
  cases texts with
  | nil => exact Nat.zero_le _
  | cons first others =>
      have hcommas : others.length ≤
          (others.flatMap fun other ↦ ',' :: (gap (depth + 1) ++ other.toList)).length := by
        induction others with
        | nil => exact Nat.zero_le _
        | cons other others ih =>
            simp only [List.flatMap_cons, List.length_append, List.length_cons]
            omega
      have hgap : 0 < (gap depth).length := by simp [gap, newline]
      simp only [inside, List.length_append, List.length_cons]
      omega

/-- The characters between the marks of a block are those of its texts, commas and spaces. -/
theorem onlyOf_inside {p : Char → Bool} {texts : List String} (hcomma : p ',' = true)
    (hspace : p ' ' = true) (hfeed : p '\n' = true) (h : ∀ text ∈ texts, OnlyOf p text.toList)
    (depth : Nat) : OnlyOf p (inside depth texts) := by
  have hgap : ∀ depth, OnlyOf p (gap depth) := by
    intro depth c hc
    rw [gap, newline, String.toList_ofList, List.mem_cons] at hc
    rcases hc with rfl | hc
    · exact hfeed
    · rw [List.eq_of_mem_replicate hc]
      exact hspace
  cases texts with
  | nil => exact OnlyOf.nil p
  | cons first others =>
      rw [List.forall_mem_cons] at h
      refine (hgap _).append (h.1.append (OnlyOf.append ?_ (hgap _)))
      intro c hc
      obtain ⟨other, hother, hc⟩ := List.mem_flatMap.1 hc
      rcases List.mem_cons.1 hc with rfl | hc
      · exact hcomma
      · exact (hgap _).append (h.2 other hother) c hc

/-- A gap is made of spaces. -/
theorem onlyOf_gap (depth : Nat) : OnlyOf isSpace (gap depth) := by
  intro c hc
  rw [gap, newline, String.toList_ofList, List.mem_cons] at hc
  rcases hc with rfl | hc
  · rfl
  · rw [List.eq_of_mem_replicate hc]
    rfl

theorem skipSpace_append {front : List Char} (h : OnlyOf isSpace front) (rest : List Char) :
    skipSpace (front ++ rest) = skipSpace rest :=
  List.dropWhile_append_of_pos h

theorem skipSpace_cons {c : Char} (h : isSpace c = false) (rest : List Char) :
    skipSpace (c :: rest) = c :: rest := by
  rw [skipSpace, List.dropWhile_cons_of_neg]
  rw [h]
  exact Bool.false_ne_true

section Lists

variable {α : Type} {element? : List Char → Option (α × List Char)} {closing : Char}
  {write : α → String} {depth : Nat}

/-- Elements that are read back one by one are read back up to the mark that closes their list. -/
theorem elements?_written (hclosing : isSpace closing = false) (hcomma : closing ≠ ',')
    {first : α} {others : List α}
    (hread : ∀ element ∈ first :: others, ∀ rest,
      element? (gap (depth + 1) ++ ((write element).toList ++ rest)) = some (element, rest))
    {count : Nat} (hcount : others.length < count) (rest : List Char) :
    elements? element? closing count (gap (depth + 1) ++ ((write first).toList ++
      (others.flatMap (fun other ↦ ',' :: (gap (depth + 1) ++ (write other).toList)) ++
        (gap depth ++ closing :: rest)))) = some (first :: others, rest) := by
  induction others generalizing first count with
  | nil =>
      obtain ⟨count, rfl⟩ : ∃ n, count = n + 1 := ⟨count - 1, by omega⟩
      rw [elements?, hread first List.mem_cons_self]
      simp [skipSpace_append (onlyOf_gap depth), skipSpace_cons hclosing]
  | cons other others ih =>
      obtain ⟨count, rfl⟩ : ∃ n, count = n + 1 := ⟨count - 1, by omega⟩
      have hrest := ih (fun element helement ↦ hread element (List.mem_cons_of_mem _ helement))
        (by simpa using hcount)
      rw [elements?, hread first List.mem_cons_self]
      simp [skipSpace_cons (show isSpace ',' = false from rfl), Ne.symm hcomma, hrest]

/-- Elements that are read back one by one are read back as the list that a block makes of them. -/
theorem list?_inside (hclosing : isSpace closing = false) (hcomma : closing ≠ ',')
    {elements : List α}
    (hread : ∀ element ∈ elements, ∀ rest,
      element? (gap (depth + 1) ++ ((write element).toList ++ rest)) = some (element, rest))
    (hstart : ∀ element ∈ elements, ∃ c more, (write element).toList = c :: more ∧
      isSpace c = false ∧ c ≠ closing) (rest : List Char) :
    list? element? closing (inside depth (elements.map write) ++ closing :: rest) =
      some (elements, rest) := by
  cases elements with
  | nil =>
      show list? element? closing (closing :: rest) = _
      rw [list?, skipSpace_cons hclosing, char?, if_pos rfl]
  | cons first others =>
      obtain ⟨c, more, hfirst, hspace, hmark⟩ := hstart first List.mem_cons_self
      have hinside : inside depth ((first :: others).map write) ++ closing :: rest =
          gap (depth + 1) ++ ((write first).toList ++
            (others.flatMap (fun other ↦ ',' :: (gap (depth + 1) ++ (write other).toList)) ++
              (gap depth ++ closing :: rest))) := by
        simp only [List.map_cons, inside, List.flatMap_map, List.append_assoc]
      -- the list does not end at once, since a text comes first
      have hnot : char? closing (skipSpace (inside depth ((first :: others).map write) ++
          closing :: rest)) = none := by
        rw [hinside, skipSpace_append (onlyOf_gap _), hfirst, List.cons_append,
          skipSpace_cons hspace, char?, if_neg hmark]
      have hcount : others.length < (inside depth ((first :: others).map write) ++
          closing :: rest).length := by
        have hle := count_le_inside depth ((first :: others).map write)
        rw [List.length_map, List.length_cons] at hle
        rw [List.length_append]
        omega
      rw [list?, hnot]
      show elements? element? closing _ _ = _
      rw [hinside] at hcount ⊢
      exact elements?_written hclosing hcomma hread hcount rest

end Lists

/-! ## Values -/

theorem toList_quote (text : String) :
    (quote text).toList = '"' :: (text.toList.flatMap escapeChar ++ ['"']) := by
  rw [quote, String.toList_ofList, List.cons_append]

theorem toList_fieldText (depth : Nat) (field : String × Json) :
    (fieldText depth field).toList = '"' :: (field.1.toList.flatMap escapeChar ++
      '"' :: ':' :: ' ' :: (field.2.render depth).toList) := by
  simp [fieldText, toList_quote]

/-- The text of a value starts with a mark that is neither a space nor closes a list. -/
theorem exists_render_start (value : Json) (depth : Nat) :
    ∃ c more, (value.render depth).toList = c :: more ∧ isSpace c = false ∧ c ≠ ']' := by
  cases value with
  | text value => exact ⟨'"', _, by rw [render, toList_quote], rfl, by decide⟩
  | array items => exact ⟨'[', _, by rw [render, toList_block]; rfl, rfl, by decide⟩
  | object fields => exact ⟨'{', _, by rw [render, toList_block]; rfl, rfl, by decide⟩

/-- Spaces in front of a value do not matter. -/
theorem value?_append {front : List Char} (h : OnlyOf isSpace front) (nesting : Nat)
    (rest : List Char) : value? nesting (front ++ rest) = value? nesting rest := by
  cases nesting with
  | zero => rfl
  | succ nesting => rw [value?, value?, skipSpace_append h]

/-- The text of a field is read as the field, if that of its value is read as the value. -/
theorem field?_fieldText {front : List Char} (hfront : OnlyOf isSpace front)
    {value? : List Char → Option (Json × List Char)} {field : String × Json} {depth : Nat}
    {rest : List Char}
    (h : value? (' ' :: ((field.2.render depth).toList ++ rest)) = some (field.2, rest)) :
    field? value? (front ++ ((fieldText depth field).toList ++ rest)) = some (field, rest) := by
  rw [field?, toList_fieldText, skipSpace_append hfront, List.cons_append, skipSpace_cons rfl]
  simp [char?, string?_escaped, skipSpace_cons (show isSpace ':' = false from rfl), h]

theorem value?_quote (nesting : Nat) (rest : List Char) :
    value? (nesting + 1) ('"' :: rest) =
      (string? rest).map fun (value, rest) ↦ (.text value, rest) := by
  rw [value?, skipSpace_cons rfl]
  rfl

theorem value?_bracket (nesting : Nat) (rest : List Char) :
    value? (nesting + 1) ('[' :: rest) =
      (list? (value? nesting) ']' rest).map fun (items, rest) ↦ (.array items, rest) := by
  rw [value?, skipSpace_cons rfl]
  rfl

theorem value?_brace (nesting : Nat) (rest : List Char) :
    value? (nesting + 1) ('{' :: rest) =
      (list? (field? (value? nesting)) '}' rest).map
        fun (fields, rest) ↦ (.object fields, rest) := by
  rw [value?, skipSpace_cons rfl]
  rfl

theorem toList_render_array (depth : Nat) (items : List Json) :
    (Json.render depth (.array items)).toList =
      '[' :: (inside depth (items.map (render (depth + 1))) ++ [']']) := by
  rw [render, renderItems_eq, toList_block]
  rfl

theorem toList_render_object (depth : Nat) (fields : List (String × Json)) :
    (Json.render depth (.object fields)).toList =
      '{' :: (inside depth (fields.map (fieldText (depth + 1))) ++ ['}']) := by
  rw [render, renderFields_eq, toList_block]
  rfl

/-- The text of a value is read as the value, whatever follows it. A text is longer than its value
is nested. -/
theorem value?_render (value : Json) (depth : Nat) {nesting : Nat}
    (h : (value.render depth).toList.length ≤ nesting) (rest : List Char) :
    value? nesting ((value.render depth).toList ++ rest) = some (value, rest) := by
  induction value using induct generalizing depth nesting rest with
  | text value =>
      rw [render, toList_quote] at h ⊢
      obtain ⟨nesting, rfl⟩ : ∃ n, nesting = n + 1 := Nat.exists_eq_succ_of_ne_zero (by
        rw [List.length_cons] at h
        omega)
      rw [List.cons_append, List.append_assoc, value?_quote]
      show (string? (_ ++ '"' :: rest)).map _ = _
      rw [string?_escaped]
      rfl
  | array items ih =>
      rw [toList_render_array] at h ⊢
      rw [List.length_cons, List.length_append, List.length_singleton] at h
      obtain ⟨nesting, rfl⟩ : ∃ n, nesting = n + 1 :=
        Nat.exists_eq_succ_of_ne_zero (by omega)
      have hread : ∀ item ∈ items, ∀ rest, value? nesting
          (gap (depth + 1) ++ ((item.render (depth + 1)).toList ++ rest)) = some (item, rest) := by
        intro item hitem rest
        have hle := length_le_inside (render (depth + 1)) hitem depth
        rw [value?_append (onlyOf_gap _)]
        exact ih item hitem (depth + 1) (by omega) rest
      have hcomma : ']' ≠ ',' := by decide
      have hitems := list?_inside rfl hcomma hread (fun item _ ↦ exists_render_start item _) rest
      rw [List.cons_append, List.append_assoc, value?_bracket]
      show (list? _ ']' (_ ++ ']' :: rest)).map _ = _
      rw [hitems]
      rfl
  | object fields ih =>
      rw [toList_render_object] at h ⊢
      rw [List.length_cons, List.length_append, List.length_singleton] at h
      obtain ⟨nesting, rfl⟩ : ∃ n, nesting = n + 1 :=
        Nat.exists_eq_succ_of_ne_zero (by omega)
      have hread : ∀ field ∈ fields, ∀ rest, field? (value? nesting)
          (gap (depth + 1) ++ ((fieldText (depth + 1) field).toList ++ rest)) =
            some (field, rest) := by
        intro field hfield rest
        have hle := length_le_inside (fieldText (depth + 1)) hfield depth
        rw [toList_fieldText, List.length_cons, List.length_append] at hle
        simp only [List.length_cons] at hle
        refine field?_fieldText (onlyOf_gap _) ?_
        have hspace : OnlyOf isSpace [' '] := by decide
        rw [← List.singleton_append, value?_append hspace]
        exact ih field hfield (depth + 1) (by omega) rest
      have hcomma : '}' ≠ ',' := by decide
      have hfields := list?_inside rfl hcomma hread
        (fun field _ ↦ ⟨'"', _, toList_fieldText _ field, rfl, by decide⟩) rest
      rw [List.cons_append, List.append_assoc, value?_brace]
      show (list? _ '}' (_ ++ '}' :: rest)).map _ = _
      rw [hfields]
      rfl

/-- The text of a value with spaces behind it is read as the value. -/
theorem read?_render (value : Json) (depth : Nat) {behind : List Char}
    (h : OnlyOf isSpace behind) :
    read? ((value.render depth).toList ++ behind) = some value := by
  have hlength : (value.render depth).toList.length ≤
      ((value.render depth).toList ++ behind).length := by
    rw [List.length_append]
    omega
  have hbehind : skipSpace behind = [] := by
    rw [← List.append_nil behind, skipSpace_append h]
    rfl
  rw [read?, value?_render value depth hlength]
  simp [hbehind]

/-! ## The characters of a JSON text -/

/-- A character of ASCII that is printed, or a line feed. -/
def isPlain (c : Char) : Bool := (0x20 ≤ c.toNat && c.toNat < 0x7F) || c == '\n'

theorem onlyOf_escapeUnit (unit : Nat) : OnlyOf isPlain (escapeUnit unit) := by
  have hdigit : ∀ digit < 16, isPlain (Nat.digitChar digit) = true := by decide
  intro c hc
  rw [escapeUnit, List.mem_cons, List.mem_cons] at hc
  rcases hc with rfl | rfl | hc
  · rfl
  · rfl
  · obtain ⟨place, -, rfl⟩ := List.mem_map.1 hc
    exact hdigit _ (Nat.mod_lt _ (by omega))

/-- Every character is escaped by plain characters. -/
theorem onlyOf_escapeChar (c : Char) : OnlyOf isPlain (escapeChar c) := by
  unfold escapeChar
  split_ifs with hmark hfeed hreturn htab hback hform hplain
  · rcases hmark with rfl | rfl <;> decide
  iterate 5 decide
  · intro d hd
    rw [List.mem_singleton.1 hd]
    simp [isPlain, hplain]
  · exact onlyOf_escapeUnit _
  · exact (onlyOf_escapeUnit _).append (onlyOf_escapeUnit _)

theorem onlyOf_quote (text : String) : OnlyOf isPlain (quote text).toList := by
  rw [toList_quote]
  intro c hc
  simp only [List.mem_cons, List.mem_append, List.mem_flatMap, List.not_mem_nil, or_false] at hc
  rcases hc with rfl | ⟨d, -, hc⟩ | rfl
  · rfl
  · exact onlyOf_escapeChar d c hc
  · rfl

/-- The text of a value has plain characters only. -/
theorem onlyOf_render (value : Json) (depth : Nat) :
    OnlyOf isPlain (value.render depth).toList := by
  induction value using induct generalizing depth with
  | text value =>
      rw [render]
      exact onlyOf_quote value
  | array items ih =>
      have hinside : OnlyOf isPlain (inside depth (items.map (render (depth + 1)))) := by
        refine onlyOf_inside rfl rfl rfl ?_ depth
        intro text htext
        obtain ⟨item, hitem, rfl⟩ := List.mem_map.1 htext
        exact ih item hitem (depth + 1)
      have hopening : OnlyOf isPlain ['['] := by decide
      have hclosing : OnlyOf isPlain [']'] := by decide
      rw [toList_render_array]
      exact hopening.append (hinside.append hclosing)
  | object fields ih =>
      have hinside : OnlyOf isPlain (inside depth (fields.map (fieldText (depth + 1)))) := by
        refine onlyOf_inside rfl rfl rfl ?_ depth
        intro text htext
        obtain ⟨field, hfield, rfl⟩ := List.mem_map.1 htext
        have hcolon : OnlyOf isPlain ": ".toList := by decide
        rw [fieldText, String.toList_append, String.toList_append]
        exact ((onlyOf_quote _).append hcolon).append (ih field hfield (depth + 1))
      have hopening : OnlyOf isPlain ['{'] := by decide
      have hclosing : OnlyOf isPlain ['}'] := by decide
      rw [toList_render_object]
      exact hopening.append (hinside.append hclosing)

/-! ## Models -/

theorem record_injective : Function.Injective record := by
  intro fields others h
  have hfield : Function.Injective fun field : String × String ↦ (field.1, text field.2) := by
    rintro ⟨key, value⟩ ⟨key', value'⟩ heq
    cases heq
    rfl
  exact List.map_injective_iff.2 hfield (object.inj h)

theorem ofAttribute_injective : Function.Injective ofAttribute := by
  intro a b h
  cases a
  cases b
  simpa using record_injective h

theorem ofMethod_injective : Function.Injective ofMethod := by
  intro m n h
  cases m
  cases n
  simpa using record_injective h

theorem ofEntity_injective : Function.Injective ofEntity := by
  intro entity other h
  cases entity
  cases other
  simpa [ofEntity, List.map_inj_right ofAttribute_injective,
    List.map_inj_right ofMethod_injective] using h

theorem ofRelationship_injective : Function.Injective ofRelationship := by
  intro r s h
  cases r
  cases s
  simpa using record_injective h

theorem ofConstraint_injective : Function.Injective ofConstraint := by
  intro c d h
  cases c
  cases d
  simpa using record_injective h

/-- Two models are the same as JSON values exactly if they have the same entities in the same order,
the same relationships and the same constraints. -/
theorem ofModel_inj {model other : Model} :
    ofModel model = ofModel other ↔
      model.entities.values = other.entities.values ∧
        model.relationships = other.relationships ∧ model.constraints = other.constraints := by
  constructor
  · intro h
    have hfields := object.inj h
    simp only [List.cons.injEq, Prod.mk.injEq, array.injEq, true_and, and_true] at hfields
    obtain ⟨hentities, hrelationships, hconstraints⟩ := hfields
    exact ⟨List.map_injective_iff.2 ofEntity_injective hentities,
      List.map_injective_iff.2 ofRelationship_injective hrelationships,
      List.map_injective_iff.2 ofConstraint_injective hconstraints⟩
  · rintro ⟨hentities, hrelationships, hconstraints⟩
    rw [ofModel, ofModel, hentities, hrelationships, hconstraints]

end Json

/-- The JSON text of a model is that of its value and a line feed. -/
theorem toList_json (model : Model) (title : Option String) :
    (Format.json.document model title).text.toList =
      ((Json.ofModel model).render 0).toList ++ ['\n'] := by
  simp [Format.document, Json.document, Document.writeLine, Document.text]

/-- The JSON text of a model is read as its value. -/
theorem read?_json (model : Model) (title : Option String) :
    Json.read? (Format.json.document model title).text.toList = some (Json.ofModel model) := by
  have hfeed : OnlyOf Json.isSpace ['\n'] := by decide
  rw [toList_json, Json.read?_render _ 0 hfeed]

/-- Two models have the same JSON text exactly if they have the same JSON value. -/
theorem json_text_inj {model other : Model} {title title' : Option String} :
    (Format.json.document model title).text = (Format.json.document other title').text ↔
      Json.ofModel model = Json.ofModel other := by
  constructor
  · intro htext
    have hsame := read?_json model title
    rw [htext, read?_json other title'] at hsame
    exact (Option.some.inj hsame).symm
  · intro hvalue
    apply String.toList_inj.1
    rw [toList_json, toList_json, hvalue]

/-- Two models have the same JSON text exactly if they have the same entities in the same order, the
same relationships and the same constraints. -/
theorem same_json_iff {model other : Model} {title title' : Option String} :
    (Format.json.document model title).text = (Format.json.document other title').text ↔
      model.entities.values = other.entities.values ∧
        model.relationships = other.relationships ∧ model.constraints = other.constraints :=
  json_text_inj.trans Json.ofModel_inj

/-- The JSON text of a model has no other characters than those of ASCII, none below the space but
line feeds, and one line feed at its end. It is read as the JSON value of the model, so two models
have the same JSON text exactly if they have the same JSON value. -/
theorem json_lossless (model : Model) (title : Option String) :
    (∀ c ∈ (Format.json.document model title).text.toList,
      c.toNat < 0x80 ∧ (c.toNat < 0x20 → c = '\n')) ∧
    (∃ body, (Format.json.document model title).text.toList = body ++ ['\n'] ∧
      body.getLast? ≠ some '\n') ∧
    Json.read? (Format.json.document model title).text.toList = some (Json.ofModel model) ∧
    ∀ other title', (Format.json.document model title).text =
        (Format.json.document other title').text ↔
      Json.ofModel model = Json.ofModel other := by
  refine ⟨?_, ⟨_, toList_json model title, ?_⟩, read?_json model title,
    fun _ _ ↦ json_text_inj⟩
  · intro c hc
    have hfeed : OnlyOf Json.isPlain ['\n'] := by decide
    rw [toList_json] at hc
    have hplain := (Json.onlyOf_render (Json.ofModel model) 0).append hfeed c hc
    simp only [Json.isPlain, Bool.or_eq_true, Bool.and_eq_true, decide_eq_true_eq,
      beq_iff_eq] at hplain
    rcases hplain with hplain | rfl
    · exact ⟨by omega, fun hlow ↦ by omega⟩
    · exact ⟨by decide, fun _ ↦ rfl⟩
  · rw [Json.ofModel, Json.toList_render_object, ← List.cons_append, List.getLast?_concat]
    decide

end ClassDiagram
