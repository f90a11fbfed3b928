import ClassDiagram.Output.Document

/-!
# Reading escaped texts

A title stands between double quotes, with its backslashes and its double quotes escaped. The reader
of this module goes through a text from left to right, and a backslash that it meets makes the next
character literal. `unescape_escapeQuotes` says that it reads an escaped text as the text itself,
and `title_escaping_exact` adds where it finds the quotes of a title.

Escaping replaces the backslashes first and the quotes second, and the second step puts in
backslashes that the first must not see. `toList_escapeQuotes` says that the two steps are one pass
over the characters. The reader has no backslash pending behind the escape of a character
(`readFrom_escape`), so it reads an escaped text one character after the other.
-/

namespace ClassDiagram.Text

/-! ## One pass -/

/-- How a character is written between double quotes. -/
def escape (c : Char) : List Char :=
  if c = '\\' then ['\\', '\\'] else if c = '"' then ['\\', '"'] else [c]

/-- Escaping a text escapes its characters one by one. -/
theorem toList_escapeQuotes (text : String) :
    (escapeQuotes text).toList = text.toList.flatMap escape := by
  rw [escapeQuotes, String.toList_ofList, substitute, substitute, List.flatMap_assoc]
  congr 1
  funext c
  by_cases hback : c = '\\'
  · simp [escape, hback]
  · by_cases hquote : c = '"'
    · simp [escape, hquote]
    · simp [escape, hback, hquote]

example : escapeQuotes "\\\"" = "\\\\\\\"" := by decide

/-! ## The reader -/

/-- A character that was read, with whether the backslash before it makes it literal. -/
structure ReadChar where
  char : Char
  literal : Bool
deriving DecidableEq, Repr

/-- Whether the character is a backslash that makes the next character literal. -/
def ReadChar.escapes (read : ReadChar) : Bool := !read.literal && read.char == '\\'

/-- The double quote that ends a quoted text, since no backslash makes it literal. -/
def bareQuote : ReadChar := ⟨'"', false⟩

/-- Reads a text from left to right. The flag says whether the first character is literal. -/
def readFrom (literal : Bool) : List Char → List ReadChar
  | [] => []
  | c :: rest =>
    let read : ReadChar := ⟨c, literal⟩
    read :: readFrom read.escapes rest

/-- The text that is read: every character but the backslashes that make others literal. -/
def unescape (text : List Char) : List Char :=
  ((readFrom false text).filter (!·.escapes)).map (·.char)

/-- Every character is read in its place. -/
theorem map_char_readFrom (literal : Bool) (text : List Char) :
    (readFrom literal text).map (·.char) = text := by
  induction text generalizing literal with
  | nil => rfl
  | cons c rest ih =>
      rw [readFrom, List.map_cons, ih]

theorem length_readFrom (literal : Bool) (text : List Char) :
    (readFrom literal text).length = text.length := by
  rw [← List.length_map ReadChar.char, map_char_readFrom]

/-! ## Reading escaped characters -/

/-- The escape of a character is read as the character, and it has no bare quote. Behind it nothing
is pending. -/
theorem readFrom_escape (c : Char) (rest : List Char) :
    ∃ reading, readFrom false (escape c ++ rest) = reading ++ readFrom false rest ∧
      (reading.filter (!·.escapes)).map (·.char) = [c] ∧ bareQuote ∉ reading := by
  by_cases hback : c = '\\'
  · rw [hback]
    exact ⟨[⟨'\\', false⟩, ⟨'\\', true⟩], rfl, by decide, by decide⟩
  · by_cases hquote : c = '"'
    · rw [hquote]
      exact ⟨[⟨'\\', false⟩, ⟨'"', true⟩], rfl, by decide, by decide⟩
    · have hescape : escape c = [c] := by simp [escape, hback, hquote]
      have hplain : ReadChar.escapes ⟨c, false⟩ = false := by simp [ReadChar.escapes, hback]
      refine ⟨[⟨c, false⟩], ?_, ?_, ?_⟩
      · rw [hescape, List.singleton_append, readFrom, hplain, List.singleton_append]
      · simp [hplain]
      · simpa [bareQuote] using Ne.symm hquote

/-- An escaped text is read as the text, and none of its quotes is bare. Behind it nothing is
pending. -/
theorem readFrom_escaped (text rest : List Char) :
    ∃ reading, readFrom false (text.flatMap escape ++ rest) = reading ++ readFrom false rest ∧
      (reading.filter (!·.escapes)).map (·.char) = text ∧ bareQuote ∉ reading := by
  induction text with
  | nil => exact ⟨[], rfl, rfl, List.not_mem_nil⟩
  | cons c text ih =>
      obtain ⟨others, hothers, htext, hbare⟩ := ih
      obtain ⟨first, hfirst, hc, hbare'⟩ := readFrom_escape c (text.flatMap escape ++ rest)
      refine ⟨first ++ others, ?_, ?_, ?_⟩
      · rw [List.flatMap_cons, List.append_assoc, hfirst, hothers, List.append_assoc]
      · rw [List.filter_append, List.map_append, hc, htext, List.singleton_append]
      · rw [List.mem_append, not_or]
        exact ⟨hbare', hbare⟩

/-- An escaped text is read as the text itself. -/
theorem unescape_escapeQuotes (text : String) :
    unescape (escapeQuotes text).toList = text.toList := by
  obtain ⟨reading, hreading, htext, -⟩ := readFrom_escaped text.toList []
  rw [List.append_nil] at hreading
  rw [unescape, toList_escapeQuotes, hreading, readFrom, List.append_nil, htext]

/-! ## The line of a title -/

/-- Where an item stands that occurs once inside a list and once at its end. -/
theorem getElem?_between {α : Type} {item : α} {front middle : List α} (hfront : item ∉ front)
    (hmiddle : item ∉ middle) (position : Nat) :
    (front ++ item :: (middle ++ [item]))[position]? = some item ↔
      position = front.length ∨ position + 1 = (front ++ item :: (middle ++ [item])).length := by
  have hlength : (front ++ item :: (middle ++ [item])).length =
      front.length + (middle.length + 1 + 1) := by
    simp
  rw [hlength]
  rcases Nat.lt_or_ge position front.length with hlt | hge
  · rw [List.getElem?_append_left hlt]
    have hnot : front[position]? ≠ some item := fun heq ↦ hfront (List.mem_of_getElem? heq)
    simp only [hnot, false_iff]
    omega
  · obtain ⟨offset, rfl⟩ := Nat.exists_eq_add_of_le hge
    rw [List.getElem?_append_right hge, Nat.add_sub_cancel_left]
    cases offset with
    | zero => simp
    | succ offset =>
        rw [List.getElem?_cons_succ]
        rcases Nat.lt_trichotomy offset middle.length with hlt | rfl | hgt
        · rw [List.getElem?_append_left hlt]
          have hnot : middle[offset]? ≠ some item := fun heq ↦ hmiddle (List.mem_of_getElem? heq)
          simp only [hnot, false_iff]
          omega
        · rw [List.getElem?_append_right (Nat.le_refl _), Nat.sub_self]
          simp [Nat.add_assoc]
        · have hnone : (middle ++ [item])[offset]? = none := by
            rw [List.getElem?_eq_none_iff, List.length_append, List.length_singleton]
            omega
          simp only [hnone, reduceCtorEq, false_iff]
          omega

end ClassDiagram.Text

namespace ClassDiagram

open Text

/-- The escaping of titles. It is one pass that writes two backslashes for each backslash and a
backslash and a double quote for each double quote. Reading the result gives the title back, so
titles that are escaped alike are the same. In the line of a title, the double quotes that no
backslash makes literal are the one that opens the title and the last character of the line. -/
theorem title_escaping_exact (title : String) :
    (escapeQuotes title).toList = title.toList.flatMap (fun c ↦
      if c = '\\' then ['\\', '\\'] else if c = '"' then ['\\', '"'] else [c]) ∧
    unescape (escapeQuotes title).toList = title.toList ∧
    (∀ other, escapeQuotes other = escapeQuotes title ↔ other = title) ∧
    let line := (Document.titleLine title).toList
    let reading := readFrom false line
    line = "title \"".toList ++ (escapeQuotes title).toList ++ ['"'] ∧
      reading.map (·.char) = line ∧
      ∀ position, reading[position]? = some bareQuote ↔
        position = "title ".length ∨ position + 1 = line.length := by
  have hinjective : ∀ other, escapeQuotes other = escapeQuotes title → other = title := by
    intro other heq
    rw [← String.toList_inj, ← unescape_escapeQuotes other, heq, unescape_escapeQuotes]
  have hline : (Document.titleLine title).toList =
      "title \"".toList ++ (escapeQuotes title).toList ++ ['"'] := by
    simp [Document.titleLine]
  refine ⟨toList_escapeQuotes title, unescape_escapeQuotes title,
    fun other ↦ ⟨hinjective other, congrArg escapeQuotes⟩, hline, map_char_readFrom false _, ?_⟩
  intro position
  obtain ⟨inside, hinside, -, hbare⟩ := readFrom_escaped title.toList ['"']
  -- the reader goes over the opening of the line without a backslash
  have hreading : readFrom false (Document.titleLine title).toList =
      readFrom false "title ".toList ++ bareQuote :: (inside ++ [bareQuote]) := by
    rw [hline, toList_escapeQuotes, List.append_assoc]
    show readFrom false "title ".toList ++
      bareQuote :: readFrom false (title.toList.flatMap escape ++ ['"']) = _
    rw [hinside]
    rfl
  rw [← length_readFrom false, hreading]
  exact getElem?_between (by decide) hbare position

end ClassDiagram
