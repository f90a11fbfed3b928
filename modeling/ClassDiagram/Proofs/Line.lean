import ClassDiagram.Line
import ClassDiagram.Proofs.Form.Scan
import ClassDiagram.Text.Basic

/-!
# Trimmed lines

`trim_iff` says exactly what trimming leaves of a text, and `Line.classify_content_iff` when a raw
line is a content line and with which text. The other part is about cutting a text into lines: no
line has a line feed, and texts that are written one after the other are cut one by one.
-/

namespace ClassDiagram.Text

open Scan

/-! ## Trimming -/

/-- A text without blank characters at its two ends. -/
structure Trimmed (text : List Char) : Prop where
  first : Stops isBlank text
  last : Stops isBlank text.reverse

/-- Trimming leaves exactly what stands between blank characters and has none at its ends. -/
theorem trim_iff {text core : List Char} :
    trim text = core ↔ ∃ front back, text = front ++ (core ++ back) ∧ OnlyOf isBlank front ∧
      OnlyOf isBlank back ∧ Trimmed core := by
  constructor
  · intro h
    have hsplit : text.dropWhile isBlank = text.dropWhile isBlank := rfl
    obtain ⟨front, htext, hfront, hfirst⟩ := dropWhile_iff.1 hsplit
    have hrest : (text.dropWhile isBlank).reverse.dropWhile isBlank = core.reverse := by
      rw [← h, trim, dropAround, dropTrailing, List.reverse_reverse]
    obtain ⟨back, hback, hall, hlast⟩ := dropWhile_iff.1 hrest
    have hcore : text.dropWhile isBlank = core ++ back.reverse := by
      rw [← List.reverse_reverse (text.dropWhile isBlank), hback]
      simp
    refine ⟨front, back.reverse, by rw [← hcore]; exact htext, hfront, ?_, ?_, hlast⟩
    · exact fun c hc ↦ hall c (List.mem_reverse.1 hc)
    · intro c hc
      apply hfirst c
      rw [hcore, List.head?_append, Option.mem_def.1 hc]
      rfl
  · intro h
    obtain ⟨front, back, htext, hfront, hback, hcore⟩ := h
    have hback' : OnlyOf isBlank back.reverse := fun c hc ↦ hback c (List.mem_reverse.1 hc)
    have hdrop : text.dropWhile isBlank = core ++ back ∨ core = [] := by
      cases core with
      | nil => exact Or.inr rfl
      | cons c rest =>
          exact Or.inl (dropWhile_iff.2 ⟨front, htext, hfront, Stops.cons (hcore.first c rfl)⟩)
    rcases hdrop with hdrop | hnil
    · have hrest : (core ++ back).reverse.dropWhile isBlank = core.reverse :=
        dropWhile_iff.2 ⟨back.reverse, by simp, hback', hcore.last⟩
      rw [trim, dropAround, hdrop, dropTrailing, hrest, List.reverse_reverse]
    · -- nothing but blank characters
      have hall : text.dropWhile isBlank = [] :=
        dropWhile_iff.2 ⟨text, by simp, by rw [htext, hnil]; exact hfront.append hback, Stops.nil _⟩
      rw [trim, dropAround, hall, hnil]
      rfl

/-- Trimming adds no characters. -/
theorem mem_of_mem_trim {c : Char} {text : List Char} (h : c ∈ trim text) : c ∈ text := by
  have hself : trim text = trim text := rfl
  obtain ⟨front, back, htext, _⟩ := trim_iff.1 hself
  rw [htext]
  exact List.mem_append_right _ (List.mem_append_left _ h)

/-! ## Cutting a text into lines -/

/-- A separator in front of a text makes an empty piece, any other character goes to the first
piece. -/
theorem splitOn_cons (separator c : Char) (rest : List Char) :
    splitOn separator (c :: rest) =
      if c = separator then [] :: splitOn separator rest
      else (splitOn separator rest).modifyHead (c :: ·) := by
  by_cases h : c = separator
  · simp [splitOn, h]
  · simp [splitOn, h]

/-- The pieces of a text are those that the library finds. -/
theorem splitOn_eq (separator : Char) (text : List Char) :
    splitOn separator text = text.splitOn separator := by
  induction text with
  | nil => rfl
  | cons c rest ih =>
      rw [List.splitOn_cons_eq_if_modifyHead, ← ih, splitOn_cons]
      by_cases h : c = separator
      · simp [h]
      · simp [h]

/-- No piece of a text has the separator in it. -/
theorem not_mem_of_mem_splitOn {separator : Char} {text piece : List Char}
    (h : piece ∈ splitOn separator text) : separator ∉ piece := by
  induction text generalizing piece with
  | nil =>
      have hpiece : piece = [] := by simpa [splitOn] using h
      simp [hpiece]
  | cons c rest ih =>
      by_cases hc : c = separator
      · have hpieces : splitOn separator (c :: rest) = [] :: splitOn separator rest := by
          simp [splitOn, hc]
        rw [hpieces, List.mem_cons] at h
        rcases h with h | h
        · simp [h]
        · exact ih h
      · -- the character goes to the first piece of the rest
        obtain ⟨first, others, hrest⟩ : ∃ first others, splitOn separator rest = first :: others :=
          ⟨_, _, rfl⟩
        have hpieces : splitOn separator (c :: rest) = (c :: first) :: others := by
          simp only [splitOn, List.cons.injEq] at hrest
          simp [splitOn, hc, hrest]
        rw [hrest] at ih
        rw [hpieces, List.mem_cons] at h
        rcases h with h | h
        · rw [h, List.mem_cons, not_or]
          exact ⟨fun heq ↦ hc heq.symm, ih List.mem_cons_self⟩
        · exact ih (List.mem_cons_of_mem _ h)

/-- The pieces of a text have the characters of the text. -/
theorem mem_of_mem_splitOn {separator c : Char} {text piece : List Char}
    (h : piece ∈ splitOn separator text) (hc : c ∈ piece) : c ∈ text := by
  induction text generalizing piece with
  | nil =>
      rw [List.mem_singleton.1 h] at hc
      cases hc
  | cons d rest ih =>
      rw [splitOn_cons] at h
      split at h
      · rcases List.mem_cons.1 h with rfl | h
        · cases hc
        · exact List.mem_cons_of_mem _ (ih h hc)
      · obtain ⟨first, others, hrest⟩ : ∃ first others, splitOn separator rest = first :: others :=
          ⟨_, _, rfl⟩
        rw [hrest] at h ih
        rcases List.mem_cons.1 h with rfl | h
        · rcases List.mem_cons.1 hc with rfl | hc
          · exact List.mem_cons_self
          · exact List.mem_cons_of_mem _ (ih List.mem_cons_self hc)
        · exact List.mem_cons_of_mem _ (ih (List.mem_cons_of_mem _ h) hc)

/-- A text without the separator is one piece. -/
theorem splitOn_of_not_mem {separator : Char} {text : List Char} (h : separator ∉ text) :
    splitOn separator text = [text] := by
  rw [splitOn_eq, List.splitOn_eq_singleton h]

/-- Texts that are written with a separator behind each are cut one by one, and an empty piece
follows. -/
theorem splitOn_written (separator : Char) (texts : List (List Char)) :
    splitOn separator (texts.flatMap (· ++ [separator])) =
      texts.flatMap (splitOn separator) ++ [[]] := by
  induction texts with
  | nil => rfl
  | cons text rest ih =>
      rw [splitOn_eq] at ih ⊢
      rw [List.flatMap_cons, List.append_assoc, List.singleton_append,
        List.splitOn_append_cons_self, ih, List.flatMap_cons, List.append_assoc, splitOn_eq]

/-- The lines of a text, cut at its line feeds. -/
def linesOf (text : String) : List String := (splitOn '\n' text.toList).map String.ofList

/-- A text without a line feed is one line. -/
theorem linesOf_of_not_mem {text : String} (h : '\n' ∉ text.toList) : linesOf text = [text] := by
  rw [linesOf, splitOn_of_not_mem h, List.map_singleton, String.ofList_toList]

/-- No line of a text has a line feed in it. -/
theorem not_feed_of_mem_linesOf {text raw : String} (h : raw ∈ linesOf text) :
    '\n' ∉ raw.toList := by
  obtain ⟨piece, hpiece, hraw⟩ := List.mem_map.1 h
  rw [← hraw, String.toList_ofList]
  exact not_mem_of_mem_splitOn hpiece

/-- The lines of a text have the characters of the text. -/
theorem mem_of_mem_linesOf {c : Char} {text raw : String} (h : raw ∈ linesOf text)
    (hc : c ∈ raw.toList) : c ∈ text.toList := by
  obtain ⟨piece, hpiece, hraw⟩ := List.mem_map.1 h
  rw [← hraw, String.toList_ofList] at hc
  exact mem_of_mem_splitOn hpiece hc

end ClassDiagram.Text

namespace ClassDiagram

open Scan Text

/-- A content line has a trimmed text that is not empty, starts with neither of the two marks of a
line to skip, and is no closing brace. -/
theorem Line.classify_content_iff {raw text : String} :
    Line.classify raw = .content text ↔
      trim raw.toList = text.toList ∧ text.toList ≠ [] ∧ text.toList ≠ ['}'] ∧
        ∀ c ∈ text.toList.head?, c ≠ '@' ∧ c ≠ '\'' := by
  constructor
  · intro h
    unfold Line.classify at h
    cases htrim : trim raw.toList with
    | nil =>
        rw [htrim] at h
        cases h
    | cons first rest =>
        rw [htrim] at h
        dsimp only at h
        split at h
        · cases h
        · next hmark =>
            split at h
            · cases h
            · next hbrace =>
                cases h
                rw [String.toList_ofList]
                refine ⟨rfl, List.cons_ne_nil _ _, ?_, ?_⟩
                · intro heq
                  exact hbrace (by simpa using heq)
                · intro c hc
                  cases hc
                  exact not_or.1 hmark
  · intro h
    obtain ⟨htrim, hne, hbrace, hmark⟩ := h
    cases htext : text.toList with
    | nil => exact absurd htext hne
    | cons first rest =>
        rw [htext] at htrim hbrace hmark
        have hskip : ¬ (first = '@' ∨ first = '\'') := not_or.2 (hmark first rfl)
        have hclose : ¬ (first = '}' ∧ rest = []) := by
          intro heq
          exact hbrace (by rw [heq.1, heq.2])
        unfold Line.classify
        rw [htrim]
        dsimp only
        rw [if_neg hskip, if_neg hclose, ← htext, String.ofList_toList]

/-! ## Lines that start with a word -/

/-- The code points of word characters lie between those of the digit zero and the letter z. -/
theorem code_of_word {c : Char} (h : isWordChar c = true) : 48 ≤ c.toNat ∧ c.toNat ≤ 122 := by
  have hranges : isWordChar c =
      ((decide ('A'.val ≤ c.val ∧ c.val ≤ 'Z'.val) ||
        (decide ('a'.val ≤ c.val) && decide (c.val ≤ 'z'.val)) ||
        (decide ('0'.val ≤ c.val) && decide (c.val ≤ '9'.val))) || c == '_') := rfl
  have hrange : ∀ low high : Char, low.val ≤ c.val ∧ c.val ≤ high.val →
      48 ≤ low.toNat → high.toNat ≤ 122 → 48 ≤ c.toNat ∧ c.toNat ≤ 122 := by
    intro low high hc hlow hhigh
    exact ⟨Nat.le_trans hlow hc.1, Nat.le_trans hc.2 hhigh⟩
  rw [hranges] at h
  simp only [Bool.or_eq_true, Bool.and_eq_true, decide_eq_true_eq, beq_iff_eq] at h
  rcases h with ((h | h) | h) | h
  · exact hrange 'A' 'Z' h (by decide) (by decide)
  · exact hrange 'a' 'z' h (by decide) (by decide)
  · exact hrange '0' '9' h (by decide) (by decide)
  · rw [h]
    decide

/-- No word character is blank. -/
theorem not_blank_of_word {c : Char} (h : isWordChar c = true) : isBlank c = false := by
  have hcode := code_of_word h
  simp only [isBlank, Bool.or_eq_false_iff, Bool.and_eq_false_iff, decide_eq_false_iff_not,
    beq_eq_false_iff_ne, ne_eq]
  omega

/-- A text that is not empty and ends outside `p`. -/
def EndsOutside (p : Char → Bool) (text : List Char) : Prop :=
  ∃ front c, text = front ++ [c] ∧ p c = false

/-- What stands in front of a text does not change how it ends. -/
theorem EndsOutside.append {p : Char → Bool} {rest : List Char} (h : EndsOutside p rest)
    (front : List Char) : EndsOutside p (front ++ rest) := by
  obtain ⟨front', c, hrest, hc⟩ := h
  exact ⟨front ++ front', c, by rw [hrest, List.append_assoc], hc⟩

/-- A text ends outside `p` exactly if it is not empty and no run in `p` ends it. -/
theorem endsOutside_iff {p : Char → Bool} {text : List Char} :
    EndsOutside p text ↔ text ≠ [] ∧ Stops p text.reverse := by
  constructor
  · intro h
    obtain ⟨front, c, htext, hc⟩ := h
    rw [htext]
    refine ⟨by simp, ?_⟩
    rw [List.reverse_append]
    exact Stops.cons hc
  · intro h
    obtain ⟨hne, hstops⟩ := h
    refine ⟨text.dropLast, text.getLast hne, (List.dropLast_concat_getLast hne).symm, ?_⟩
    apply hstops
    rw [List.head?_reverse, List.getLast?_eq_some_getLast hne]
    rfl

/-- A word ends outside the blank characters. -/
theorem endsOutside_of_word {word : List Char} (h : RunOf isWordChar word) :
    EndsOutside isBlank word := by
  obtain ⟨hne, hall⟩ := h
  exact ⟨word.dropLast, word.getLast hne, (List.dropLast_concat_getLast hne).symm,
    not_blank_of_word (hall _ (List.getLast_mem hne))⟩

/-- A line that starts with a word behind blank characters and does not end with a blank character
is a content line. Its text is all that stands behind the blank characters. -/
theorem Line.classify_of_word {raw : String} {front word rest : List Char}
    (hraw : raw.toList = front ++ (word ++ rest)) (hfront : OnlyOf isBlank front)
    (hword : RunOf isWordChar word) (hend : EndsOutside isBlank (word ++ rest)) :
    Line.classify raw = .content (String.ofList (word ++ rest)) := by
  have htrimmed : Trimmed (word ++ rest) :=
    ⟨hword.stops fun _ ↦ not_blank_of_word, (endsOutside_iff.1 hend).2⟩
  have htrim : trim raw.toList = word ++ rest :=
    trim_iff.2 ⟨front, [], by rw [hraw, List.append_nil], hfront, OnlyOf.nil _, htrimmed⟩
  rw [Line.classify_content_iff, String.toList_ofList]
  obtain ⟨hne, hall⟩ := hword
  cases word with
  | nil => exact absurd rfl hne
  | cons c tail =>
      -- none of the characters that mark other kinds of lines belongs to a word
      have hc : isWordChar c = true := hall c List.mem_cons_self
      refine ⟨htrim, List.cons_ne_nil _ _, ?_, ?_⟩
      · intro hbrace
        exact ne_of_word hc (by decide) (List.cons.inj hbrace).1
      · intro d hd
        cases hd
        exact ⟨ne_of_word hc (by decide), ne_of_word hc (by decide)⟩

end ClassDiagram
