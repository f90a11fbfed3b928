import ClassDiagram.Proofs.Line
import ClassDiagram.Proofs.Reader.Run
import ClassDiagram.Text.Quotes

/-!
# Sources that are read alike

A reader trims every line before it looks at it. So it takes in two lists of lines in the same way
if their lines have the same trimmed texts, whatever the grammar. In particular the line feeds of a
stream do not matter, and neither does the empty line that a text has behind its last line feed:
a text is read alike as a text and as a stream. Carriage returns before the line feeds do not
matter either. `sources_read_alike` puts these together.
-/

namespace ClassDiagram

open Scan Text

/-! ## Lines with the same trimmed texts -/

/-- Blank characters behind a text are trimmed away. -/
theorem Text.trim_append {behind : List Char} (h : OnlyOf isBlank behind) (text : List Char) :
    trim (text ++ behind) = trim text := by
  have hself : trim text = trim text := rfl
  obtain ⟨front, back, htext, hfront, hback, hcore⟩ := trim_iff.1 hself
  refine trim_iff.2 ⟨front, back ++ behind, ?_, hfront, hback.append h, hcore⟩
  calc
    text ++ behind = front ++ (trim text ++ back) ++ behind := congrArg (· ++ behind) htext
    _ = front ++ (trim text ++ (back ++ behind)) := by simp only [List.append_assoc]

/-- A line feed behind a text is trimmed away. -/
theorem Text.trim_feed (text : List Char) : trim (text ++ ['\n']) = trim text :=
  trim_append (by decide) text

/-- A carriage return behind a text is trimmed away. -/
theorem Text.trim_return (text : List Char) : trim (text ++ ['\r']) = trim text :=
  trim_append (by decide) text

/-- How a line is treated depends on its trimmed text alone. -/
theorem Line.classify_congr {raw other : String} (h : trim raw.toList = trim other.toList) :
    Line.classify raw = Line.classify other := by
  unfold Line.classify
  rw [h]

namespace Reader

variable {grammar : Grammar} {strict : Bool} {reader : Reader} {number : Int}

/-- Lines with the same trimmed texts are taken in alike. -/
theorem feedAll_congr {lines others : List String}
    (h : lines.map (fun raw ↦ trim raw.toList) = others.map fun raw ↦ trim raw.toList) :
    reader.feedAll grammar strict number lines = reader.feedAll grammar strict number others := by
  induction lines generalizing reader number others with
  | nil =>
      cases others with
      | nil => rfl
      | cons other others => cases h
  | cons raw rest ih =>
      cases others with
      | nil => cases h
      | cons other others =>
          obtain ⟨hraw, hrest⟩ := List.cons.inj h
          have hfeed : reader.feed grammar strict number raw =
              reader.feed grammar strict number other := by
            rw [feed, feed, Line.classify_congr hraw]
          rw [feedAll, feedAll, hfeed]
          cases reader.feed grammar strict number other with
          | error refusal => rfl
          | ok result => simp only [ih hrest]

/-- An empty line at the end changes nothing. -/
theorem feedAll_concat_empty (lines : List String) :
    reader.feedAll grammar strict number (lines ++ [""]) =
      reader.feedAll grammar strict number lines := by
  rw [feedAll_append]
  dsimp only
  split
  · rfl
  · next hnone =>
      have hempty : ∀ (reader : Reader) (number : Int),
          reader.feedAll grammar strict number [""] = { reader } := fun _ _ ↦ rfl
      rw [hempty, List.append_nil, ← hnone]

/-- A source that ends by itself is read by its lines. -/
theorem read_congr {ε : Type} {lines others : List String}
    (h : reader.feedAll grammar strict 1 lines = reader.feedAll grammar strict 1 others) :
    reader.read grammar strict (⟨lines, .finished⟩ : Source ε) =
      reader.read grammar strict ⟨others, .finished⟩ := by
  unfold read
  dsimp only
  rw [h]
  cases (reader.feedAll grammar strict 1 others).halt with
  | none => rfl
  | some refusal => rfl

/-- Sources with the same trimmed texts and the same ending are read alike. -/
theorem read_congr_trim {ε : Type} {lines others : List String}
    (h : lines.map (fun raw ↦ trim raw.toList) = others.map fun raw ↦ trim raw.toList)
    (ending : Ending ε) :
    reader.read grammar strict ⟨lines, ending⟩ = reader.read grammar strict ⟨others, ending⟩ := by
  have hlength : lines.length = others.length := by simpa using congrArg List.length h
  unfold read
  dsimp only
  rw [feedAll_congr h, hlength]

end Reader

/-! ## Texts and streams -/

/-- The lines of a stream are the pieces between the line feeds with these line feeds behind them,
but for an empty last piece. -/
theorem Text.streamLines_eq (text : List Char) :
    ∃ pieces last, splitOn '\n' text = pieces ++ [last] ∧
      streamLines text = pieces.map (· ++ ['\n']) ++ if last = [] then [] else [last] := by
  induction text with
  | nil => exact ⟨[], [], rfl, rfl⟩
  | cons c rest ih =>
      obtain ⟨pieces, last, hsplit, hlines⟩ := ih
      have hstream : streamLines (c :: rest) = consLine c (streamLines rest) := rfl
      by_cases hfeed : c = '\n'
      · refine ⟨[] :: pieces, last, by rw [splitOn_cons, if_pos hfeed, hsplit]; rfl, ?_⟩
        rw [hstream, hlines]
        simp [consLine, hfeed]
      · -- the character goes to the first piece and to the first line
        rw [splitOn_cons, if_neg hfeed, hsplit, hstream, hlines]
        cases pieces with
        | nil =>
            refine ⟨[], c :: last, rfl, ?_⟩
            by_cases hlast : last = []
            · simp [consLine, hfeed, hlast]
            · simp [consLine, hfeed, hlast]
        | cons first others =>
            refine ⟨(c :: first) :: others, last, rfl, ?_⟩
            simp [consLine, hfeed]

variable {ε : Type}

/-- A text is read alike as a text and as a stream. -/
theorem parse_ofStream (grammar : Grammar) (strict : Bool) (text : String) :
    parse grammar strict (Source.ofStream text : Source ε) =
      parse grammar strict (Source.ofText text) := by
  obtain ⟨pieces, last, hsplit, hlines⟩ := Text.streamLines_eq text.toList
  rw [Source.ofStream, Source.ofText, hsplit, hlines]
  apply Reader.read_congr
  by_cases hlast : last = []
  · have hempty : (pieces ++ [last]).map String.ofList = pieces.map String.ofList ++ [""] := by
      rw [hlast, List.map_append]
      rfl
    rw [hempty, Reader.feedAll_concat_empty]
    apply Reader.feedAll_congr
    simp [hlast, Text.trim_feed, Function.comp_def]
  · apply Reader.feedAll_congr
    simp [hlast, Text.trim_feed, Function.comp_def]

/-! ## Carriage returns before the line feeds -/

/-- A text with a carriage return before each of its line feeds. -/
def Text.withReturns (text : List Char) : List Char := substitute '\n' ['\r', '\n'] text

/-- Carriage returns before the line feeds end all pieces of a text but the last. -/
theorem Text.splitOn_withReturns (text : List Char) :
    ∃ pieces last, splitOn '\n' text = pieces ++ [last] ∧
      splitOn '\n' (withReturns text) = pieces.map (· ++ ['\r']) ++ [last] := by
  induction text with
  | nil => exact ⟨[], [], rfl, rfl⟩
  | cons c rest ih =>
      obtain ⟨pieces, last, hsplit, hreturns⟩ := ih
      by_cases hfeed : c = '\n'
      · have htext : withReturns (c :: rest) = '\r' :: '\n' :: withReturns rest := by
          simp [withReturns, substitute, hfeed]
        refine ⟨[] :: pieces, last, ?_, ?_⟩
        · rw [splitOn_cons, if_pos hfeed, hsplit, List.cons_append]
        · rw [htext, splitOn_cons, if_neg (by decide), splitOn_cons, if_pos rfl, hreturns]
          rfl
      · -- the character goes to the first piece of both texts
        have htext : withReturns (c :: rest) = c :: withReturns rest := by
          simp [withReturns, substitute, hfeed]
        rw [htext, splitOn_cons, splitOn_cons, if_neg hfeed, if_neg hfeed, hsplit, hreturns]
        cases pieces with
        | nil => exact ⟨[], c :: last, rfl, rfl⟩
        | cons first others => exact ⟨(c :: first) :: others, last, rfl, rfl⟩

/-- A text is read alike with and without carriage returns before its line feeds. -/
theorem parse_withReturns (grammar : Grammar) (strict : Bool) (text : String) :
    parse grammar strict (Source.ofText (String.ofList (withReturns text.toList)) : Source ε) =
      parse grammar strict (Source.ofText text) := by
  obtain ⟨pieces, last, hsplit, hreturns⟩ := Text.splitOn_withReturns text.toList
  rw [Source.ofText, Source.ofText, String.toList_ofList, hsplit, hreturns]
  apply Reader.read_congr_trim
  simp [Text.trim_return, Function.comp_def]

/-- A text is read alike as a text, as a stream, as the list of the pieces between its line feeds,
and with a carriage return before each line feed: the model, the numbers and texts of its unmatched
lines and the events are the same, whatever the grammar, and with the standard grammar there always
is a model. More than that, two sources with equally many lines and the same ending are read alike
if each line of the one has the same trimmed text as the line of the other in its place. -/
theorem sources_read_alike (grammar : Grammar) (strict : Bool) :
    (∀ text : String,
      parse grammar strict (Source.ofStream text : Source ε) =
          parse grammar strict (Source.ofText text) ∧
        parse grammar strict
            (⟨(text.toList.splitOn '\n').map String.ofList, .finished⟩ : Source ε) =
          parse grammar strict (Source.ofText text) ∧
        parse grammar strict
            (Source.ofText (String.ofList (withReturns text.toList)) : Source ε) =
          parse grammar strict (Source.ofText text) ∧
        ∃ model, (parse Grammar.standard strict (Source.ofText text : Source ε)).model? =
          .ok model) ∧
    ∀ (lines others : List String) (ending : Ending ε), lines.length = others.length →
      (∀ i (h : i < lines.length) (h' : i < others.length),
        trim lines[i].toList = trim others[i].toList) →
      parse grammar strict ⟨lines, ending⟩ = parse grammar strict ⟨others, ending⟩ := by
  refine ⟨?_, ?_⟩
  · intro text
    refine ⟨parse_ofStream grammar strict text, ?_, parse_withReturns grammar strict text,
      _, parse_lines strict _⟩
    rw [Source.ofText, splitOn_eq]
  · intro lines others ending hlength htrim
    refine Reader.read_congr_trim (List.ext_getElem (by simpa using hlength) ?_) ending
    intro i hi hi'
    rw [List.getElem_map, List.getElem_map]
    exact htrim i (by simpa using hi) (by simpa using hi')

/-- Lines with blank characters around them, from a source that fails behind them. -/
theorem sources_read_alike_blank :
    let source : Source Unit := ⟨["class A \x7b", "x : T", "+"], .failed ()⟩
    let other : Source Unit := ⟨["\u2003class A \x7b\r", "\tx : T\n", "+\x1C \n"], .failed ()⟩
    parse Grammar.standard true source = parse Grammar.standard true other ∧
      (parse Grammar.standard true other).reader.model.unmatched = [⟨3, "+"⟩] ∧
      (parse Grammar.standard true other).halt = some (.unreadable 3 ()) := by
  intro source other
  have htrim : ∀ i (h : i < source.lines.length) (h' : i < other.lines.length),
      trim source.lines[i].toList = trim other.lines[i].toList := by
    decide
  refine ⟨(sources_read_alike Grammar.standard true).2 source.lines other.lines (.failed ()) rfl
    htrim, ?_, ?_⟩
  · decide
  · decide

end ClassDiagram
