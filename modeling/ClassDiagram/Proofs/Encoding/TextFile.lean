import ClassDiagram.Proofs.Encoding.Exact
import ClassDiagram.Proofs.Reader.Run
import ClassDiagram.Proofs.Source
import ClassDiagram.Run

/-!
# Files are read as their texts

A file is decoded by chunks, its line ends become line feeds, and its lines are collected from the
characters. `file_reads_as_text` says that nothing of this shows in the result: the model is that
of the whole text with its line ends replaced, wherever the chunks end.

There are three steps. A decoding that succeeds on all bytes at once succeeds on the chunks, and
gives the same characters (`TextFile.readChunks_eq`). The lines that a buffer collects are those of
a stream over the text with its line ends replaced (`LineBuffer.receiveAll_eq`). And a stream is
read as its text, which is `parse_ofStream`. Where nothing is known of the bytes but that they can
be decoded to their end, by whatever codec, `Codec.exists_source` still gives such a stream.
-/

namespace ClassDiagram

/-! ## Line ends -/

namespace Text

/-- A text with a line feed for every carriage return and line feed in a row. -/
def joinPairs : List Char → List Char
  | [] => []
  | [c] => [c]
  | c :: d :: rest =>
    if c = '\r' ∧ d = '\n' then '\n' :: joinPairs rest else c :: joinPairs (d :: rest)

/-- A text with a line feed for every carriage return and line feed in a row, and then for every
carriage return that is left. -/
def normalNewlines (text : List Char) : List Char :=
  (joinPairs text).map fun c ↦ if c = '\r' then '\n' else c

theorem normalNewlines_pair (rest : List Char) :
    normalNewlines ('\r' :: '\n' :: rest) = '\n' :: normalNewlines rest := rfl

/-- A carriage return that no line feed follows. -/
theorem normalNewlines_return {rest : List Char} (h : rest.head? ≠ some '\n') :
    normalNewlines ('\r' :: rest) = '\n' :: normalNewlines rest := by
  cases rest with
  | nil => rfl
  | cons c rest =>
      have hc : ¬ c = '\n' := by simpa using h
      simp [normalNewlines, joinPairs, hc]

theorem normalNewlines_cons {c : Char} (h : c ≠ '\r') (rest : List Char) :
    normalNewlines (c :: rest) = c :: normalNewlines rest := by
  cases rest with
  | nil => simp [normalNewlines, joinPairs, h]
  | cons d rest => simp [normalNewlines, joinPairs, h]

/-- A text without carriage returns is left as it is. -/
theorem normalNewlines_of_not_mem {text : List Char} (h : '\r' ∉ text) :
    normalNewlines text = text := by
  induction text with
  | nil => rfl
  | cons c rest ih =>
      rw [List.mem_cons, not_or] at h
      rw [normalNewlines_cons (Ne.symm h.1), ih h.2]

/-- No carriage return is left. -/
theorem not_return_normalNewlines (text : List Char) : '\r' ∉ normalNewlines text := by
  intro hmem
  obtain ⟨c, _, hc⟩ := List.mem_map.1 hmem
  split at hc
  · cases hc
  · next hne => exact hne hc

/-- The first line of a stream ends with its first line feed. -/
theorem streamLines_append {front : List Char} (h : '\n' ∉ front) (rest : List Char) :
    streamLines (front ++ '\n' :: rest) = (front ++ ['\n']) :: streamLines rest := by
  induction front with
  | nil => simp [streamLines, consLine]
  | cons c front ih =>
      rw [List.mem_cons, not_or] at h
      have hc : ¬ c = '\n' := fun heq ↦ h.1 heq.symm
      have hstream : streamLines (c :: front ++ '\n' :: rest) =
          consLine c (streamLines (front ++ '\n' :: rest)) := rfl
      rw [hstream, ih h.2]
      simp [consLine, hc]

/-- A stream without line feeds is one line, if there is anything in it. -/
theorem streamLines_of_not_mem {text : List Char} (h : '\n' ∉ text) :
    streamLines text = if text = [] then [] else [text] := by
  induction text with
  | nil => rfl
  | cons c rest ih =>
      rw [List.mem_cons, not_or] at h
      have hc : ¬ c = '\n' := fun heq ↦ h.1 heq.symm
      have hstream : streamLines (c :: rest) = consLine c (streamLines rest) := rfl
      rw [hstream, ih h.2]
      by_cases hrest : rest = []
      · simp [consLine, hc, hrest]
      · simp [consLine, hc, hrest]

end Text

namespace LineBuffer

open Text

/-- The carriage return that a buffer holds back. -/
def held (buffer : LineBuffer) : List Char := if buffer.heldReturn then ['\r'] else []

/-- The lines that a buffer is going to deliver if the given characters come next and nothing
follows them: those of a stream that begins with the unfinished line and goes on with the held
carriage return and the characters, with their line ends replaced. -/
def linesTo (buffer : LineBuffer) (text : List Char) : List String :=
  (streamLines (buffer.unfinished.reverse ++ normalNewlines (buffer.held ++ text))).map
    String.ofList

/-- The unfinished line has no line feed in it. -/
def Sound (buffer : LineBuffer) : Prop := '\n' ∉ buffer.unfinished

variable {buffer : LineBuffer}

/-- A line feed that comes next in the stream completes the unfinished line. -/
theorem linesTo_feed (h : buffer.Sound) {text rest : List Char}
    (htext : normalNewlines (buffer.held ++ text) = '\n' :: rest) :
    buffer.linesTo text = buffer.complete :: (streamLines rest).map String.ofList := by
  have hfront : '\n' ∉ buffer.unfinished.reverse := fun hmem ↦ h (List.mem_reverse.1 hmem)
  rw [linesTo, htext, streamLines_append hfront, List.map_cons, complete]

/-- One character delivers the first of the lines to come. -/
theorem linesTo_cons (h : buffer.Sound) (c : Char) (rest : List Char) :
    buffer.linesTo (c :: rest) = (buffer.receive c).2 ++ (buffer.receive c).1.linesTo rest := by
  unfold receive
  by_cases hreturn : c = '\r'
  · cases hheld : buffer.heldReturn with
    | true =>
        -- the held carriage return ends its line, and the new one is held
        have hstream : normalNewlines (buffer.held ++ c :: rest) =
            '\n' :: normalNewlines ('\r' :: rest) := by
          rw [held, hheld, hreturn]
          exact normalNewlines_return (by simp)
        rw [linesTo_feed h hstream]
        simp [hreturn, linesTo, held]
    | false => simp [hreturn, linesTo, held, hheld]
  · by_cases hfeed : c = '\n'
    · have hstream : normalNewlines (buffer.held ++ c :: rest) = '\n' :: normalNewlines rest := by
        rw [held, hfeed]
        split
        · exact normalNewlines_pair rest
        · exact normalNewlines_cons (by decide) rest
      rw [linesTo_feed h hstream]
      simp [hfeed, linesTo, held]
    · cases hheld : buffer.heldReturn with
      | true =>
          have hstream : normalNewlines (buffer.held ++ c :: rest) =
              '\n' :: c :: normalNewlines rest := by
            rw [held, hheld, ← normalNewlines_cons hreturn]
            exact normalNewlines_return (by simpa using hfeed)
          rw [linesTo_feed h hstream]
          simp [hreturn, hfeed, linesTo, held]
      | false => simp [hreturn, hfeed, linesTo, held, hheld, normalNewlines_cons hreturn]

/-- One character keeps a buffer sound. -/
theorem Sound.receive (h : buffer.Sound) (c : Char) : (buffer.receive c).1.Sound := by
  unfold LineBuffer.receive
  split_ifs with hreturn hheld hfeed hheld
  · exact List.not_mem_nil
  · exact h
  · exact List.not_mem_nil
  · exact fun hmem ↦ hfeed (List.mem_singleton.1 hmem).symm
  · intro hmem
    rcases List.mem_cons.1 hmem with hmem | hmem
    · exact hfeed hmem.symm
    · exact h hmem

/-- At its end a buffer delivers the lines that are still to come. -/
theorem linesTo_nil (h : buffer.Sound) : buffer.linesTo [] = buffer.finish := by
  cases hheld : buffer.heldReturn with
  | true =>
      have hstream : normalNewlines (buffer.held ++ []) = ['\n'] := by
        rw [held, hheld]
        rfl
      rw [linesTo_feed h hstream, finish, hheld]
      rfl
  | false =>
      have hfront : '\n' ∉ buffer.unfinished.reverse := fun hmem ↦ h (List.mem_reverse.1 hmem)
      rw [linesTo, finish, held, hheld]
      simp only [Bool.false_eq_true, if_false, List.append_nil, normalNewlines, joinPairs,
        List.map_nil, streamLines_of_not_mem hfront, List.reverse_eq_nil_iff]
      split
      · rfl
      · rfl

/-- A buffer that takes characters delivers the lines to come, one after the other, and the last of
them at its end. -/
theorem receiveAll_eq (h : buffer.Sound) (text : List Char) :
    (buffer.receiveAll text).2 ++ (buffer.receiveAll text).1.finish = buffer.linesTo text := by
  induction text generalizing buffer with
  | nil => exact (linesTo_nil h).symm
  | cons c rest ih =>
      rw [linesTo_cons h, ← ih (h.receive c), receiveAll, List.append_assoc]

/-- Characters may be taken in two parts. -/
theorem receiveAll_append (buffer : LineBuffer) (first second : List Char) :
    buffer.receiveAll (first ++ second) =
      (((buffer.receiveAll first).1.receiveAll second).1,
        (buffer.receiveAll first).2 ++ ((buffer.receiveAll first).1.receiveAll second).2) := by
  induction first generalizing buffer with
  | nil => rfl
  | cons c rest ih => simp only [List.cons_append, receiveAll, ih, List.append_assoc]

end LineBuffer

/-! ## Chunks -/

/-- A decoder that may end gives no more characters. -/
theorem Decoder.finish_chunks {last : Decoder} (h : last.finish = .ok ()) :
    ChunkDecoder.finish last = .ok [] := by
  show last.finish.map (fun _ ↦ []) = .ok []
  rw [h]
  rfl

namespace TextFile

variable {δ : Type} [ChunkDecoder δ]

/-- The characters of a chunk go through the buffer. -/
theorem readChunk_ok {file : TextFile δ} {chunk : List UInt8} {decoder : δ} {text : List Char}
    (h : ChunkDecoder.feedChunk file.decoder chunk = .ok (decoder, text)) :
    file.readChunk chunk =
      .ok (⟨decoder, (file.buffer.receiveAll text).1⟩, (file.buffer.receiveAll text).2) := by
  rw [readChunk, h]
  rfl

/-- Bytes that can be decoded as a whole can be decoded by chunks, wherever the chunks end. The file
delivers the lines that its buffer collects from the characters. -/
theorem readChunks_eq {decoder last : Decoder} {buffer : LineBuffer} {text : List Char}
    {cuts : List (List UInt8)} (h : decoder.feed cuts.flatten = .ok (last, text))
    (hfinish : last.finish = .ok ()) (hmark : last.mode ≠ .utf16Unmarked) :
    readChunks ⟨decoder, buffer⟩ cuts =
      ⟨(buffer.receiveAll text).2 ++ (buffer.receiveAll text).1.finish, .finished⟩ := by
  induction cuts generalizing decoder last buffer text with
  | nil =>
      cases h
      rw [readChunks, Decoder.finish_chunks hfinish]
  | cons chunk rest ih =>
      rw [List.flatten_cons] at h
      obtain ⟨middle, front, back, hfirst, hrest, htext⟩ := Decoder.feed_append_iff.1 h
      -- the chunk is decoded with positions of its own
      obtain ⟨offset, hfirst'⟩ := Decoder.feed_offset hfirst 0
      obtain ⟨offset', hrest'⟩ := Decoder.feed_offset hrest offset
      have hmiddle : middle.mode ≠ .utf16Unmarked := by
        intro hmode
        exact hmark ((Decoder.mode_feed (by rw [hmode]; rfl) hrest).trans hmode)
      have hchunk : decoder.feedChunk chunk = .ok ({ middle with offset }, front) := by
        rw [Decoder.feedChunk, hfirst']
        exact if_neg fun hmissing ↦ hmiddle hmissing.1
      rw [readChunks, readChunk_ok hchunk]
      dsimp only
      rw [ih hrest' hfinish hmark, ← htext, LineBuffer.receiveAll_append]
      simp only [List.append_assoc]

/-- The chunks of some bytes are these bytes in order. -/
theorem flatten_chunks {size : Nat} (h : size ≠ 0) (bytes : List UInt8) :
    (chunks size bytes).flatten = bytes := by
  induction bytes using chunks.induct size with
  | case1 bytes hend =>
      rw [chunks, if_pos hend]
      exact (hend.resolve_right h).symm
  | case2 bytes hmore ih =>
      rw [chunks, if_neg hmore, List.flatten_cons, ih, List.take_append_drop]

/-- A file with a writing of a text is a stream over the text with its line ends replaced, wherever
its chunks end. -/
theorem readChunks_of_writes {encoding : Encoding} {bytes : List UInt8} {text : List Char}
    (h : encoding.Writes text bytes) {cuts : List (List UInt8)} (hcuts : cuts.flatten = bytes) :
    readChunks { decoder := Decoder.start encoding } cuts =
      Source.ofStream (String.ofList (Text.normalNewlines text)) := by
  obtain ⟨last, hfeed, hfinish, hmark⟩ := Decoder.feed_start_iff.2 (Or.inl h)
  rw [← hcuts] at hfeed
  have hsound : ({} : LineBuffer).Sound := List.not_mem_nil
  rw [readChunks_eq hfeed hfinish hmark, LineBuffer.receiveAll_eq hsound, Source.ofStream,
    String.toList_ofList]
  rfl

/-- A file that is decoded to its end, by whatever decoder, delivers the lines that its buffer
collects from some text. -/
theorem exists_readChunks {file : TextFile δ} {cuts : List (List UInt8)}
    (h : (file.readChunks cuts).ending = .finished) :
    ∃ text, file.readChunks cuts =
      ⟨(file.buffer.receiveAll text).2 ++ (file.buffer.receiveAll text).1.finish, .finished⟩ := by
  induction cuts generalizing file with
  | nil =>
      cases hfinish : ChunkDecoder.finish file.decoder with
      | error failure =>
          rw [readChunks, hfinish] at h
          cases h
      | ok text =>
          rw [readChunks, hfinish]
          exact ⟨text, rfl⟩
  | cons chunk rest ih =>
      cases hchunk : ChunkDecoder.feedChunk file.decoder chunk with
      | error failure =>
          have hread : file.readChunk chunk = .error failure := by
            rw [readChunk, hchunk]
            rfl
          rw [readChunks, hread] at h
          cases h
      | ok result =>
          obtain ⟨decoder, front⟩ := result
          rw [readChunks, readChunk_ok hchunk] at h ⊢
          obtain ⟨back, hrest⟩ := ih h
          refine ⟨front ++ back, ?_⟩
          dsimp only
          rw [hrest, LineBuffer.receiveAll_append]
          simp only [List.append_assoc]

end TextFile

namespace Codec

/-- A file that is decoded to its end is a stream over a text without carriage returns. -/
theorem exists_source {codec : Codec} {bytes : List UInt8}
    (h : (codec.source bytes).ending = .finished) :
    ∃ text : String, '\r' ∉ text.toList ∧ codec.source bytes = Source.ofStream text := by
  obtain ⟨text, htext⟩ := TextFile.exists_readChunks h
  have hsound : ({} : LineBuffer).Sound := List.not_mem_nil
  rw [LineBuffer.receiveAll_eq hsound] at htext
  refine ⟨String.ofList (Text.normalNewlines text), ?_, ?_⟩
  · rw [String.toList_ofList]
    exact Text.not_return_normalNewlines text
  · rw [source, htext, Source.ofStream, String.toList_ofList]
    rfl

/-- A file with a writing of a text is a stream over the text with its line ends replaced. -/
theorem source_of_writes {encoding : Encoding} {bytes : List UInt8} {text : List Char}
    (h : encoding.Writes text bytes) :
    encoding.codec.source bytes = Source.ofStream (String.ofList (Text.normalNewlines text)) := by
  have hsize : TextFile.chunkSize ≠ 0 := nofun
  exact TextFile.readChunks_of_writes h (TextFile.flatten_chunks hsize bytes)

/-- An encoding that is written out here has its own codec. -/
theorem ofName_encoding [Codecs] {name : String} {encoding : Encoding}
    (h : Encoding.ofName name = .ok encoding) : ofName name = .ok encoding.codec := by
  rw [ofName, h]
  rfl

end Codec

/-! ## Files -/

/-- A file that is there is opened with the codec of the given name. -/
theorem openFile_eq [Codecs] {tree : FileTree} {path : Path} {name : String} {bytes : List UInt8}
    {codec : Codec} (hzero : Char.ofNat 0 ∉ name.toList) (hname : Codec.ofName name = .ok codec)
    (hread : tree.read path = .ok bytes) : openFile tree path name = .ok (codec.source bytes) := by
  rw [openFile, if_neg (by simpa using hzero), hread]
  dsimp only
  rw [hname]

/-- A file that could be opened is read as its source. -/
theorem loadFile_eq [Codecs] {tree : FileTree} {path : Path} {name : String}
    {source : Source DecodeError} (h : openFile tree path name = .ok source) (grammar : Grammar)
    (strict : Bool) :
    (loadFile grammar strict name tree path).1 =
      (parse grammar strict source).model?.mapError .halted := by
  have hsource : (loadSource grammar strict source).1 =
      (parse grammar strict source).model?.mapError .halted := rfl
  rw [loadFile, h, ← hsource]
  dsimp only
  split
  · next heq => rw [heq]
  · rfl

/-- A file whose bytes are the writing of a text in an encoding is read as the text with a line feed
for each of its line ends, whatever the grammar. It does not matter where the chunks end in which
the bytes are decoded, be it inside a character or between a carriage return and its line feed.
With the standard grammar both always have a model, and it is the same. -/
theorem file_reads_as_text [Codecs] (grammar : Grammar) (strict : Bool) {encoding : Encoding}
    {bytes : List UInt8} {text : List Char} (h : encoding.Writes text bytes) :
    (∀ cuts : List (List UInt8), cuts.flatten = bytes →
      parse grammar strict (TextFile.readChunks { decoder := Decoder.start encoding } cuts) =
        parse grammar strict (Source.ofText (String.ofList (Text.normalNewlines text)))) ∧
    ∀ (name : String) (tree : FileTree) (path : Path), Char.ofNat 0 ∉ name.toList →
      Encoding.ofName name = .ok encoding → tree.read path = .ok bytes →
      (loadFile grammar strict name tree path).1 =
          (parse grammar strict (Source.ofText
            (String.ofList (Text.normalNewlines text)))).model?.mapError .halted ∧
        ∃ model, (loadFile Grammar.standard strict name tree path).1 = .ok model ∧
          (parse Grammar.standard strict (Source.ofText
            (String.ofList (Text.normalNewlines text)) : Source DecodeError)).model? =
              .ok model := by
  have hcuts : ∀ (grammar : Grammar) (cuts : List (List UInt8)), cuts.flatten = bytes →
      parse grammar strict (TextFile.readChunks { decoder := Decoder.start encoding } cuts) =
        parse grammar strict (Source.ofText (String.ofList (Text.normalNewlines text))) := by
    intro grammar cuts hflatten
    rw [TextFile.readChunks_of_writes h hflatten, parse_ofStream]
  refine ⟨hcuts grammar, ?_⟩
  intro name tree path hzero hname hread
  have hopen := openFile_eq hzero (Codec.ofName_encoding hname) hread
  have hload : ∀ grammar : Grammar, (loadFile grammar strict name tree path).1 =
      (parse grammar strict (Source.ofText
        (String.ofList (Text.normalNewlines text)))).model?.mapError .halted := by
    intro grammar
    rw [loadFile_eq hopen, Codec.source_of_writes h, parse_ofStream]
  refine ⟨hload grammar, modelOf strict _, ?_, parse_lines strict _⟩
  rw [hload, Source.ofText, parse_lines]
  rfl

/-- The usual names of the encodings. -/
example : ["utf-8", "utf-8-sig", "ascii", "latin-1", "cp1252", "utf-16-le", "utf-16-be",
    "utf-16"].map Encoding.ofName =
      [.ok .utf8, .ok .utf8Signed, .ok .ascii, .ok .latin1, .ok .windows1252, .ok .utf16Little,
        .ok .utf16Big, .ok .utf16] := by
  decide

/-- The first two chunks end inside a character and between a carriage return and its line feed. -/
theorem file_reads_as_text_cut :
    ∃ model : Model,
      (parse Grammar.standard true (TextFile.readChunks { decoder := Decoder.start .utf8 }
        [[0xC3], [0xA9, 0x0D], [0x0A, 0x41, 0x20, 0x2D, 0x2D, 0x20, 0x41]])).model? = .ok model ∧
      (loadFile Grammar.standard true "utf-8"
        { nodes := ⟨[(["a.puml"],
          .file [0xC3, 0xA9, 0x0D, 0x0A, 0x41, 0x20, 0x2D, 0x2D, 0x20, 0x41])]⟩ }
        { names := ["a.puml"] }).1 = .ok model ∧
      model.relationships = [⟨"A", "A", "--", "", "", ""⟩] ∧ model.unmatched = [⟨1, "é"⟩] := by
  have hwrites : Encoding.utf8.Writes ['é', '\r', '\n', 'A', ' ', '-', '-', ' ', 'A']
      [0xC3, 0xA9, 0x0D, 0x0A, 0x41, 0x20, 0x2D, 0x2D, 0x20, 0x41] := DecodeMode.writes_utf8 _
  obtain ⟨hcuts, hfile⟩ := file_reads_as_text Grammar.standard true hwrites
  obtain ⟨_, model, hload, hparse⟩ := hfile "utf-8" { nodes := ⟨[(["a.puml"],
    .file [0xC3, 0xA9, 0x0D, 0x0A, 0x41, 0x20, 0x2D, 0x2D, 0x20, 0x41])]⟩ } { names := ["a.puml"] }
    (by decide) (by decide) (by decide)
  refine ⟨model, ?_, hload, ?_⟩
  · rw [hcuts _ rfl]
    exact hparse
  · have hmodel : (parse Grammar.standard true (Source.ofText (String.ofList
        (Text.normalNewlines ['é', '\r', '\n', 'A', ' ', '-', '-', ' ', 'A'])) :
          Source DecodeError)).model? =
        .ok { relationships := [⟨"A", "A", "--", "", "", ""⟩], unmatched := [⟨1, "é"⟩] } := by
      decide
    rw [hmodel] at hparse
    cases hparse
    exact ⟨rfl, rfl⟩

end ClassDiagram
