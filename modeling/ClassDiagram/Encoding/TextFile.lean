import ClassDiagram.Encoding.Codec
import ClassDiagram.Source

/-!
# Lines of a text file

The bytes of a file are decoded by chunks. Each line end, whether a line feed, a carriage return
or the two in a row, becomes one line feed, and the characters are collected into lines. All lines
that a chunk completes are delivered before the next chunk is decoded, so a failure in a chunk
comes after the lines of the chunks before it and before those of its own.
-/

namespace ClassDiagram

/-- The characters between the decoder and the lines: a carriage return that waits for the character
behind it, and the unfinished line, its last character first. -/
structure LineBuffer where
  heldReturn : Bool := false
  unfinished : List Char := []
deriving DecidableEq, Repr

namespace LineBuffer

/-- The line that a line feed completes. -/
def complete (buffer : LineBuffer) : String :=
  String.ofList (buffer.unfinished.reverse ++ ['\n'])

/-- Takes one character. A held carriage return ends its line, and so does a line feed; the two
together end one line. -/
def receive (buffer : LineBuffer) (c : Char) : LineBuffer × List String :=
  if c = '\r' then
    if buffer.heldReturn then (⟨true, []⟩, [buffer.complete])
    else ({ buffer with heldReturn := true }, [])
  else if c = '\n' then (⟨false, []⟩, [buffer.complete])
  else if buffer.heldReturn then (⟨false, [c]⟩, [buffer.complete])
  else ({ buffer with unfinished := c :: buffer.unfinished }, [])

/-- Takes several characters. -/
def receiveAll (buffer : LineBuffer) : List Char → LineBuffer × List String
  | [] => (buffer, [])
  | c :: rest =>
    let (buffer, first) := buffer.receive c
    let (buffer, others) := buffer.receiveAll rest
    (buffer, first ++ others)

/-- The last line, if one is unfinished when the file ends. -/
def finish (buffer : LineBuffer) : List String :=
  if buffer.heldReturn then [buffer.complete]
  else if buffer.unfinished = [] then []
  else [String.ofList buffer.unfinished.reverse]

end LineBuffer

/-- A text file between two chunks: the state of its decoder, and the characters that belong to no
finished line. -/
structure TextFile (δ : Type) where
  decoder : δ
  buffer : LineBuffer := {}

namespace TextFile

variable {δ : Type} [ChunkDecoder δ]

/-- The lines that one more chunk completes. -/
def readChunk (file : TextFile δ) (chunk : List UInt8) :
    Except DecodeError (TextFile δ × List String) := do
  let (decoder, text) ← ChunkDecoder.feedChunk file.decoder chunk
  let (buffer, lines) := file.buffer.receiveAll text
  return (⟨decoder, buffer⟩, lines)

/-- The lines of the remaining chunks. -/
def readChunks (file : TextFile δ) : List (List UInt8) → Source DecodeError
  | [] =>
    match ChunkDecoder.finish file.decoder with
    | .ok text =>
      let (buffer, lines) := file.buffer.receiveAll text
      ⟨lines ++ buffer.finish, .finished⟩
    | .error failure => ⟨[], .failed failure⟩
  | chunk :: rest =>
    match file.readChunk chunk with
    | .ok (file, lines) =>
      let others := file.readChunks rest
      { others with lines := lines ++ others.lines }
    | .error failure => ⟨[], .failed failure⟩

/-- The number of bytes that are decoded at a time. -/
def chunkSize : Nat := 8192

/-- Cuts bytes into chunks, all of the given size but the last. -/
def chunks (size : Nat) (bytes : List UInt8) : List (List UInt8) :=
  if bytes = [] ∨ size = 0 then []
  else bytes.take size :: chunks size (bytes.drop size)
termination_by bytes.length
decreasing_by
  rename_i h
  have : bytes.length ≠ 0 := fun e ↦ h (.inl (List.eq_nil_of_length_eq_zero e))
  simp only [List.length_drop]
  omega

end TextFile

/-- The lines of a file with the given bytes. -/
def Codec.source (codec : Codec) (bytes : List UInt8) : Source DecodeError :=
  TextFile.readChunks { decoder := codec.start } (TextFile.chunks TextFile.chunkSize bytes)

end ClassDiagram
