import ClassDiagram.Encoding.Decoder

/-!
# Codecs

A codec turns the bytes of a file into characters, one chunk after the other. The encodings that are
written out here have codecs of their own, which are their decoders. What other codecs there are
depends on where the program runs, and so does the encoding that is usual there. Both are parameters
(`Codecs`), and nothing is assumed of them: a codec may take any bytes, keep any state between two
chunks, and give characters when the file ends. Its characters are those of Unicode, so texts with
lone surrogates, which some codecs give, are not covered.
-/

namespace ClassDiagram

/-- The states of a decoder between two chunks. A state takes one chunk, and at the end of the file
it gives the characters that are still to come. -/
class ChunkDecoder (δ : Type) where
  feedChunk : δ → List UInt8 → Except DecodeError (δ × List Char)
  finish : δ → Except DecodeError (List Char)

instance : ChunkDecoder Decoder where
  feedChunk := Decoder.feedChunk
  finish decoder := decoder.finish.map fun _ ↦ []

/-- The decoder with which a codec starts a file. -/
structure Codec where
  State : Type
  [decoder : ChunkDecoder State]
  start : State

attribute [instance] Codec.decoder

/-- What the program finds where it runs: the name of the usual encoding, and by their names the
codecs that are not written out here. -/
class Codecs where
  usual : String
  find? : String → Option Codec

/-- UTF-8 is usual, and there are no other codecs. -/
instance (priority := low) Codecs.writtenOut : Codecs where
  usual := "utf-8"
  find? _ := none

namespace Encoding

/-- The name that stands for the usual encoding. It has a single spelling. -/
def usualName : String := "locale"

/-- The name by which an encoding is looked up. -/
def actualName [Codecs] (name : String) : String :=
  if name = usualName then Codecs.usual else name

/-- The encoding of a given name. -/
def ofName [Codecs] (name : String) : Except EncodingFault Encoding :=
  ofNormalName (actualName name)

/-- The codec of an encoding. -/
def codec (encoding : Encoding) : Codec where
  State := Decoder
  start := Decoder.start encoding

end Encoding

/-- The codec of a given name. Other codecs are looked for where there is no encoding. -/
def Codec.ofName [Codecs] (name : String) : Except EncodingFault Codec :=
  ((Encoding.ofName name).map Encoding.codec).tryCatch fun fault ↦
    match Codecs.find? (Encoding.actualName name) with
    | some codec => .ok codec
    | none => .error fault

end ClassDiagram
