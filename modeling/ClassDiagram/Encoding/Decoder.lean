import ClassDiagram.Encoding.Basic
import ClassDiagram.Text.Number

/-!
# Decoding bytes

A decoder takes bytes one at a time and gives a character whenever one is complete. The bytes of
an incomplete character are pending. A decoder can be stopped after any byte and go on later
(`feed_append`), so how a file is cut into chunks has no influence on the characters.

A failure names the bad bytes and their position. Positions are counted from the first byte that
was not decoded when the present chunk began.
-/

namespace ClassDiagram

/-- Why bytes cannot be decoded. -/
inductive DecodeReason where
  | invalidStart
  | invalidContinuation
  | unexpectedEnd
  | notAscii
  /-- A byte to which the code page gives no character. -/
  | undefined
  /-- The bytes end inside a code unit. -/
  | truncated
  /-- A low surrogate with no high surrogate before it. -/
  | illegalEncoding
  /-- A high surrogate with no low surrogate behind it. -/
  | illegalSurrogate
deriving DecidableEq, Repr

/-- The wording of a reason. -/
def DecodeReason.text : DecodeReason → String
  | invalidStart => "invalid start byte"
  | invalidContinuation => "invalid continuation byte"
  | unexpectedEnd => "unexpected end of data"
  | notAscii => "ordinal not in range(128)"
  | undefined => "character maps to <undefined>"
  | truncated => "truncated data"
  | illegalEncoding => "illegal encoding"
  | illegalSurrogate => "illegal UTF-16 surrogate"

/-- A failure to decode. -/
inductive DecodeError where
  | badBytes (codec : String) (bytes : List UInt8) (position : Nat) (reason : DecodeReason)
  | missingMark
  /-- The words of a codec that is not written out here. -/
  | foreign (text : String)
deriving DecidableEq, Repr

/-- The wording of a failure to decode. -/
def DecodeError.message : DecodeError → String
  | badBytes codec bytes position reason =>
    "'" ++ codec ++ "' codec can't decode " ++
      (match bytes with
        | [byte] =>
          "byte 0x" ++ String.ofList (Text.hexDigits 2 byte.toNat) ++ " in position " ++
            toString position
        | _ =>
          "bytes in position " ++ toString position ++ "-" ++
            toString (position + bytes.length - 1)) ++
      ": " ++ reason.text
  | missingMark => "UTF-16 stream does not start with BOM"
  | foreign text => text

/-- What one more byte does to the pending bytes: it completes a character, it leaves some bytes
pending, or it shows the first of those at hand to be wrong. -/
inductive Progress where
  | char (c : Char)
  | more (pending : List UInt8)
  | bad (bytes : List UInt8) (reason : DecodeReason)
deriving DecidableEq, Repr

/-- Which byte of a code unit comes first, the low one or the high one. -/
inductive ByteOrder where
  | little
  | big
deriving DecidableEq, Repr

namespace Utf8

/-- The last six bits of a byte. -/
def payload (byte : UInt8) : Nat := byte.toNat % 0x40

/-- Whether a byte can follow the given first byte of a character. -/
def continues (first second : UInt8) : Bool :=
  (if first = 0xE0 then 0xA0 else if first = 0xF0 then 0x90 else 0x80) ≤ second.toNat &&
    second.toNat ≤ (if first = 0xED then 0x9F else if first = 0xF4 then 0x8F else 0xBF)

/-- Whether a byte can follow the second byte of a character. -/
def isTrailing (byte : UInt8) : Bool := 0x80 ≤ byte.toNat && byte.toNat ≤ 0xBF

/-- Whether two bytes begin the form of a surrogate, which is no character. They stay pending until
a third byte or the end follows. -/
def beginsSurrogate (first second : UInt8) : Bool :=
  first = 0xED && 0xA0 ≤ second && second ≤ 0xBF

/-- Takes one more byte of UTF-8. -/
def advance (pending : List UInt8) (byte : UInt8) : Progress :=
  match pending with
  | [] =>
    if byte < 0x80 then .char (Char.ofNat byte.toNat)
    else if 0xC2 ≤ byte ∧ byte ≤ 0xF4 then .more [byte]
    else .bad [byte] .invalidStart
  | [first] =>
    if continues first byte then
      if first < 0xE0 then .char (Char.ofNat (first.toNat % 0x20 * 0x40 + payload byte))
      else .more [first, byte]
    else if beginsSurrogate first byte then .more [first, byte]
    else .bad [first] .invalidContinuation
  | [first, second] =>
    if beginsSurrogate first second then .bad [first] .invalidContinuation
    else if isTrailing byte then
      if first < 0xF0 then
        .char (Char.ofNat ((first.toNat % 0x10 * 0x40 + payload second) * 0x40 + payload byte))
      else .more [first, second, byte]
    else .bad [first, second] .invalidContinuation
  | first :: second :: third :: _ =>
    if isTrailing byte then
      .char (Char.ofNat
        (((first.toNat % 0x08 * 0x40 + payload second) * 0x40 + payload third) * 0x40 +
          payload byte))
    else .bad [first, second, third] .invalidContinuation

/-- The pending bytes that are wrong if no more follow, and why. -/
def cutShort (pending : List UInt8) : List UInt8 × DecodeReason :=
  match pending with
  | [first, second] =>
    if beginsSurrogate first second then ([first], .invalidContinuation)
    else (pending, .unexpectedEnd)
  | _ => (pending, .unexpectedEnd)

/-- The bytes of a character. -/
def encode (c : Char) : List UInt8 := String.utf8EncodeChar c

end Utf8

namespace Utf16

/-- The code unit of two bytes. -/
def unit (order : ByteOrder) (first second : UInt8) : Nat :=
  match order with
  | .little => second.toNat * 0x100 + first.toNat
  | .big => first.toNat * 0x100 + second.toNat

/-- Whether a unit is the first half of a pair. -/
def isHigh (unit : Nat) : Bool := 0xD800 ≤ unit && unit < 0xDC00

/-- Whether a unit is the second half of a pair. -/
def isLow (unit : Nat) : Bool := 0xDC00 ≤ unit && unit < 0xE000

/-- Takes one more byte of UTF-16. -/
def advance (order : ByteOrder) (pending : List UInt8) (byte : UInt8) : Progress :=
  match pending with
  | [] => .more [byte]
  | [first] =>
    let value := unit order first byte
    if isHigh value then .more [first, byte]
    else if isLow value then .bad [first, byte] .illegalEncoding
    else .char (Char.ofNat value)
  | [first, second] => .more [first, second, byte]
  | first :: second :: third :: _ =>
    let high := unit order first second
    let low := unit order third byte
    if isLow low then .char (Char.ofNat (0x10000 + (high - 0xD800) * 0x400 + (low - 0xDC00)))
    else .bad [first, second] .illegalSurrogate

/-- The pending bytes that are wrong if no more follow, and why. -/
def cutShort (pending : List UInt8) : List UInt8 × DecodeReason :=
  (pending, if pending.length = 1 then .truncated else .unexpectedEnd)

end Utf16

/-- The characters of code page 1252 for the bytes from 0x80 to 0x9F. -/
def windows1252Table : List (Option Nat) :=
  [some 0x20AC, none, some 0x201A, some 0x192, some 0x201E, some 0x2026, some 0x2020, some 0x2021,
    some 0x2C6, some 0x2030, some 0x160, some 0x2039, some 0x152, none, some 0x17D, none,
    none, some 0x2018, some 0x2019, some 0x201C, some 0x201D, some 0x2022, some 0x2013, some 0x2014,
    some 0x2DC, some 0x2122, some 0x161, some 0x203A, some 0x153, none, some 0x17E, some 0x178]

/-- How the next byte is to be read. -/
inductive DecodeMode where
  | ascii
  | latin1
  | windows1252
  | utf8
  | utf16 (order : ByteOrder)
  /-- As part of UTF-16 that lacks its byte order mark. -/
  | utf16Unmarked
  /-- As part of a byte order mark of UTF-8, or else of UTF-8. -/
  | utf8Start
  /-- As part of a byte order mark of UTF-16. -/
  | utf16Start
deriving DecidableEq, Repr

namespace DecodeMode

/-- The name of a mode in messages. -/
def codec : DecodeMode → String
  | ascii => "ascii"
  | latin1 => "latin-1"
  | windows1252 => "charmap"
  | utf8 | utf8Start => "utf-8"
  | utf16 .little | utf16Unmarked | utf16Start => "utf-16-le"
  | utf16 .big => "utf-16-be"

/-- Takes one more byte in a mode that awaits no mark. Without a mark the low byte comes first. -/
def advance (mode : DecodeMode) (pending : List UInt8) (byte : UInt8) : Progress :=
  match mode with
  | ascii => if byte < 0x80 then .char (Char.ofNat byte.toNat) else .bad [byte] .notAscii
  | latin1 => .char (Char.ofNat byte.toNat)
  | windows1252 =>
    if byte < 0x80 ∨ 0xA0 ≤ byte then .char (Char.ofNat byte.toNat)
    else
      match windows1252Table[byte.toNat - 0x80]? with
      | some (some code) => .char (Char.ofNat code)
      | _ => .bad [byte] .undefined
  | utf8 | utf8Start => Utf8.advance pending byte
  | utf16 order => Utf16.advance order pending byte
  | utf16Unmarked | utf16Start => Utf16.advance .little pending byte

/-- The pending bytes that are wrong if no more follow, and why. -/
def cutShort (mode : DecodeMode) (pending : List UInt8) : List UInt8 × DecodeReason :=
  match mode with
  | utf16 _ | utf16Unmarked | utf16Start => Utf16.cutShort pending
  | _ => Utf8.cutShort pending

end DecodeMode

/-- The state of a decoder between two bytes: how the next byte is to be read, the bytes of an
incomplete character, and the position of the first of these. -/
structure Decoder where
  mode : DecodeMode
  pending : List UInt8 := []
  offset : Nat := 0
deriving DecidableEq, Repr

namespace Decoder

/-- The decoder for the start of a file. -/
def start : Encoding → Decoder
  | .utf8 => { mode := .utf8 }
  | .utf8Signed => { mode := .utf8Start }
  | .ascii => { mode := .ascii }
  | .latin1 => { mode := .latin1 }
  | .windows1252 => { mode := .windows1252 }
  | .utf16 => { mode := .utf16Start }
  | .utf16Little => { mode := .utf16 .little }
  | .utf16Big => { mode := .utf16 .big }

/-- The failure at the present position. -/
def fail (decoder : Decoder) (bytes : List UInt8) (reason : DecodeReason) : DecodeError :=
  .badBytes decoder.mode.codec bytes decoder.offset reason

/-- Takes one byte in a mode that awaits no mark. -/
def stepPlain (decoder : Decoder) (byte : UInt8) : Except DecodeError (Decoder × List Char) :=
  match decoder.mode.advance decoder.pending byte with
  | .char c =>
    .ok ({ decoder with
      pending := [], offset := decoder.offset + decoder.pending.length + 1 }, [c])
  | .more pending => .ok ({ decoder with pending }, [])
  | .bad bytes reason => .error (decoder.fail bytes reason)

/-- Takes several bytes in a mode that awaits no mark. -/
def feedPlain (decoder : Decoder) : List UInt8 → Except DecodeError (Decoder × List Char)
  | [] => .ok (decoder, [])
  | byte :: rest => do
    let (decoder, first) ← decoder.stepPlain byte
    let (decoder, others) ← decoder.feedPlain rest
    return (decoder, first ++ others)

/-- Takes one byte while a mark of UTF-8 may begin. Positions are counted from behind the mark. -/
def stepSigned (decoder : Decoder) (byte : UInt8) : Except DecodeError (Decoder × List Char) :=
  let seen := decoder.pending ++ [byte]
  if seen = [0xEF, 0xBB, 0xBF] then .ok ({ mode := .utf8 }, [])
  else if seen.isPrefixOf [0xEF, 0xBB, 0xBF] then .ok ({ decoder with pending := seen }, [])
  else feedPlain { mode := .utf8, offset := decoder.offset } seen

/-- Takes one byte while a mark of UTF-16 must begin. -/
def stepMarked (decoder : Decoder) (byte : UInt8) : Except DecodeError (Decoder × List Char) :=
  let seen := decoder.pending ++ [byte]
  if seen = [0xFF, 0xFE] then .ok ({ mode := .utf16 .little, offset := decoder.offset + 2 }, [])
  else if seen = [0xFE, 0xFF] then .ok ({ mode := .utf16 .big, offset := decoder.offset + 2 }, [])
  else if seen.length < 2 then .ok ({ decoder with pending := seen }, [])
  else feedPlain { mode := .utf16Unmarked, offset := decoder.offset } seen

/-- Takes one byte. -/
def step (decoder : Decoder) (byte : UInt8) : Except DecodeError (Decoder × List Char) :=
  match decoder.mode with
  | .utf8Start => decoder.stepSigned byte
  | .utf16Start => decoder.stepMarked byte
  | _ => decoder.stepPlain byte

/-- Takes several bytes. -/
def feed (decoder : Decoder) : List UInt8 → Except DecodeError (Decoder × List Char)
  | [] => .ok (decoder, [])
  | byte :: rest => do
    let (decoder, first) ← decoder.step byte
    let (decoder, others) ← decoder.feed rest
    return (decoder, first ++ others)

/-- Bytes may be taken in two parts. -/
theorem feed_append (decoder : Decoder) (first second : List UInt8) :
    decoder.feed (first ++ second) = do
      let (middle, text) ← decoder.feed first
      let (last, others) ← middle.feed second
      return (last, text ++ others) := by
  induction first generalizing decoder with
  | nil =>
    simp only [List.nil_append, feed, bind, Except.bind, pure, Except.pure]
    cases decoder.feed second <;> rfl
  | cons byte rest ih =>
    simp only [List.cons_append, feed, ih, bind, Except.bind, pure, Except.pure]
    cases decoder.step byte with
    | error failure => rfl
    | ok result =>
      cases hrest : result.1.feed rest with
      | error failure => simp [hrest]
      | ok middle =>
        cases hlast : middle.1.feed second with
        | error failure => simp [hrest, hlast]
        | ok last => simp [hrest, hlast]

/-- Takes one chunk, from which positions are counted anew. That a mark is missing is noted at the
end of the first chunk of which something could be decoded. -/
def feedChunk (decoder : Decoder) (chunk : List UInt8) :
    Except DecodeError (Decoder × List Char) := do
  let (decoder, text) ← feed { decoder with offset := 0 } chunk
  if decoder.mode = .utf16Unmarked ∧ 2 ≤ decoder.offset then .error .missingMark
  else return (decoder, text)

/-- Whether the bytes may end here, and the failure if not. An incomplete mark of UTF-8 is passed
over. -/
def finish (decoder : Decoder) : Except DecodeError Unit :=
  let decoder := { decoder with offset := 0 }
  if decoder.pending = [] ∨ decoder.mode = .utf8Start then .ok ()
  else
    let (bytes, reason) := decoder.mode.cutShort decoder.pending
    .error (decoder.fail bytes reason)

end Decoder

end ClassDiagram
