import ClassDiagram.Encoding.Decoder
import Mathlib.Data.List.Infix

/-!
# What decoders read

`Encoding.Writes` says which bytes a text has in an encoding, without any decoder: every character
has its code, and the codes stand one behind the other, after a mark where there is one. A decoder
that is fed these bytes gives the text and can stop there, which is `Decoder.feed_start`.

The decoder sees one byte at a time. `DecodeMode.Reads` follows it through the code of one
character, and this is where the arithmetic of the codes is done. All the rest is putting codes
together. Positions play no part in a decoding that succeeds (`Decoder.feed_offset`).
-/

namespace ClassDiagram

/-! ## Writings -/

namespace Utf16

/-- The two bytes of a code unit. -/
def unitBytes (order : ByteOrder) (value : Nat) : List UInt8 :=
  match order with
  | .little => [UInt8.ofNat (value % 0x100), UInt8.ofNat (value / 0x100)]
  | .big => [UInt8.ofNat (value / 0x100), UInt8.ofNat (value % 0x100)]

/-- The bytes of a character: those of one code unit, or those of a pair of them if its number has
more than sixteen bits. -/
def encode (order : ByteOrder) (c : Char) : List UInt8 :=
  if c.toNat < 0x10000 then unitBytes order c.toNat
  else
    unitBytes order (0xD800 + (c.toNat - 0x10000) / 0x400) ++
      unitBytes order (0xDC00 + (c.toNat - 0x10000) % 0x400)

/-- The byte order mark. -/
def mark : ByteOrder → List UInt8
  | .little => [0xFF, 0xFE]
  | .big => [0xFE, 0xFF]

end Utf16

/-- The byte order mark of UTF-8. -/
def Utf8.mark : List UInt8 := [0xEF, 0xBB, 0xBF]

/-- The byte stands for the character in code page 1252. -/
def Windows1252 (byte : UInt8) (c : Char) : Prop :=
  (byte.toNat < 0x80 ∨ 0xA0 ≤ byte.toNat) ∧ c.toNat = byte.toNat ∨
    0x80 ≤ byte.toNat ∧ windows1252Table[byte.toNat - 0x80]? = some (some c.toNat)

namespace DecodeMode

/-- The bytes are the code of the character. There are no codes in a mode that awaits a mark or
lacks one. -/
def Spells (mode : DecodeMode) (c : Char) (code : List UInt8) : Prop :=
  match mode with
  | ascii => c.toNat < 0x80 ∧ code = [UInt8.ofNat c.toNat]
  | latin1 => c.toNat < 0x100 ∧ code = [UInt8.ofNat c.toNat]
  | windows1252 => ∃ byte, code = [byte] ∧ Windows1252 byte c
  | utf8 => code = Utf8.encode c
  | utf16 order => code = Utf16.encode order c
  | utf16Unmarked | utf8Start | utf16Start => False

/-- The bytes are the codes of the characters of a text, one behind the other. -/
inductive Writes (mode : DecodeMode) : List Char → List UInt8 → Prop where
  | nil : Writes mode [] []
  | cons {c : Char} {code : List UInt8} {text : List Char} {bytes : List UInt8} :
      mode.Spells c code → Writes mode text bytes → Writes mode (c :: text) (code ++ bytes)

end DecodeMode

/-- The bytes are a writing of the text in the encoding. A mark of UTF-8 may be there or not, and
bytes that begin with it have it. A mark of UTF-16 gives the order of the bytes. -/
def Encoding.Writes (encoding : Encoding) (text : List Char) (bytes : List UInt8) : Prop :=
  match encoding with
  | utf8 => DecodeMode.utf8.Writes text bytes
  | utf8Signed =>
    (∃ rest, bytes = Utf8.mark ++ rest ∧ DecodeMode.utf8.Writes text rest) ∨
      (¬ Utf8.mark <+: bytes ∧ DecodeMode.utf8.Writes text bytes)
  | ascii => DecodeMode.ascii.Writes text bytes
  | latin1 => DecodeMode.latin1.Writes text bytes
  | windows1252 => DecodeMode.windows1252.Writes text bytes
  | utf16 =>
    ∃ order rest, bytes = Utf16.mark order ++ rest ∧ (DecodeMode.utf16 order).Writes text rest
  | utf16Little => (DecodeMode.utf16 .little).Writes text bytes
  | utf16Big => (DecodeMode.utf16 .big).Writes text bytes

/-! ## Codes of characters -/

/-- The numbers of characters are those of no surrogate. -/
theorem toNat_lt (c : Char) : c.toNat < 0xD800 ∨ 0xDFFF < c.toNat ∧ c.toNat < 0x110000 := c.valid

theorem ofNat_eq {n : Nat} {c : Char} (h : n = c.toNat) : Char.ofNat n = c := by
  rw [h, Char.ofNat_toNat]

/-- Behind the pending bytes, the given bytes and no fewer complete the character. -/
inductive DecodeMode.Reads (mode : DecodeMode) (c : Char) : List UInt8 → List UInt8 → Prop where
  | last {pending : List UInt8} {byte : UInt8} :
      mode.advance pending byte = .char c → Reads mode c pending [byte]
  | next {pending rest : List UInt8} {byte : UInt8} :
      mode.advance pending byte = .more (pending ++ [byte]) →
      Reads mode c (pending ++ [byte]) rest → Reads mode c pending (byte :: rest)

namespace Utf8

theorem lt_iff {byte bound : UInt8} : byte < bound ↔ byte.toNat < bound.toNat :=
  UInt8.lt_iff_toNat_lt

theorem eq_iff {byte other : UInt8} : byte = other ↔ byte.toNat = other.toNat :=
  UInt8.toNat_inj.symm

/-- The second byte of a character keeps the number of the character from being written with more
bytes than it needs, from being that of a surrogate, and from being too great. -/
theorem continues_iff {first second : UInt8} :
    continues first second = true ↔ 0x80 ≤ second.toNat ∧ second.toNat ≤ 0xBF ∧
      (first.toNat = 0xE0 → 0xA0 ≤ second.toNat) ∧ (first.toNat = 0xED → second.toNat ≤ 0x9F) ∧
      (first.toNat = 0xF0 → 0x90 ≤ second.toNat) ∧ (first.toNat = 0xF4 → second.toNat ≤ 0x8F) := by
  simp only [continues, Bool.and_eq_true, decide_eq_true_eq, eq_iff, UInt8.reduceToNat]
  split_ifs <;> omega

theorem isTrailing_iff {byte : UInt8} :
    isTrailing byte = true ↔ 0x80 ≤ byte.toNat ∧ byte.toNat ≤ 0xBF := by
  simp [isTrailing]

theorem beginsSurrogate_iff {first second : UInt8} :
    beginsSurrogate first second = true ↔
      first.toNat = 0xED ∧ 0xA0 ≤ second.toNat ∧ second.toNat ≤ 0xBF := by
  simp only [beginsSurrogate, Bool.and_eq_true, decide_eq_true_eq, eq_iff, UInt8.le_iff_toNat_le,
    UInt8.reduceToNat, and_assoc]

/-- The bytes that the number of a character is written with, by the size of the number and with the
bits that each of them holds. -/
inductive Shape (n : Nat) : List UInt8 → Prop where
  | one (first : UInt8) : n < 0x80 → first.toNat = n → Shape n [first]
  | two (first second : UInt8) : 0x80 ≤ n → n < 0x800 →
      first.toNat = 0xC0 + n / 0x40 → second.toNat = 0x80 + n % 0x40 →
      Shape n [first, second]
  | three (first second third : UInt8) : 0x800 ≤ n → n < 0x10000 →
      first.toNat = 0xE0 + n / 0x1000 → second.toNat = 0x80 + n / 0x40 % 0x40 →
      third.toNat = 0x80 + n % 0x40 → Shape n [first, second, third]
  | four (first second third fourth : UInt8) : 0x10000 ≤ n →
      first.toNat = 0xF0 + n / 0x40000 → second.toNat = 0x80 + n / 0x1000 % 0x40 →
      third.toNat = 0x80 + n / 0x40 % 0x40 → fourth.toNat = 0x80 + n % 0x40 →
      Shape n [first, second, third, fourth]

/-- The code of a character has the shape of its number. -/
theorem shape_encode (c : Char) : Shape c.toNat (encode c) := by
  have hvalid := toNat_lt c
  have hnumber : c.val.toNat = c.toNat := rfl
  unfold encode String.utf8EncodeChar
  dsimp only
  rw [hnumber]
  split
  · refine .one _ (by omega) ?_
    rw [UInt8.toNat_ofNat']
    omega
  · split
    · refine .two _ _ (by omega) (by omega) ?_ ?_ <;> rw [UInt8.toNat_ofNat'] <;> omega
    · split
      · refine .three _ _ _ (by omega) (by omega) ?_ ?_ ?_ <;> rw [UInt8.toNat_ofNat'] <;> omega
      · refine .four _ _ _ _ (by omega) ?_ ?_ ?_ ?_ <;> rw [UInt8.toNat_ofNat'] <;> omega

/-- A byte that leads a code of several bytes. -/
theorem advance_lead {byte : UInt8} (hlow : 0xC2 ≤ byte.toNat) (hhigh : byte.toNat ≤ 0xF4) :
    advance [] byte = .more [byte] := by
  have hmore : 0xC2 ≤ byte ∧ byte ≤ 0xF4 := ⟨hlow, hhigh⟩
  have hnone : ¬ byte < 0x80 := by
    show ¬ byte.toNat < 0x80
    omega
  rw [advance, if_neg hnone, if_pos hmore]

/-- The bytes of a code complete its character. -/
theorem Shape.reads {c : Char} {code : List UInt8} (h : Shape c.toNat code) :
    DecodeMode.utf8.Reads c [] code := by
  have hvalid := toNat_lt c
  cases h with
  | one first hnumber hfirst =>
      have hascii : first < 0x80 := by
        show first.toNat < 0x80
        omega
      apply DecodeMode.Reads.last
      rw [DecodeMode.advance, advance, if_pos hascii, ofNat_eq hfirst]
  | two first second hlow hhigh hfirst hsecond =>
      have hshort : first < 0xE0 := by
        show first.toNat < 0xE0
        omega
      have hcontinues : continues first second = true := continues_iff.2 (by omega)
      have hvalue : first.toNat % 0x20 * 0x40 + payload second = c.toNat := by
        rw [payload]
        omega
      refine .next (advance_lead (by omega) (by omega)) (.last ?_)
      rw [List.nil_append, DecodeMode.advance, advance, if_pos hcontinues, if_pos hshort,
        ofNat_eq hvalue]
  | three first second third hlow hhigh hfirst hsecond hthird =>
      have hlong : ¬ first < 0xE0 := by
        show ¬ first.toNat < 0xE0
        omega
      have hshort : first < 0xF0 := by
        show first.toNat < 0xF0
        omega
      have hcontinues : continues first second = true := continues_iff.2 (by omega)
      have hplain : ¬ beginsSurrogate first second = true := by
        rw [beginsSurrogate_iff]
        omega
      have htrailing : isTrailing third = true := isTrailing_iff.2 (by omega)
      have hvalue : (first.toNat % 0x10 * 0x40 + payload second) * 0x40 + payload third =
          c.toNat := by
        rw [payload, payload]
        omega
      refine .next (advance_lead (by omega) (by omega)) (.next ?_ (.last ?_))
      · rw [List.nil_append, DecodeMode.advance, advance, if_pos hcontinues, if_neg hlong]
        rfl
      · rw [List.nil_append, List.singleton_append, DecodeMode.advance, advance, if_neg hplain,
          if_pos htrailing, if_pos hshort, ofNat_eq hvalue]
  | four first second third fourth hlow hfirst hsecond hthird hfourth =>
      have hlong : ¬ first < 0xE0 := by
        show ¬ first.toNat < 0xE0
        omega
      have hlong' : ¬ first < 0xF0 := by
        show ¬ first.toNat < 0xF0
        omega
      have hcontinues : continues first second = true := continues_iff.2 (by omega)
      have hplain : ¬ beginsSurrogate first second = true := by
        rw [beginsSurrogate_iff]
        omega
      have htrailing : isTrailing third = true := isTrailing_iff.2 (by omega)
      have htrailing' : isTrailing fourth = true := isTrailing_iff.2 (by omega)
      have hvalue : ((first.toNat % 0x08 * 0x40 + payload second) * 0x40 + payload third) * 0x40 +
          payload fourth = c.toNat := by
        rw [payload, payload, payload]
        omega
      refine .next (advance_lead (by omega) (by omega)) (.next ?_ (.next ?_ (.last ?_)))
      · rw [List.nil_append, DecodeMode.advance, advance, if_pos hcontinues, if_neg hlong]
        rfl
      · rw [List.nil_append, List.singleton_append, DecodeMode.advance, advance, if_neg hplain,
          if_pos htrailing, if_neg hlong']
        rfl
      · rw [List.nil_append, List.singleton_append, List.cons_append, List.singleton_append,
          DecodeMode.advance, advance, if_pos htrailing', ofNat_eq hvalue]

end Utf8

namespace Utf16

/-- The two bytes of a code unit give it back. -/
theorem unitBytes_eq (order : ByteOrder) (value : Nat) (h : value < 0x10000) :
    ∃ first second, unitBytes order value = [first, second] ∧ unit order first second = value := by
  cases order with
  | little =>
      refine ⟨_, _, rfl, ?_⟩
      rw [unit, UInt8.toNat_ofNat', UInt8.toNat_ofNat']
      omega
  | big =>
      refine ⟨_, _, rfl, ?_⟩
      rw [unit, UInt8.toNat_ofNat', UInt8.toNat_ofNat']
      omega

theorem isHigh_iff {value : Nat} : isHigh value = true ↔ 0xD800 ≤ value ∧ value < 0xDC00 := by
  simp [isHigh]

theorem isLow_iff {value : Nat} : isLow value = true ↔ 0xDC00 ≤ value ∧ value < 0xE000 := by
  simp [isLow]

/-- The bytes of a code complete its character. -/
theorem reads_encode (order : ByteOrder) (c : Char) :
    (DecodeMode.utf16 order).Reads c [] (encode order c) := by
  have hvalid := toNat_lt c
  unfold encode
  split
  · next hnumber =>
      obtain ⟨first, second, hbytes, hunit⟩ := unitBytes_eq order c.toNat hnumber
      have hhigh : ¬ isHigh c.toNat = true := by
        rw [isHigh_iff]
        omega
      have hlow : ¬ isLow c.toNat = true := by
        rw [isLow_iff]
        omega
      rw [hbytes]
      refine .next rfl (.last ?_)
      rw [List.nil_append, DecodeMode.advance, advance, hunit, if_neg hhigh, if_neg hlow,
        Char.ofNat_toNat]
  · next hnumber =>
      obtain ⟨first, second, hbytes, hunit⟩ :=
        unitBytes_eq order (0xD800 + (c.toNat - 0x10000) / 0x400) (by omega)
      obtain ⟨third, fourth, hbytes', hunit'⟩ :=
        unitBytes_eq order (0xDC00 + (c.toNat - 0x10000) % 0x400) (by omega)
      have hhigh : isHigh (unit order first second) = true := isHigh_iff.2 (by omega)
      have hlow : isLow (unit order third fourth) = true := isLow_iff.2 (by omega)
      have hvalue : 0x10000 + (unit order first second - 0xD800) * 0x400 +
          (unit order third fourth - 0xDC00) = c.toNat := by
        omega
      rw [hbytes, hbytes']
      refine .next rfl (.next ?_ (.next rfl (.last ?_)))
      · rw [List.nil_append, DecodeMode.advance, advance, if_pos hhigh]
        rfl
      · rw [List.nil_append, List.singleton_append, List.cons_append, List.singleton_append,
          DecodeMode.advance, advance, if_pos hlow, ofNat_eq hvalue]

end Utf16

/-- In every mode the bytes of a code complete its character. -/
theorem DecodeMode.reads_of_spells {mode : DecodeMode} {c : Char} {code : List UInt8}
    (h : mode.Spells c code) : mode.Reads c [] code := by
  cases mode with
  | ascii =>
      obtain ⟨hnumber, rfl⟩ := h
      have hbyte : (UInt8.ofNat c.toNat).toNat = c.toNat := by
        rw [UInt8.toNat_ofNat']
        omega
      have hascii : UInt8.ofNat c.toNat < 0x80 := by
        rw [Utf8.lt_iff, hbyte]
        exact hnumber
      apply Reads.last
      rw [advance, if_pos hascii, ofNat_eq hbyte]
  | latin1 =>
      obtain ⟨hnumber, rfl⟩ := h
      have hbyte : (UInt8.ofNat c.toNat).toNat = c.toNat := by
        rw [UInt8.toNat_ofNat']
        omega
      apply Reads.last
      rw [advance, ofNat_eq hbyte]
  | windows1252 =>
      obtain ⟨byte, rfl, hbyte⟩ := h
      apply Reads.last
      rcases hbyte with ⟨hrange, hnumber⟩ | ⟨hlow, hentry⟩
      · have hsame : byte < 0x80 ∨ 0xA0 ≤ byte := hrange
        rw [advance, if_pos hsame, ofNat_eq hnumber.symm]
      · -- the table ends before the last part of the code page
        have hlength := (List.getElem?_eq_some_iff.1 hentry).1
        have htable : windows1252Table.length = 32 := rfl
        have hother : ¬ (byte < 0x80 ∨ 0xA0 ≤ byte) := by
          show ¬ (byte.toNat < 0x80 ∨ 0xA0 ≤ byte.toNat)
          omega
        rw [advance, if_neg hother, hentry]
        dsimp only
        rw [Char.ofNat_toNat]
  | utf8 =>
      cases h
      exact (Utf8.shape_encode c).reads
  | utf16 order =>
      cases h
      exact Utf16.reads_encode order c
  | utf16Unmarked | utf8Start | utf16Start => exact h.elim

/-- In UTF-8 every text has a writing. -/
theorem DecodeMode.writes_utf8 (text : List Char) :
    DecodeMode.utf8.Writes text (text.flatMap Utf8.encode) := by
  induction text with
  | nil => exact .nil
  | cons c rest ih => exact .cons rfl ih

/-! ## Runs of decoders -/

/-- Whether a byte order mark may or must come next. -/
def DecodeMode.awaitsMark : DecodeMode → Bool
  | utf8Start | utf16Start => true
  | ascii | latin1 | windows1252 | utf8 | utf16 _ | utf16Unmarked => false

/-- A mode with codes awaits no mark. -/
theorem DecodeMode.awaitsMark_of_spells {mode : DecodeMode} {c : Char} {code : List UInt8}
    (h : mode.Spells c code) : mode.awaitsMark = false := by
  cases mode with
  | utf8Start | utf16Start => exact h.elim
  | ascii | latin1 | windows1252 | utf8 | utf16 | utf16Unmarked => rfl

namespace Decoder

variable {decoder last : Decoder} {bytes : List UInt8} {text : List Char}

theorem step_plain (h : decoder.mode.awaitsMark = false) (byte : UInt8) :
    decoder.step byte = decoder.stepPlain byte := by
  unfold step
  split
  · next hmode =>
      rw [hmode] at h
      cases h
  · next hmode =>
      rw [hmode] at h
      cases h
  · rfl

/-- One byte keeps a mode that awaits no mark. -/
theorem mode_stepPlain {byte : UInt8} (h : decoder.stepPlain byte = .ok (last, text)) :
    last.mode = decoder.mode := by
  unfold stepPlain at h
  split at h
  · cases h
    rfl
  · cases h
    rfl
  · cases h

/-- In a mode that awaits no mark, bytes are read as plain ones. -/
theorem feed_plain (h : decoder.mode.awaitsMark = false) (bytes : List UInt8) :
    decoder.feed bytes = decoder.feedPlain bytes := by
  induction bytes generalizing decoder with
  | nil => rfl
  | cons byte rest ih =>
      rw [feed, feedPlain, step_plain h]
      cases hstep : decoder.stepPlain byte with
      | error failure => rfl
      | ok result =>
          have hmode := mode_stepPlain hstep
          simp only [bind, Except.bind]
          rw [ih (by rw [hmode]; exact h)]

/-- Two parts of a decoding succeed if both do, and the second goes on where the first ended. -/
theorem chain_iff (first : Except DecodeError (Decoder × List Char))
    (second : Decoder → Except DecodeError (Decoder × List Char)) :
    (do let (middle, text) ← first
        let (last, others) ← second middle
        return (last, text ++ others)) = .ok (last, text) ↔
      ∃ middle front back, first = .ok (middle, front) ∧ second middle = .ok (last, back) ∧
        front ++ back = text := by
  cases first with
  | error failure => simp [bind, Except.bind]
  | ok result =>
      cases hsecond : second result.1 with
      | error failure =>
          simp only [bind, Except.bind, hsecond]
          constructor
          · intro h
            cases h
          · intro h
            obtain ⟨middle, front, back, hfirst, hback, _⟩ := h
            cases hfirst
            rw [hsecond] at hback
            cases hback
      | ok result' =>
          simp only [bind, Except.bind, hsecond, pure, Except.pure, Except.ok.injEq, Prod.mk.injEq]
          constructor
          · intro h
            obtain ⟨hlast, htext⟩ := h
            exact ⟨result.1, result.2, result'.2, rfl, by rw [hsecond, ← hlast], htext⟩
          · intro h
            obtain ⟨middle, front, back, hfirst, hback, htext⟩ := h
            cases hfirst
            rw [hsecond] at hback
            cases hback
            exact ⟨rfl, htext⟩

theorem feed_append_iff {second : List UInt8} :
    decoder.feed (bytes ++ second) = .ok (last, text) ↔
      ∃ middle front back, decoder.feed bytes = .ok (middle, front) ∧
        middle.feed second = .ok (last, back) ∧ front ++ back = text := by
  rw [feed_append]
  exact chain_iff (decoder.feed bytes) fun middle ↦ middle.feed second

theorem feed_cons_iff {byte : UInt8} :
    decoder.feed (byte :: bytes) = .ok (last, text) ↔
      ∃ middle front back, decoder.step byte = .ok (middle, front) ∧
        middle.feed bytes = .ok (last, back) ∧ front ++ back = text :=
  chain_iff (decoder.step byte) fun middle ↦ middle.feed bytes

theorem feedPlain_cons_iff {byte : UInt8} :
    decoder.feedPlain (byte :: bytes) = .ok (last, text) ↔
      ∃ middle front back, decoder.stepPlain byte = .ok (middle, front) ∧
        middle.feedPlain bytes = .ok (last, back) ∧ front ++ back = text :=
  chain_iff (decoder.stepPlain byte) fun middle ↦ middle.feedPlain bytes

/-- Bytes keep a mode that awaits no mark. -/
theorem mode_feed (hmode : decoder.mode.awaitsMark = false)
    (h : decoder.feed bytes = .ok (last, text)) : last.mode = decoder.mode := by
  induction bytes generalizing decoder text with
  | nil =>
      cases h
      rfl
  | cons byte rest ih =>
      obtain ⟨middle, front, back, hfirst, hrest, _⟩ := feed_cons_iff.1 h
      rw [step_plain hmode] at hfirst
      have hmiddle := mode_stepPlain hfirst
      rw [ih (by rw [hmiddle]; exact hmode) hrest, hmiddle]

/-- A byte that gives no character only changes the decoder. -/
theorem feed_of_step {byte : UInt8} {next : Decoder} (h : decoder.step byte = .ok (next, []))
    (bytes : List UInt8) : decoder.feed (byte :: bytes) = next.feed bytes := by
  rw [feed, h]
  show (next.feed bytes >>= fun result ↦ .ok (result.1, [] ++ result.2)) = _
  cases next.feed bytes with
  | error failure => rfl
  | ok result => rfl

/-! ## Positions -/

/-- The position does not matter to a byte that is read in a mode that awaits no mark. -/
theorem stepPlain_offset {byte : UInt8} (h : decoder.stepPlain byte = .ok (last, text))
    (offset : Nat) :
    ∃ offset', stepPlain { decoder with offset } byte =
      .ok ({ last with offset := offset' }, text) := by
  unfold stepPlain at h ⊢
  dsimp only
  split at h
  · cases h
    exact ⟨_, rfl⟩
  · cases h
    exact ⟨_, rfl⟩
  · cases h

theorem feedPlain_offset (h : decoder.feedPlain bytes = .ok (last, text)) (offset : Nat) :
    ∃ offset', feedPlain { decoder with offset } bytes =
      .ok ({ last with offset := offset' }, text) := by
  induction bytes generalizing decoder text offset with
  | nil =>
      cases h
      exact ⟨offset, rfl⟩
  | cons byte rest ih =>
      obtain ⟨middle, front, back, hfirst, hrest, htext⟩ := feedPlain_cons_iff.1 h
      obtain ⟨offset', hfirst'⟩ := stepPlain_offset hfirst offset
      obtain ⟨offset'', hrest'⟩ := ih hrest offset'
      exact ⟨offset'', feedPlain_cons_iff.2 ⟨_, front, back, hfirst', hrest', htext⟩⟩

theorem step_offset {byte : UInt8} (h : decoder.step byte = .ok (last, text)) (offset : Nat) :
    ∃ offset', step { decoder with offset } byte = .ok ({ last with offset := offset' }, text) := by
  unfold step at h ⊢
  dsimp only
  split at h
  · -- a mark of UTF-8 is complete, may still be completed, or is ruled out
    unfold stepSigned at h ⊢
    dsimp only at h ⊢
    split_ifs at h ⊢ with hmark hbegun
    · cases h
      exact ⟨0, rfl⟩
    · cases h
      exact ⟨offset, rfl⟩
    · exact feedPlain_offset h offset
  · unfold stepMarked at h ⊢
    dsimp only at h ⊢
    split_ifs at h ⊢ with hlittle hbig hbegun
    · cases h
      exact ⟨offset + 2, rfl⟩
    · cases h
      exact ⟨offset + 2, rfl⟩
    · cases h
      exact ⟨offset, rfl⟩
    · exact feedPlain_offset h offset
  · exact stepPlain_offset h offset

/-- The position does not matter to bytes that are read without a failure. -/
theorem feed_offset (h : decoder.feed bytes = .ok (last, text)) (offset : Nat) :
    ∃ offset', feed { decoder with offset } bytes =
      .ok ({ last with offset := offset' }, text) := by
  induction bytes generalizing decoder text offset with
  | nil =>
      cases h
      exact ⟨offset, rfl⟩
  | cons byte rest ih =>
      obtain ⟨middle, front, back, hfirst, hrest, htext⟩ := feed_cons_iff.1 h
      obtain ⟨offset', hfirst'⟩ := step_offset hfirst offset
      obtain ⟨offset'', hrest'⟩ := ih hrest offset'
      exact ⟨offset'', feed_cons_iff.2 ⟨_, front, back, hfirst', hrest', htext⟩⟩

/-! ## Whole texts -/

/-- A decoder reads the rest of a code and gives its character. -/
theorem feed_reads {mode : DecodeMode} {c : Char} {pending code : List UInt8}
    (hmode : mode.awaitsMark = false) (h : mode.Reads c pending code) (offset : Nat) :
    ∃ offset', feed { mode, pending, offset } code = .ok ({ mode, offset := offset' }, [c]) := by
  induction h with
  | @last pending byte hchar =>
      refine ⟨offset + pending.length + 1, feed_cons_iff.2 ⟨_, [c], [], ?_, rfl, rfl⟩⟩
      rw [step_plain hmode, stepPlain, hchar]
  | next hmore _ ih =>
      obtain ⟨offset', hrest⟩ := ih
      refine ⟨offset', feed_cons_iff.2 ⟨_, [], [c], ?_, hrest, rfl⟩⟩
      rw [step_plain hmode, stepPlain, hmore]

/-- A decoder between two characters reads the writing of a text and is between two characters
again. -/
theorem feed_writes {mode : DecodeMode} (h : mode.Writes text bytes) (offset : Nat) :
    ∃ offset', feed { mode, offset } bytes = .ok ({ mode, offset := offset' }, text) := by
  induction h generalizing offset with
  | nil => exact ⟨offset, rfl⟩
  | cons hcode _ ih =>
      obtain ⟨offset', hfirst⟩ := feed_reads (DecodeMode.awaitsMark_of_spells hcode)
        (DecodeMode.reads_of_spells hcode) offset
      obtain ⟨offset'', hrest⟩ := ih offset'
      exact ⟨offset'', feed_append_iff.2 ⟨_, _, _, hfirst, hrest, rfl⟩⟩

/-- Where the bytes neither have a mark of UTF-8 nor break off in one, it does not matter that there
might have been one. -/
theorem feed_unsigned {pending : List UInt8} (hbegun : pending <+: Utf8.mark)
    (hmark : ¬ Utf8.mark <+: pending ++ bytes) (hrest : ¬ pending ++ bytes <+: Utf8.mark) :
    feed { mode := .utf8Start, pending } bytes = feed { mode := .utf8 } (pending ++ bytes) := by
  induction bytes generalizing pending with
  | nil =>
      rw [List.append_nil] at hrest
      exact absurd hbegun hrest
  | cons byte rest ih =>
      have hseen : pending ++ byte :: rest = (pending ++ [byte]) ++ rest := by simp
      rw [hseen] at hmark hrest ⊢
      have hnew : ¬ pending ++ [byte] = [0xEF, 0xBB, 0xBF] := by
        intro heq
        apply hmark
        rw [heq]
        exact List.prefix_append _ _
      by_cases hmore : (pending ++ [byte]).isPrefixOf Utf8.mark = true
      · have hstep : step { mode := .utf8Start, pending } byte =
            .ok ({ mode := .utf8Start, pending := pending ++ [byte] }, []) := by
          rw [step, stepSigned]
          dsimp only
          rw [if_neg hnew]
          exact if_pos hmore
        rw [feed_of_step hstep]
        exact ih (List.isPrefixOf_iff_prefix.1 hmore) hmark hrest
      · have hstep : step { mode := .utf8Start, pending } byte =
            feed { mode := .utf8 } (pending ++ [byte]) := by
          rw [step, stepSigned, feed_plain rfl]
          dsimp only
          rw [if_neg hnew]
          exact if_neg hmore
        rw [feed, hstep]
        exact (feed_append _ (pending ++ [byte]) rest).symm

/-- The bytes with which a mark of UTF-8 can begin. -/
theorem mark_begun (h : bytes <+: Utf8.mark) :
    bytes = [] ∨ bytes = [0xEF] ∨ bytes = [0xEF, 0xBB] ∨ bytes = Utf8.mark := by
  simp only [Utf8.mark, List.prefix_cons_iff, List.prefix_nil] at h
  rcases h with rfl | ⟨_, rfl, rfl | ⟨_, rfl, rfl | ⟨_, rfl, rfl⟩⟩⟩
  · exact Or.inl rfl
  · exact Or.inr (Or.inl rfl)
  · exact Or.inr (Or.inr (Or.inl rfl))
  · exact Or.inr (Or.inr (Or.inr rfl))

/-- A file that ends in the middle of a mark of UTF-8, or with it, has no characters. -/
theorem feed_begun (h : bytes <+: Utf8.mark) :
    ∃ last, feed { mode := .utf8Start } bytes = .ok (last, []) ∧ last.finish = .ok () ∧
      last.mode ≠ .utf16Unmarked := by
  rcases mark_begun h with rfl | rfl | rfl | rfl
  · exact ⟨{ mode := .utf8Start }, rfl, rfl, by simp⟩
  · exact ⟨{ mode := .utf8Start, pending := [0xEF] }, rfl, rfl, by simp⟩
  · exact ⟨{ mode := .utf8Start, pending := [0xEF, 0xBB] }, rfl, rfl, by simp⟩
  · exact ⟨{ mode := .utf8 }, rfl, rfl, by simp⟩

/-- No text but the empty one is written as the beginning of a mark of UTF-8. -/
theorem text_of_begun (h : DecodeMode.utf8.Writes text bytes) (hbegun : bytes <+: Utf8.mark)
    (hmark : ¬ Utf8.mark <+: bytes) : text = [] := by
  obtain ⟨offset, hfeed⟩ := feed_writes h 0
  rcases mark_begun hbegun with rfl | rfl | rfl | rfl
  · cases hfeed
    rfl
  · -- the decoder would have the bytes of the mark pending
    cases hfeed
  · cases hfeed
  · exact absurd (List.prefix_refl _) hmark

/-- Bytes that are the writing of a text are read from the start of a file. The decoder gives the
text, the file may end there, and no mark is missing. -/
theorem feed_start {encoding : Encoding} (h : encoding.Writes text bytes) :
    ∃ last, (start encoding).feed bytes = .ok (last, text) ∧ last.finish = .ok () ∧
      last.mode ≠ .utf16Unmarked := by
  have hplain : ∀ mode : DecodeMode, mode ≠ .utf16Unmarked → mode.Writes text bytes →
      ∃ last, feed { mode } bytes = .ok (last, text) ∧ last.finish = .ok () ∧
        last.mode ≠ .utf16Unmarked := by
    intro mode hmode hwrites
    obtain ⟨offset, hfeed⟩ := feed_writes hwrites 0
    exact ⟨_, hfeed, rfl, hmode⟩
  cases encoding with
  | utf8 => exact hplain .utf8 nofun h
  | ascii => exact hplain .ascii nofun h
  | latin1 => exact hplain .latin1 nofun h
  | windows1252 => exact hplain .windows1252 nofun h
  | utf16Little => exact hplain (.utf16 .little) nofun h
  | utf16Big => exact hplain (.utf16 .big) nofun h
  | utf8Signed =>
      rcases h with ⟨rest, hbytes, hwrites⟩ | ⟨hmark, hwrites⟩
      · obtain ⟨offset, hfeed⟩ := feed_writes hwrites 0
        refine ⟨{ mode := .utf8, offset }, ?_, rfl, nofun⟩
        rw [hbytes]
        exact feed_append_iff.2 ⟨_, [], text, rfl, hfeed, rfl⟩
      · by_cases hbegun : bytes <+: Utf8.mark
        · rw [text_of_begun hwrites hbegun hmark]
          exact feed_begun hbegun
        · have hsame : feed { mode := .utf8Start } bytes = feed { mode := .utf8 } bytes :=
            feed_unsigned List.nil_prefix hmark hbegun
          rw [start, hsame]
          exact hplain .utf8 nofun hwrites
  | utf16 =>
      obtain ⟨order, rest, hbytes, hwrites⟩ := h
      obtain ⟨offset, hfeed⟩ := feed_writes hwrites 2
      refine ⟨{ mode := .utf16 order, offset }, ?_, rfl, nofun⟩
      rw [hbytes]
      cases order with
      | little => exact feed_append_iff.2 ⟨_, [], text, rfl, hfeed, rfl⟩
      | big => exact feed_append_iff.2 ⟨_, [], text, rfl, hfeed, rfl⟩

end Decoder

end ClassDiagram
