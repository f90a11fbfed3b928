import ClassDiagram.Proofs.Encoding.Decoder

/-!
# Decoders read nothing but writings

The other direction of `Decoder.feed_start`: where a decoder reads all bytes of a file without a
failure, they are the writing of the text that it gives. `Decoder.feed_start_iff` has both
directions. There are two exceptions, files that end before their mark does: an incomplete mark of
UTF-8 is passed over, and an empty file needs no mark of UTF-16.

The proof needs to know which bytes can be pending (`DecodeMode.Pending`). A byte that completes a
character behind them completes its code, and any other byte that is not refused is pending with
them.
-/

namespace ClassDiagram

/-! ## Pending bytes -/

/-- The bytes that can be pending in UTF-8. The last but one case is a surrogate, which is refused
with the byte behind it. -/
inductive Utf8.Pending : List UInt8 → Prop where
  | nil : Pending []
  | one {first : UInt8} : 0xC2 ≤ first.toNat → first.toNat ≤ 0xF4 → Pending [first]
  | two {first second : UInt8} : 0xE0 ≤ first.toNat → first.toNat ≤ 0xF4 →
      continues first second = true → Pending [first, second]
  | surrogate {first second : UInt8} : beginsSurrogate first second = true →
      Pending [first, second]
  | three {first second third : UInt8} : 0xF0 ≤ first.toNat → first.toNat ≤ 0xF4 →
      continues first second = true → isTrailing third = true → Pending [first, second, third]

/-- The bytes that can be pending in UTF-16. -/
inductive Utf16.Pending (order : ByteOrder) : List UInt8 → Prop where
  | nil : Pending order []
  | one (first : UInt8) : Pending order [first]
  | two {first second : UInt8} : isHigh (unit order first second) = true →
      Pending order [first, second]
  | three {first second : UInt8} (third : UInt8) : isHigh (unit order first second) = true →
      Pending order [first, second, third]

/-- The bytes that can be pending. -/
def DecodeMode.Pending (mode : DecodeMode) (pending : List UInt8) : Prop :=
  match mode with
  | ascii | latin1 | windows1252 => pending = []
  | utf8 => Utf8.Pending pending
  | utf16 order => Utf16.Pending order pending
  | utf16Unmarked | utf8Start | utf16Start => False

/-- What a byte does behind pending bytes: it completes a code, or it is pending with them, or it is
refused. -/
def DecodeMode.Follows (mode : DecodeMode) (pending : List UInt8) (byte : UInt8) :
    Progress → Prop
  | .char c => mode.Spells c (pending ++ [byte])
  | .more bytes => bytes = pending ++ [byte] ∧ mode.Pending bytes
  | .bad _ _ => True

/-- Where bytes can be pending, there may be none. -/
theorem DecodeMode.Pending.nil {mode : DecodeMode} {pending : List UInt8}
    (h : mode.Pending pending) : mode.Pending [] := by
  cases mode with
  | ascii | latin1 | windows1252 => rfl
  | utf8 => exact Utf8.Pending.nil
  | utf16 order => exact Utf16.Pending.nil
  | utf16Unmarked | utf8Start | utf16Start => exact h.elim

/-- The number of a character that was made from it. -/
theorem toNat_ofNat (n : Nat) (h : n < 0xD800 ∨ 0xDFFF < n ∧ n < 0x110000) :
    (Char.ofNat n).toNat = n := by
  have hvalid : n.isValidChar := h
  rw [Char.ofNat, dif_pos hvalid]
  rfl

namespace Utf8

/-- A number is written in one way only. -/
theorem Shape.unique {n : Nat} {code code' : List UInt8} (h : Shape n code) (h' : Shape n code') :
    code = code' := by
  cases h with
  | one first hnumber hfirst =>
      cases h' with
      | one first' _ hfirst' =>
          simp only [List.cons.injEq, eq_iff, and_true]
          omega
      | two | three | four => omega
  | two first second hlow hhigh hfirst hsecond =>
      cases h' with
      | two first' second' _ _ hfirst' hsecond' =>
          simp only [List.cons.injEq, eq_iff, and_true]
          omega
      | one | three | four => omega
  | three first second third hlow hhigh hfirst hsecond hthird =>
      cases h' with
      | three first' second' third' _ _ hfirst' hsecond' hthird' =>
          simp only [List.cons.injEq, eq_iff, and_true]
          omega
      | one | two | four => omega
  | four first second third fourth hlow hfirst hsecond hthird hfourth =>
      cases h' with
      | four first' second' third' fourth' _ hfirst' hsecond' hthird' hfourth' =>
          simp only [List.cons.injEq, eq_iff, and_true]
          omega
      | one | two | three => omega

/-- Bytes of the shape of a number are the code of its character. -/
theorem Shape.spells {n : Nat} {code : List UInt8} (h : Shape n code)
    (hvalid : n < 0xD800 ∨ 0xDFFF < n ∧ n < 0x110000) :
    DecodeMode.utf8.Spells (Char.ofNat n) code := by
  have hcode := shape_encode (Char.ofNat n)
  rw [toNat_ofNat n hvalid] at hcode
  exact h.unique hcode

/-- What a byte does in UTF-8. -/
theorem follows_advance {pending : List UInt8} (h : Pending pending) (byte : UInt8) :
    DecodeMode.utf8.Follows pending byte (advance pending byte) := by
  cases h with
  | nil =>
      rw [advance]
      split_ifs with hascii hlead
      · have hsmall : byte.toNat < 0x80 := hascii
        exact Shape.spells (.one byte hsmall rfl) (by omega)
      · exact ⟨rfl, .one hlead.1 hlead.2⟩
      · trivial
  | @one first hlow hhigh =>
      rw [advance]
      split_ifs with hcontinues hshort hsurrogate
      · have hsmall : first.toNat < 0xE0 := hshort
        have hbyte := continues_iff.1 hcontinues
        rw [payload]
        exact Shape.spells (.two first byte (by omega) (by omega) (by omega) (by omega)) (by omega)
      · have hlarge : ¬ first.toNat < 0xE0 := hshort
        exact ⟨rfl, .two (by omega) hhigh hcontinues⟩
      · exact ⟨rfl, .surrogate hsurrogate⟩
      · trivial
  | @two first second hlow hhigh hcontinues =>
      have hsecond := continues_iff.1 hcontinues
      rw [advance]
      split_ifs with hsurrogate htrailing hshort
      · trivial
      · have hsmall : first.toNat < 0xF0 := hshort
        have hbyte := isTrailing_iff.1 htrailing
        rw [payload, payload]
        exact Shape.spells (.three first second byte (by omega) (by omega) (by omega) (by omega)
          (by omega)) (by omega)
      · have hlarge : ¬ first.toNat < 0xF0 := hshort
        exact ⟨rfl, .three (by omega) hhigh hcontinues htrailing⟩
      · trivial
  | @surrogate first second hsurrogate =>
      rw [advance, if_pos hsurrogate]
      trivial
  | @three first second third hlow hhigh hcontinues htrailing =>
      have hsecond := continues_iff.1 hcontinues
      have hthird := isTrailing_iff.1 htrailing
      rw [advance]
      split_ifs with htrailing'
      · have hbyte := isTrailing_iff.1 htrailing'
        rw [payload, payload, payload]
        exact Shape.spells (.four first second third byte (by omega) (by omega) (by omega)
          (by omega) (by omega)) (by omega)
      · trivial

end Utf8

namespace Utf16

/-- Two bytes are those of their code unit. -/
theorem unitBytes_unit (order : ByteOrder) (first second : UInt8) :
    unitBytes order (unit order first second) = [first, second] := by
  have hfirst := first.toNat_lt
  have hsecond := second.toNat_lt
  cases order with
  | little =>
      simp only [unitBytes, unit, List.cons.injEq, Utf8.eq_iff, UInt8.toNat_ofNat', and_true]
      omega
  | big =>
      simp only [unitBytes, unit, List.cons.injEq, Utf8.eq_iff, UInt8.toNat_ofNat', and_true]
      omega

theorem unit_lt (order : ByteOrder) (first second : UInt8) :
    unit order first second < 0x10000 := by
  have hfirst := first.toNat_lt
  have hsecond := second.toNat_lt
  cases order with
  | little =>
      rw [unit]
      omega
  | big =>
      rw [unit]
      omega

/-- What a byte does in UTF-16. -/
theorem follows_advance {order : ByteOrder} {pending : List UInt8} (h : Pending order pending)
    (byte : UInt8) :
    (DecodeMode.utf16 order).Follows pending byte (advance order pending byte) := by
  cases h with
  | nil => exact ⟨rfl, .one byte⟩
  | one first =>
      have hunit := unit_lt order first byte
      rw [advance]
      split_ifs with hhigh hlow
      · exact ⟨rfl, .two hhigh⟩
      · trivial
      · rw [isHigh_iff] at hhigh
        rw [isLow_iff] at hlow
        have hnumber := toNat_ofNat (unit order first byte) (by omega)
        show [first, byte] = encode order (Char.ofNat (unit order first byte))
        rw [encode, hnumber, if_pos hunit, unitBytes_unit]
  | @two first second hhigh => exact ⟨rfl, .three byte hhigh⟩
  | @three first second third hhigh =>
      rw [advance]
      split_ifs with hlow
      · rw [isHigh_iff] at hhigh
        rw [isLow_iff] at hlow
        let n : Nat := 0x10000 + (unit order first second - 0xD800) * 0x400 +
          (unit order third byte - 0xDC00)
        have hlarge : ¬ n < 0x10000 := by omega
        have hnumber := toNat_ofNat n (by omega)
        -- the two units are found again in the number
        have hfirst : 0xD800 + (n - 0x10000) / 0x400 = unit order first second := by omega
        have hsecond : 0xDC00 + (n - 0x10000) % 0x400 = unit order third byte := by omega
        show [first, second, third, byte] = encode order (Char.ofNat n)
        rw [encode, hnumber, if_neg hlarge, hfirst, hsecond, unitBytes_unit, unitBytes_unit]
        rfl
      · trivial

end Utf16

/-- Every code point in the table of code page 1252 is that of a character. -/
theorem windows1252Table_lt {position code : Nat}
    (h : windows1252Table[position]? = some (some code)) : code < 0xD800 := by
  have hall : ∀ entry ∈ windows1252Table, ∀ code ∈ entry, code < 0xD800 := by decide
  exact hall (some code) (List.mem_of_getElem? h) code rfl

/-- What a byte does in each mode. -/
theorem DecodeMode.follows_advance {mode : DecodeMode} {pending : List UInt8}
    (h : mode.Pending pending) (byte : UInt8) :
    mode.Follows pending byte (mode.advance pending byte) := by
  have hbyte := byte.toNat_lt
  have hnumber := toNat_ofNat byte.toNat (by omega)
  have hsame : UInt8.ofNat byte.toNat = byte := UInt8.ofNat_toNat
  cases mode with
  | ascii =>
      cases h
      rw [advance]
      split_ifs with hascii
      · refine ⟨?_, ?_⟩
        · rw [hnumber]
          exact hascii
        · rw [hnumber, hsame]
          rfl
      · trivial
  | latin1 =>
      cases h
      refine ⟨?_, ?_⟩
      · rw [hnumber]
        exact hbyte
      · rw [hnumber, hsame]
        rfl
  | windows1252 =>
      cases h
      rw [advance]
      split_ifs with hrange
      · exact ⟨byte, rfl, Or.inl ⟨hrange, hnumber⟩⟩
      · split
        · next code hentry =>
            have hlow : 0x80 ≤ byte.toNat := by
              by_contra hlow
              exact hrange (Or.inl (Nat.lt_of_not_le hlow))
            have hcode := toNat_ofNat code (Or.inl (windows1252Table_lt hentry))
            exact ⟨byte, rfl, Or.inr ⟨hlow, by rw [hcode]; exact hentry⟩⟩
        · trivial
  | utf8 => exact Utf8.follows_advance h byte
  | utf16 order => exact Utf16.follows_advance h byte
  | utf16Unmarked | utf8Start | utf16Start => exact h.elim

/-! ## Runs of decoders -/

namespace Decoder

variable {encoding : Encoding} {decoder last : Decoder} {bytes : List UInt8} {text : List Char}

/-- A decoder has read the writing of the text that it gives, and what is left is pending. -/
theorem writes_of_feedPlain (h : decoder.mode.Pending decoder.pending)
    (hfeed : decoder.feedPlain bytes = .ok (last, text)) :
    ∃ read, decoder.pending ++ bytes = read ++ last.pending ∧
      decoder.mode.Writes text read := by
  induction bytes generalizing decoder text with
  | nil =>
      cases hfeed
      exact ⟨[], by simp, .nil⟩
  | cons byte rest ih =>
      obtain ⟨middle, front, back, hstep, hrest, htext⟩ := feedPlain_cons_iff.1 hfeed
      have hfollows := DecodeMode.follows_advance h byte
      rw [stepPlain] at hstep
      split at hstep
      · next c hchar =>
          -- the byte completes a character, and the rest begins behind it
          rw [hchar] at hfollows
          cases hstep
          obtain ⟨read, hread, hwrites⟩ := ih h.nil hrest
          refine ⟨(decoder.pending ++ [byte]) ++ read, ?_, ?_⟩
          · rw [List.nil_append] at hread
            rw [hread]
            simp
          · rw [← htext]
            exact .cons hfollows hwrites
      · next pending hmore =>
          rw [hmore] at hfollows
          obtain ⟨hpending, hbegun⟩ := hfollows
          cases hstep
          obtain ⟨read, hread, hwrites⟩ := ih hbegun hrest
          refine ⟨read, ?_, ?_⟩
          · rw [← hread, hpending]
            simp only [List.append_assoc, List.singleton_append]
          · rw [← htext]
            exact hwrites
      · cases hstep

/-- In a mode with codes, bytes that are read to their end are the writing of the text. -/
theorem writes_of_feed {mode : DecodeMode} (hmode : mode.Pending []) {offset : Nat}
    (hfeed : feed { mode, offset } bytes = .ok (last, text)) (hfinish : last.finish = .ok ()) :
    mode.Writes text bytes := by
  have hplain : mode.awaitsMark = false := by
    cases mode with
    | utf8Start | utf16Start => exact hmode.elim
    | ascii | latin1 | windows1252 | utf8 | utf16 | utf16Unmarked => rfl
  have hlast : last.mode = mode := mode_feed hplain hfeed
  rw [feed_plain hplain] at hfeed
  obtain ⟨read, hread, hwrites⟩ := writes_of_feedPlain hmode hfeed
  have hnone : last.pending = [] := by
    by_contra hsome
    have hend : ¬ (last.pending = [] ∨ last.mode = .utf8Start) := by
      rintro (hnil | hstart)
      · exact hsome hnil
      · rw [hlast] at hstart
        rw [hstart] at hplain
        cases hplain
    rw [finish] at hfinish
    dsimp only at hfinish
    rw [if_neg hend] at hfinish
    cases hfinish
  rw [hnone, List.append_nil, List.nil_append] at hread
  rw [hread]
  exact hwrites

/-- Bytes that are read to their end where a mark of UTF-8 may stand. -/
theorem writes_of_signed (hfeed : feed { mode := .utf8Start } bytes = .ok (last, text))
    (hfinish : last.finish = .ok ()) :
    Encoding.utf8Signed.Writes text bytes ∨ text = [] ∧ bytes <+: Utf8.mark := by
  by_cases hmark : Utf8.mark <+: bytes
  · obtain ⟨rest, hbytes⟩ := hmark
    rw [← hbytes] at hfeed
    obtain ⟨middle, front, back, hfirst, hrest, htext⟩ := feed_append_iff.1 hfeed
    cases hfirst
    refine Or.inl (Or.inl ⟨rest, hbytes.symm, ?_⟩)
    rw [← htext]
    exact writes_of_feed Utf8.Pending.nil hrest hfinish
  · by_cases hbegun : bytes <+: Utf8.mark
    · obtain ⟨_, hempty, _⟩ := feed_begun hbegun
      rw [hempty] at hfeed
      cases hfeed
      exact Or.inr ⟨rfl, hbegun⟩
    · have hsame : feed { mode := .utf8Start } bytes = feed { mode := .utf8 } bytes :=
        feed_unsigned List.nil_prefix hmark hbegun
      rw [hsame] at hfeed
      exact Or.inl (Or.inr ⟨hmark, writes_of_feed Utf8.Pending.nil hfeed hfinish⟩)

/-- Bytes that are read to their end where a mark of UTF-16 must stand. -/
theorem writes_of_marked (hfeed : feed { mode := .utf16Start } bytes = .ok (last, text))
    (hfinish : last.finish = .ok ()) (hmissing : last.mode ≠ .utf16Unmarked) :
    Encoding.utf16.Writes text bytes ∨ text = [] ∧ bytes = [] := by
  have hfirst : ∀ byte, step { mode := .utf16Start } byte =
      .ok ({ mode := .utf16Start, pending := [byte] }, []) := by
    intro byte
    simp [step, stepMarked]
  cases bytes with
  | nil =>
      cases hfeed
      exact Or.inr ⟨rfl, rfl⟩
  | cons first others =>
      rw [feed_of_step (hfirst first)] at hfeed
      cases others with
      | nil =>
          -- half a mark stays pending, with which no file may end
          cases hfeed
          cases hfinish
      | cons second rest =>
          obtain ⟨middle, front, back, hsecond, hrest, htext⟩ := feed_cons_iff.1 hfeed
          rw [step, stepMarked] at hsecond
          dsimp only at hsecond
          split_ifs at hsecond with hlittle hbig hshort
          · cases hsecond
            obtain ⟨rfl, rfl⟩ : first = 0xFF ∧ second = 0xFE := by simpa using hlittle
            refine Or.inl ⟨.little, rest, rfl, ?_⟩
            rw [← htext]
            exact writes_of_feed Utf16.Pending.nil hrest hfinish
          · cases hsecond
            obtain ⟨rfl, rfl⟩ : first = 0xFE ∧ second = 0xFF := by simpa using hbig
            refine Or.inl ⟨.big, rest, rfl, ?_⟩
            rw [← htext]
            exact writes_of_feed Utf16.Pending.nil hrest hfinish
          · exact absurd hshort (Nat.lt_irrefl 2)
          · -- without a mark the mode stays that of a missing mark
            have hplain : feed { mode := .utf16Unmarked } ([first] ++ [second]) =
                .ok (middle, front) := (feed_plain rfl _).trans hsecond
            have hmiddle : middle.mode = .utf16Unmarked := mode_feed rfl hplain
            have hlast := mode_feed (by rw [hmiddle]; rfl) hrest
            exact absurd (hlast.trans hmiddle) hmissing

/-- A decoder reads the bytes of a file to their end exactly if they are the writing of the text
that it gives. Apart from that, it passes over an incomplete mark of UTF-8 and reads an empty file
in UTF-16. -/
theorem feed_start_iff :
    (∃ last, (start encoding).feed bytes = .ok (last, text) ∧ last.finish = .ok () ∧
        last.mode ≠ .utf16Unmarked) ↔
      encoding.Writes text bytes ∨
        text = [] ∧ (encoding = .utf8Signed ∧ bytes <+: Utf8.mark ∨
          encoding = .utf16 ∧ bytes = []) := by
  constructor
  · intro h
    obtain ⟨last, hfeed, hfinish, hmissing⟩ := h
    cases encoding with
    | utf8 => exact Or.inl (writes_of_feed Utf8.Pending.nil hfeed hfinish)
    | ascii => exact Or.inl (writes_of_feed rfl hfeed hfinish)
    | latin1 => exact Or.inl (writes_of_feed rfl hfeed hfinish)
    | windows1252 => exact Or.inl (writes_of_feed rfl hfeed hfinish)
    | utf16Little => exact Or.inl (writes_of_feed Utf16.Pending.nil hfeed hfinish)
    | utf16Big => exact Or.inl (writes_of_feed Utf16.Pending.nil hfeed hfinish)
    | utf8Signed => simpa using writes_of_signed hfeed hfinish
    | utf16 => simpa using writes_of_marked hfeed hfinish hmissing
  · intro h
    rcases h with hwrites | ⟨rfl, ⟨rfl, hbegun⟩ | ⟨rfl, rfl⟩⟩
    · exact feed_start hwrites
    · exact feed_begun hbegun
    · exact ⟨{ mode := .utf16Start }, rfl, rfl, by simp⟩

end Decoder

end ClassDiagram
