import ClassDiagram.Form.Scan
import ClassDiagram.Output.Json
import ClassDiagram.Proofs.Encoding.Decoder
import Mathlib.Tactic.Ring

/-!
# Reading JSON

A reader of JSON texts, as far as their values are strings, arrays and objects. It knows nothing of
the layout that models are written in: there may be spaces around every mark, a string may hold
characters as they are or by any of their escapes, and the fields of an object may have any keys.

A string is read in two steps. Its characters and escapes give code units of UTF-16, and the units
are put together to characters afterwards, so the two halves of a pair need not know of each other.
`string?_escaped` says that a quoted text is read as the text.
-/

namespace ClassDiagram.Json

/-! ## Strings -/

/-- The value of a hexadecimal digit of either case. -/
def hexValue? (c : Char) : Option Nat :=
  if '0' ≤ c ∧ c ≤ '9' then some (c.toNat - '0'.toNat)
  else if 'a' ≤ c ∧ c ≤ 'f' then some (c.toNat - 'a'.toNat + 10)
  else if 'A' ≤ c ∧ c ≤ 'F' then some (c.toNat - 'A'.toNat + 10)
  else none

/-- The number that hexadecimal digits write, highest place first. -/
def hexNumber? (digits : List Char) : Option Nat :=
  digits.foldlM (fun number digit ↦ (hexValue? digit).map (number * 16 + ·)) 0

/-- The character that a backslash and the given character stand for. -/
def shortEscape? : Char → Option Char
  | '"' => some '"'
  | '\\' => some '\\'
  | '/' => some '/'
  | 'b' => some '\x08'
  | 'f' => some '\x0c'
  | 'n' => some '\n'
  | 'r' => some '\r'
  | 't' => some '\t'
  | _ => none

/-- The code units of a character: one, or a pair if its number has more than sixteen bits. -/
def units (c : Char) : List Nat :=
  if c.toNat < 0x10000 then [c.toNat]
  else [0xD800 + (c.toNat - 0x10000) / 0x400, 0xDC00 + (c.toNat - 0x10000) % 0x400]

/-- The code units of a string, up to the quote that ends it, and the rest behind that quote. A
string has no control characters but by their escapes. -/
def units? : List Char → Option (List Nat × List Char)
  | [] => none
  | '"' :: rest => some ([], rest)
  | '\\' :: 'u' :: a :: b :: c :: d :: rest => do
    let unit ← hexNumber? [a, b, c, d]
    let (more, rest) ← units? rest
    return (unit :: more, rest)
  | '\\' :: c :: rest => do
    let escaped ← shortEscape? c
    let (more, rest) ← units? rest
    return (units escaped ++ more, rest)
  | c :: rest => do
    guard (0x20 ≤ c.toNat)
    let (more, rest) ← units? rest
    return (units c ++ more, rest)

/-- The characters that code units stand for. The two halves of a pair stand for one character, and
neither of them stands for a character alone. -/
def recombine? : List Nat → Option (List Char)
  | [] => some []
  | [unit] => if Utf16.isHigh unit || Utf16.isLow unit then none else some [Char.ofNat unit]
  | first :: second :: rest =>
    if Utf16.isHigh first && Utf16.isLow second then
      (recombine? rest).map
        (Char.ofNat (0x10000 + (first - 0xD800) * 0x400 + (second - 0xDC00)) :: ·)
    else if Utf16.isHigh first || Utf16.isLow first then none
    else (recombine? (second :: rest)).map (Char.ofNat first :: ·)

/-- Takes the rest of a string behind its opening quote. -/
def string? (text : List Char) : Option (String × List Char) := do
  let (units, rest) ← units? text
  let chars ← recombine? units
  return (String.ofList chars, rest)

/-! ## Values -/

/-- A character that may stand around a mark. -/
def isSpace (c : Char) : Bool := c == ' ' || c == '\t' || c == '\n' || c == '\r'

/-- Passes over spaces, if there are any. -/
def skipSpace (text : List Char) : List Char := text.dropWhile isSpace

section Lists

variable {α : Type} (element? : List Char → Option (α × List Char)) (closing : Char)

/-- Takes one element or more with commas between them and the mark that closes their list. There
are at most as many elements as the number says. -/
def elements? : Nat → List Char → Option (List α × List Char)
  | 0, _ => none
  | count + 1, chars => do
    let (element, rest) ← element? chars
    match skipSpace rest with
    | [] => none
    | mark :: rest =>
      if mark = closing then some ([element], rest)
      else if mark = ',' then do
        let (elements, rest) ← elements? count rest
        return (element :: elements, rest)
      else none

/-- Takes the rest of a list behind the mark that opens it. Every element has a character of its
own. -/
def list? (text : List Char) : Option (List α × List Char) :=
  match Scan.char? closing (skipSpace text) with
  | some rest => some ([], rest)
  | none => elements? element? closing text.length text

end Lists

/-- Takes a field of an object: its key, a colon and its value. -/
def field? (value? : List Char → Option (Json × List Char)) (text : List Char) :
    Option ((String × Json) × List Char) := do
  let rest ← Scan.char? '"' (skipSpace text)
  let (key, rest) ← string? rest
  let rest ← Scan.char? ':' (skipSpace rest)
  let (value, rest) ← value? rest
  return ((key, value), rest)

/-- Takes a value in which arrays and objects are nested no deeper than the given depth. -/
def value? : Nat → List Char → Option (Json × List Char)
  | 0, _ => none
  | depth + 1, chars =>
    match skipSpace chars with
    | '"' :: rest => (string? rest).map fun (value, rest) ↦ (.text value, rest)
    | '[' :: rest => (list? (value? depth) ']' rest).map fun (items, rest) ↦ (.array items, rest)
    | '{' :: rest =>
      (list? (field? (value? depth)) '}' rest).map fun (fields, rest) ↦ (.object fields, rest)
    | _ => none

/-- The value of a whole text. No value is nested deeper than its text is long. -/
def read? (text : List Char) : Option Json := do
  let (value, rest) ← value? text.length text
  guard (skipSpace rest = [])
  return value

example : read? " [\"\\uD834\\udd1e\\/\" ,\t\x7b\"é\":[ ] \x7d ]\n".toList =
    some (.array [.text "𝄞/", .object [("é", .array [])]]) := rfl

example : read? "[\"\\ud834\"]".toList = none := rfl

/-! ## What the reader makes of a quoted text -/

theorem hexValue?_digitChar {digit : Nat} (h : digit < 16) :
    hexValue? (Nat.digitChar digit) = some digit := by
  revert digit
  decide

/-- The digits of a number, from the highest place on. -/
theorem hexDigits_succ (width value : Nat) :
    Text.hexDigits (width + 1) value =
      Nat.digitChar (value / 16 ^ width % 16) :: Text.hexDigits width value := by
  rw [Text.hexDigits, List.range_succ, List.reverse_concat, List.map_cons]
  rfl

/-- Digits are read as the number whose lowest places they are. -/
theorem foldlM_hexDigits (width value number : Nat) :
    (Text.hexDigits width value).foldlM
        (fun number digit ↦ (hexValue? digit).map (number * 16 + ·)) number =
      some (number * 16 ^ width + value % 16 ^ width) := by
  induction width generalizing number with
  | zero =>
      rw [Nat.pow_zero, Nat.mod_one, Nat.mul_one]
      rfl
  | succ width ih =>
      have hdigit : value / 16 ^ width % 16 < 16 := Nat.mod_lt _ (by omega)
      have hplaces : value % 16 ^ (width + 1) =
          value / 16 ^ width % 16 * 16 ^ width + value % 16 ^ width := by
        rw [Nat.pow_succ, Nat.mod_mul, Nat.mul_comm, Nat.add_comm]
      rw [hexDigits_succ, List.foldlM_cons, hexValue?_digitChar hdigit]
      show List.foldlM _ _ _ = _
      rw [ih, hplaces, Nat.pow_succ]
      congr 1
      ring

/-- The digits of a number that has no more places are read as the number. -/
theorem hexNumber?_hexDigits {width value : Nat} (h : value < 16 ^ width) :
    hexNumber? (Text.hexDigits width value) = some value := by
  rw [hexNumber?, foldlM_hexDigits, Nat.mod_eq_of_lt h, Nat.zero_mul, Nat.zero_add]

/-- The escape of a code unit is read as the unit. -/
theorem units?_escapeUnit {unit : Nat} (h : unit < 0x10000) (rest : List Char) :
    units? (escapeUnit unit ++ rest) =
      (units? rest).map fun (more, rest) ↦ (unit :: more, rest) := by
  have hnumber : hexNumber? (Text.hexDigits 4 unit) = some unit := hexNumber?_hexDigits h
  have hdigits : Text.hexDigits 0 unit = [] := rfl
  simp only [hexDigits_succ, hdigits] at hnumber
  simp only [escapeUnit, hexDigits_succ, hdigits, List.cons_append, List.nil_append]
  rw [units?, hnumber]
  cases units? rest with
  | none => rfl
  | some read => rfl

/-- A short escape is read as the character that it stands for. -/
theorem units?_shortEscape {c escaped : Char} (h : shortEscape? c = some escaped)
    (rest : List Char) :
    units? ('\\' :: c :: rest) =
      (units? rest).map fun (more, rest) ↦ (units escaped ++ more, rest) := by
  rw [units?, h]
  · cases units? rest with
    | none => rfl
    | some read => rfl
  · intro _ _ _ _ _ hunit _
    rw [hunit] at h
    cases h

/-- A character that is not escaped is read as it is. -/
theorem units?_plain {c : Char} (hprintable : 0x20 ≤ c.toNat) (hquote : c ≠ '"')
    (hslash : c ≠ '\\') (rest : List Char) :
    units? (c :: rest) = (units? rest).map fun (more, rest) ↦ (units c ++ more, rest) := by
  rw [units?]
  · cases units? rest with
    | none => simp [hprintable]
    | some read => simp [hprintable]
  · exact hquote
  · exact fun _ _ _ _ _ heq _ ↦ hslash heq
  · exact fun _ _ heq _ ↦ hslash heq

/-- An escaped character is read as its code units. -/
theorem units?_escapeChar (c : Char) (rest : List Char) :
    units? (escapeChar c ++ rest) =
      (units? rest).map fun (more, rest) ↦ (units c ++ more, rest) := by
  have hchar : ∀ d : Char, c.toNat = d.toNat → c = d := fun d hd ↦ Char.toNat_inj.1 hd
  unfold escapeChar
  split_ifs with hmark hfeed hreturn htab hback hform hplain hunit
  · rcases hmark with rfl | rfl
    · exact units?_shortEscape rfl rest
    · exact units?_shortEscape rfl rest
  · rw [hfeed]
    exact units?_shortEscape rfl rest
  · rw [hreturn]
    exact units?_shortEscape rfl rest
  · rw [htab]
    exact units?_shortEscape rfl rest
  · rw [hchar '\x08' hback]
    exact units?_shortEscape rfl rest
  · rw [hchar '\x0c' hform]
    exact units?_shortEscape rfl rest
  · rw [not_or] at hmark
    exact units?_plain hplain.1 hmark.1 hmark.2 rest
  · rw [units?_escapeUnit hunit, units, if_pos hunit]
    rfl
  · -- a pair: the two escapes are read one after the other
    have hvalid := toNat_lt c
    rw [List.append_assoc, units?_escapeUnit (by omega), units?_escapeUnit (by omega), units,
      if_neg hunit, Option.map_map]
    rfl

/-- The code units of a character are put together to the character. -/
theorem recombine?_append (c : Char) (more : List Nat) :
    recombine? (units c ++ more) = (recombine? more).map (c :: ·) := by
  have hvalid := toNat_lt c
  unfold units
  split
  · next hunit =>
      have hhigh : Utf16.isHigh c.toNat = false := by
        rw [Bool.eq_false_iff, ne_eq, Utf16.isHigh_iff]
        omega
      have hlow : Utf16.isLow c.toNat = false := by
        rw [Bool.eq_false_iff, ne_eq, Utf16.isLow_iff]
        omega
      cases more with
      | nil => simp [recombine?, hhigh, hlow, Char.ofNat_toNat]
      | cons second more => simp [recombine?, hhigh, hlow, Char.ofNat_toNat]
  · next hpair =>
      have hhigh : Utf16.isHigh (0xD800 + (c.toNat - 0x10000) / 0x400) = true :=
        Utf16.isHigh_iff.2 (by omega)
      have hlow : Utf16.isLow (0xDC00 + (c.toNat - 0x10000) % 0x400) = true :=
        Utf16.isLow_iff.2 (by omega)
      have hvalue : 0x10000 + (0xD800 + (c.toNat - 0x10000) / 0x400 - 0xD800) * 0x400 +
          (0xDC00 + (c.toNat - 0x10000) % 0x400 - 0xDC00) = c.toNat := by
        omega
      rw [List.cons_append, List.singleton_append, recombine?, hhigh, hlow, ofNat_eq hvalue]
      rfl

/-- What is written between quotes is read as the text, up to the closing quote. -/
theorem string?_escaped (text : String) (rest : List Char) :
    string? (text.toList.flatMap escapeChar ++ '"' :: rest) = some (text, rest) := by
  have hunits : ∀ chars : List Char,
      units? (chars.flatMap escapeChar ++ '"' :: rest) = some (chars.flatMap units, rest) := by
    intro chars
    induction chars with
    | nil => rfl
    | cons c chars ih =>
        rw [List.flatMap_cons, List.append_assoc, units?_escapeChar, ih]
        rfl
  have hchars : ∀ chars : List Char, recombine? (chars.flatMap units) = some chars := by
    intro chars
    induction chars with
    | nil => rfl
    | cons c chars ih =>
        rw [List.flatMap_cons, recombine?_append, ih]
        rfl
  rw [string?, hunits]
  show (recombine? (text.toList.flatMap units)).bind _ = _
  rw [hchars]
  show some (String.ofList text.toList, rest) = _
  rw [String.ofList_toList]

end ClassDiagram.Json
