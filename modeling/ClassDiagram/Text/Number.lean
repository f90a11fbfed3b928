import ClassDiagram.Text.Basic
import ClassDiagram.Text.Unicode

/-!
# Numbers in texts

Escape sequences use the lower-case hexadecimal spelling of a number in a given count of digits.

A written integer is a sign, which may be left out, and decimal digits of any script. A single
underscore may stand between two digits, and blanks may stand around the whole. There are at most
4300 digits.
-/

namespace ClassDiagram.Text

/-- The hexadecimal digits of a number at the lowest `width` places, highest place first. -/
def hexDigits (width value : Nat) : List Char :=
  (List.range width).reverse.map fun place ↦ Nat.digitChar (value / Nat.pow 16 place % 16)

example : hexDigits 4 0xe9 = ['0', '0', 'e', '9'] := by decide

/-- A blank that may stand around an integer. The information separators may not. -/
def isIntegerBlank (c : Char) : Bool := isGap c || (0x7F ≤ c.toNat && isBlank c)

/-- The greatest number of digits of an integer. -/
def digitLimit : Nat := 4300

/-- The values of digits with single underscores between them. -/
def digitValues? (text : List Char) : Option (List Nat) :=
  let groups := splitOn '_' text
  if groups.contains [] then none else groups.flatten.mapM digitValue?

/-- The number with the given decimal digits, most significant first. -/
def ofDigits (digits : List Nat) : Nat := digits.foldl (fun value digit ↦ 10 * value + digit) 0

/-- The natural number written by digits. -/
def natural? (text : List Char) : Option Nat := do
  let digits ← digitValues? text
  guard (digits.length ≤ digitLimit)
  return ofDigits digits

/-- The integer that a text writes. -/
def integer? (text : String) : Option Int :=
  match dropAround isIntegerBlank text.toList with
  | '-' :: digits => (natural? digits).map fun value ↦ -Int.ofNat value
  | '+' :: digits => (natural? digits).map Int.ofNat
  | digits => (natural? digits).map Int.ofNat

end ClassDiagram.Text
