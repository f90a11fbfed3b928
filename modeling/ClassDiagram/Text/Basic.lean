/-!
# Characters and pieces of texts

`isBlank` is the white space of the Unicode standard together with the four information
separators. `isGap` is the smaller set of ASCII white space, which is what separates the words of a
line, and `gap_isBlank` says that every gap character is blank. `trim` removes every blank character
at both ends of a text.

`splitOn` cuts a text at every occurrence of a character, which belongs to no piece. `streamLines`
cuts it behind every line feed, which stays with its line, and gives no empty line at the end.
-/

namespace ClassDiagram.Text

/-! ## Characters -/

/-- A character of a name: an ASCII letter, an ASCII digit or the underscore. -/
def isWordChar (c : Char) : Bool := c.isAlphanum || c == '_'

/-- A character that trimming removes. -/
def isBlank (c : Char) : Bool :=
  let code := c.toNat
  (0x09 ≤ code && code ≤ 0x0D) || (0x1C ≤ code && code ≤ 0x20) || code == 0x85 || code == 0xA0 ||
    code == 0x1680 || (0x2000 ≤ code && code ≤ 0x200A) || code == 0x2028 || code == 0x2029 ||
    code == 0x202F || code == 0x205F || code == 0x3000

/-- A character that may stand between the words of a line: a space or one of the five ASCII
characters from tab to carriage return. -/
def isGap (c : Char) : Bool :=
  c == ' ' || (0x09 ≤ c.toNat && c.toNat ≤ 0x0D)

/-- Every gap character is blank, so a trimmed line has none of them at its ends. -/
theorem gap_isBlank {c : Char} (h : isGap c = true) : isBlank c = true := by
  simp only [isGap, isBlank, Bool.or_eq_true, Bool.and_eq_true, beq_iff_eq,
    decide_eq_true_eq] at h ⊢
  rcases h with rfl | h
  · decide
  · simp [h]

/-! ## The ends of a text -/

/-- A text without its longest suffix of characters in `p`. -/
def dropTrailing (p : Char → Bool) (text : List Char) : List Char :=
  (text.reverse.dropWhile p).reverse

/-- A text without the characters in `p` at its two ends. -/
def dropAround (p : Char → Bool) (text : List Char) : List Char :=
  dropTrailing p (text.dropWhile p)

/-- A text without the blank characters at its two ends. -/
def trim (text : List Char) : List Char := dropAround isBlank text

/-! ## Pieces -/

/-- The pieces of a text between the occurrences of a separator. There is always at least one. -/
def splitOn (separator : Char) (text : List Char) : List (List Char) :=
  let pieces := text.foldr
    (fun c pieces ↦
      if c = separator then ([], pieces.1 :: pieces.2) else (c :: pieces.1, pieces.2))
    ([], [])
  pieces.1 :: pieces.2

/-- Puts a character in front of a text that is cut into lines. -/
def consLine (c : Char) (lines : List (List Char)) : List (List Char) :=
  if c = '\n' then ['\n'] :: lines
  else
    match lines with
    | [] => [[c]]
    | line :: rest => (c :: line) :: rest

/-- The lines of a text, each with its line feed. -/
def streamLines (text : List Char) : List (List Char) := text.foldr consLine []

example : splitOn '\n' ['a', '\n'] = [['a'], []] := by decide
example : streamLines ['a', '\n', 'b'] = [['a', '\n'], ['b']] := by decide

end ClassDiagram.Text
