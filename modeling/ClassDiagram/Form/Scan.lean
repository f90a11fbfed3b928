import ClassDiagram.Text.Basic

/-!
# Scanning a line

The pieces from which the forms of a line are put together. Each takes its piece off the front of
the characters and leaves the rest; a piece that is not there gives `none`. A run is always taken
whole, so what follows it never belongs to it; `run?_eq_some_iff` says so.
-/

namespace ClassDiagram.Scan

open Text

/-- Takes the longest run of characters in `p`, which must not be empty. -/
def run? (p : Char → Bool) (line : List Char) : Option (List Char × List Char) :=
  match line.takeWhile p with
  | [] => none
  | run => some (run, line.dropWhile p)

/-- A run is taken exactly if it is a beginning of the line that is not empty, lies in `p`, and
cannot be made longer. -/
theorem run?_eq_some_iff {p : Char → Bool} {line run rest : List Char} :
    run? p line = some (run, rest) ↔
      line = run ++ rest ∧ run ≠ [] ∧ (∀ c ∈ run, p c = true) ∧
        ∀ c ∈ rest.head?, p c = false := by
  constructor
  · intro h
    have hrun : line.takeWhile p = run ∧ line.dropWhile p = rest ∧ run ≠ [] := by
      unfold run? at h
      split at h
      · cases h
      · next hne =>
        cases h
        exact ⟨rfl, rfl, fun he ↦ hne he⟩
    obtain ⟨rfl, rfl, hne⟩ := hrun
    refine ⟨List.takeWhile_append_dropWhile.symm, hne, ?_, ?_⟩
    · exact fun c hc ↦ List.all_eq_true.1 List.all_takeWhile c hc
    · intro c hc
      have := List.head?_dropWhile_not p line
      rw [Option.mem_def.1 hc] at this
      simpa using this
  · rintro ⟨rfl, hne, hall, hrest⟩
    have hdrop : rest.takeWhile p = [] ∧ rest.dropWhile p = rest := by
      cases rest with
      | nil => exact ⟨rfl, rfl⟩
      | cons c tail =>
        have hc : p c = false := hrest c rfl
        simp [hc]
    have htake : (run ++ rest).takeWhile p = run := by
      rw [List.takeWhile_append_of_pos hall, hdrop.1, List.append_nil]
    have hskip : (run ++ rest).dropWhile p = rest := by
      rw [List.dropWhile_append_of_pos hall, hdrop.2]
    unfold run?
    rw [htake, hskip]
    split
    · exact absurd rfl hne
    · rfl

/-- Takes a word. -/
def word? (line : List Char) : Option (List Char × List Char) := run? isWordChar line

/-- Takes the given character. -/
def char? (c : Char) : List Char → Option (List Char)
  | [] => none
  | first :: rest => if first = c then some rest else none

/-- Passes over a gap, which may be empty. -/
def skipGap (line : List Char) : List Char := line.dropWhile isGap

/-- Passes over a gap of at least one character. -/
def gap? (line : List Char) : Option (List Char) := (run? isGap line).map (·.2)

/-- Whether a line is over: nothing is left, or only its line feed. -/
def atEnd (line : List Char) : Bool := line == [] || line == ['\n']

/-- A line without its line feed. -/
def dropFeed (line : List Char) : List Char :=
  if line.getLast? = some '\n' then line.dropLast else line

/-- The free text after a colon, up to the end of the line. The gap before the text is passed over
as far as some text remains, so a line of gap characters alone keeps the last one as its text. -/
def freeText? (line : List Char) : Option (List Char) :=
  let text :=
    match skipGap line with
    | [] => (dropFeed line).getLast?.toList
    | rest => dropFeed rest
  if text = [] ∨ '\n' ∈ text then none else some text

/-- Takes a non-empty text between double quotes, and gives it without them. -/
def quoted? (line : List Char) : Option (List Char × List Char) := do
  let rest ← char? '"' line
  let (text, rest) ← run? (· != '"') rest
  let rest ← char? '"' rest
  return (text, rest)

/-- Splits a line at its last occurrence of a character, which is in neither part. -/
def splitLast? (c : Char) (line : List Char) : Option (List Char × List Char) :=
  match line.reverse.dropWhile (· != c) with
  | [] => none
  | _ :: before => some (before.reverse, (line.reverse.takeWhile (· != c)).reverse)

end ClassDiagram.Scan
