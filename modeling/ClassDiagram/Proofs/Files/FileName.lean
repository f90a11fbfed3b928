import ClassDiagram.Files.FileName
import ClassDiagram.Output.Format
import ClassDiagram.Proofs.Files.FileTree
import ClassDiagram.Proofs.Line
import Mathlib.Data.List.TakeDrop

/-!
# Names of written files

A sanitised name has safe characters only, and sanitising leaves such names as they are
(`sanitise_eq_self_iff`). So the name of a written file, which is a sanitised name and the suffix of
a format, is one name of a path: the file stands directly in its directory. The suffix is the
extension of the file, so its stem is the sanitised name again.
-/

namespace ClassDiagram

open Scan

/-! ## Sanitised names -/

namespace FileName

/-- Replacing the unsafe runs leaves safe characters only. -/
theorem safe_replaceRuns (text : List Char) : OnlyOf isSafe (replaceRuns text) := by
  unfold replaceRuns
  induction text with
  | nil => exact OnlyOf.nil _
  | cons c rest ih =>
      rw [List.foldr_cons, consSafe]
      split_ifs with hsafe hrun
      · exact List.forall_mem_cons.2 ⟨hsafe, ih⟩
      · exact ih
      · exact List.forall_mem_cons.2 ⟨by decide, ih⟩

/-- A sanitised name is a run of safe characters. -/
theorem safe_sanitise (text : String) : RunOf isSafe (sanitise text).toList := by
  unfold sanitise
  split
  · decide
  · next name hne =>
      rw [String.toList_ofList]
      exact ⟨hne, safe_replaceRuns _⟩

/-- A character of the portable set: an ASCII letter or digit, a dot, an underscore or a hyphen. -/
def IsPortable (c : Char) : Prop :=
  'A' ≤ c ∧ c ≤ 'Z' ∨ 'a' ≤ c ∧ c ≤ 'z' ∨ '0' ≤ c ∧ c ≤ '9' ∨ c = '.' ∨ c = '_' ∨ c = '-'

/-- The safe characters are those of the portable set. -/
theorem isSafe_iff {c : Char} : isSafe c = true ↔ IsPortable c := by
  have hranges : isSafe c =
      ((((decide ('A' ≤ c ∧ c ≤ 'Z') || (decide ('a' ≤ c) && decide (c ≤ 'z')) ||
        (decide ('0' ≤ c) && decide (c ≤ '9'))) || c == '.') || c == '_') || c == '-') := rfl
  rw [hranges, IsPortable]
  simp only [Bool.or_eq_true, Bool.and_eq_true, decide_eq_true_eq, beq_iff_eq, or_assoc]

/-- No safe character is blank. -/
theorem not_blank_of_safe {c : Char} (h : isSafe c = true) : Text.isBlank c = false := by
  have hcases : Text.isWordChar c = true ∨ c = '.' ∨ c = '-' := by
    simp only [isSafe, Text.isWordChar, Bool.or_eq_true, beq_iff_eq] at h ⊢
    tauto
  rcases hcases with hword | rfl | rfl
  · exact not_blank_of_word hword
  · decide
  · decide

/-- Trimming leaves safe characters as they are. -/
theorem trim_of_safe {text : List Char} (h : OnlyOf isSafe text) : Text.trim text = text := by
  have hfirst : Stops Text.isBlank text :=
    fun c hc ↦ not_blank_of_safe (h c (List.mem_of_mem_head? hc))
  have hlast : Stops Text.isBlank text.reverse :=
    fun c hc ↦ not_blank_of_safe (h c (List.mem_reverse.1 (List.mem_of_mem_head? hc)))
  exact Text.trim_iff.2 ⟨[], [], by simp, OnlyOf.nil _, OnlyOf.nil _, hfirst, hlast⟩

/-- There is nothing to replace in a text of safe characters. -/
theorem replaceRuns_of_safe {text : List Char} (h : OnlyOf isSafe text) :
    replaceRuns text = text := by
  have hfold : text.foldr consSafe ([], false) = (text, false) := by
    induction text with
    | nil => rfl
    | cons c rest ih =>
        obtain ⟨hc, hrest⟩ := List.forall_mem_cons.1 h
        rw [List.foldr_cons, ih hrest, consSafe, if_pos hc]
  rw [replaceRuns, hfold]

/-- Sanitising leaves exactly the runs of safe characters as they are. -/
theorem sanitise_eq_self_iff {name : String} :
    sanitise name = name ↔ RunOf isSafe name.toList := by
  constructor
  · intro h
    rw [← h]
    exact safe_sanitise name
  · intro h
    rw [sanitise, trim_of_safe h.2, replaceRuns_of_safe h.2]
    split
    · next hempty => exact absurd hempty h.1
    · exact String.ofList_toList

/-- A sanitised name is sanitised. -/
theorem sanitise_sanitise (name : String) : sanitise (sanitise name) = sanitise name :=
  sanitise_eq_self_iff.2 (safe_sanitise name)

/-- A name that sanitising leaves as it is has no unsafe characters. -/
theorem not_mem_of_sanitise {name : String} (h : sanitise name = name) {c : Char}
    (hc : isSafe c = false) : c ∉ name.toList := by
  intro hmem
  rw [(sanitise_eq_self_iff.1 h).2 c hmem] at hc
  cases hc

end FileName

/-- The suffix of the files of a format. -/
def Format.suffix : Format → String
  | dump => ".txt"
  | json => ".json"
  | puml => ".puml"

/-- The document of a model in a format has the suffix of the format. -/
theorem suffix_document (format : Format) (model : Model) (title : Option String) :
    (format.document model title).suffix = format.suffix := by
  cases format <;> rfl

/-- The name of the file for an input of the given name. -/
def FileName.ofInput (format : Format) (name : String) : String :=
  FileName.sanitise name ++ format.suffix

namespace FileName

/-- Inputs have the same file name exactly if their sanitised names are the same. -/
theorem ofInput_inj {format : Format} {name other : String} :
    ofInput format name = ofInput format other ↔ sanitise name = sanitise other := by
  unfold ofInput
  rw [← String.toList_inj, ← String.toList_inj, String.toList_append, String.toList_append,
    List.append_left_inj]

/-- A file name consists of safe characters. -/
theorem safe_ofInput (format : Format) (name : String) :
    OnlyOf isSafe (ofInput format name).toList := by
  have hsuffix : OnlyOf isSafe format.suffix.toList := by cases format <;> decide
  rw [ofInput, String.toList_append]
  exact (safe_sanitise name).2.append hsuffix

/-- A file name has more than four characters. -/
theorem length_ofInput (format : Format) (name : String) : 4 < (ofInput format name).length := by
  have hsuffix : 4 ≤ format.suffix.length := by cases format <;> decide
  have hname : 0 < (sanitise name).length := by
    rw [← String.length_toList]
    exact List.length_pos_of_ne_nil (safe_sanitise name).1
  rw [ofInput, String.length_append]
  omega

/-- A file name is neither of the two names with dots only, and no path of several names. -/
theorem proper_ofInput (format : Format) (name : String) :
    ofInput format name ≠ "." ∧ ofInput format name ≠ ".." ∧
      '/' ∉ (ofInput format name).toList := by
  have hlong : ∀ dots : String, dots.length ≤ 4 → ofInput format name ≠ dots := by
    intro dots hdots heq
    have hlength := length_ofInput format name
    rw [heq] at hlength
    omega
  refine ⟨hlong _ (by decide), hlong _ (by decide), fun hslash ↦ ?_⟩
  have hsafe : isSafe '/' = true := safe_ofInput format name _ hslash
  cases hsafe

end FileName

/-! ## Files in a directory -/

namespace Path

/-- The path of a name in a directory. -/
def child (directory : Path) (name : String) : Path :=
  { directory with names := directory.names ++ [name] }

theorem name_child (directory : Path) (name : String) : (directory.child name).name = name := by
  simp [child, Path.name]

theorem parent_child (directory : Path) (name : String) :
    (directory.child name).parent = directory := by
  simp [child, parent]

theorem child_inj {directory : Path} {name other : String} :
    directory.child name = directory.child other ↔ name = other := by
  simp [child]

/-- A name of safe characters is read as a path of one name, unless it is empty or a dot. -/
theorem ofString_of_safe {name : String} (h : OnlyOf FileName.isSafe name.toList)
    (hlength : 1 < name.length) : ofString name = { names := [name] } := by
  have hslash : '/' ∉ name.toList := by
    intro hmem
    have hsafe : FileName.isSafe '/' = true := h _ hmem
    cases hsafe
  have hpieces : (Text.splitOn '/' name.toList).map String.ofList = [name] := by
    rw [Text.splitOn_of_not_mem hslash, List.map_singleton, String.ofList_toList]
  have hproper : (name != "" && name != ".") = true := by
    simp only [Bool.and_eq_true, bne_iff_ne, ne_eq]
    constructor
    · rintro rfl
      exact absurd hlength (by decide)
    · rintro rfl
      exact absurd hlength (by decide)
  have hanchor : anchorOf name.toList = .working := by
    unfold anchorOf
    cases hname : name.toList with
    | nil => rfl
    | cons c rest =>
        have hc : ¬ c = '/' := fun heq ↦ hslash (by simp [hname, heq])
        simp [hc]
  rw [ofString, hpieces, hanchor, List.filter_singleton, hproper]
  rfl

/-- A written file stands directly in its directory. -/
theorem join_ofInput (directory : Path) (format : Format) (name : String) :
    directory.join (ofString (FileName.ofInput format name)) =
      directory.child (FileName.ofInput format name) := by
  have hlength := FileName.length_ofInput format name
  rw [ofString_of_safe (FileName.safe_ofInput format name) (by omega)]
  rfl

/-- A name without its extension is what stands before the last dot. -/
theorem stemOf_append {base extension : List Char} (hbase : base ≠ []) (hne : extension ≠ [])
    (hdot : '.' ∉ extension) : stemOf (base ++ '.' :: extension) = base := by
  have hspan : (base ++ '.' :: extension).reverse.span (· != '.') =
      (extension.reverse, '.' :: base.reverse) := by
    rw [List.span_eq_takeWhile_dropWhile, List.reverse_append, List.reverse_cons,
      List.append_assoc, List.singleton_append]
    have hall : ∀ c ∈ extension.reverse, (c != '.') = true := by
      intro c hc
      simp only [bne_iff_ne, ne_eq]
      rintro rfl
      exact hdot (List.mem_reverse.1 hc)
    rw [List.takeWhile_append_of_pos hall, List.dropWhile_append_of_pos hall]
    simp
  rw [stemOf, hspan]
  simp [hbase, hne]

/-- The stem of a written file is the sanitised name. -/
theorem stem_child_ofInput (directory : Path) (format : Format) (name : String) :
    (directory.child (FileName.ofInput format name)).stem = FileName.sanitise name := by
  obtain ⟨extension, hsuffix, hne, hdot⟩ : ∃ extension,
      format.suffix.toList = '.' :: extension ∧ extension ≠ [] ∧ '.' ∉ extension := by
    cases format with
    | dump => exact ⟨"txt".toList, rfl, by decide, by decide⟩
    | json => exact ⟨"json".toList, rfl, by decide, by decide⟩
    | puml => exact ⟨"puml".toList, rfl, by decide, by decide⟩
  have hname : (directory.child (FileName.ofInput format name)).name.toList =
      (FileName.sanitise name).toList ++ '.' :: extension := by
    rw [name_child, FileName.ofInput, String.toList_append, hsuffix]
  rw [stem, hname, stemOf_append (FileName.safe_sanitise name).1 hne hdot, String.ofList_toList]

end Path

/-- The place of a name in a directory. -/
theorem FileTree.placeOf_child (tree : FileTree) (directory : Path) {name : String}
    (h : name ≠ "..") :
    tree.placeOf (directory.child name) = tree.placeOf directory ++ [name] := by
  show (directory.names ++ [name]).foldl goTo (tree.startOf directory) = _
  rw [List.foldl_append, List.foldl_cons, List.foldl_nil, goTo, if_neg h]
  rfl

/-- The place of a written file. -/
theorem FileTree.placeOf_ofInput (tree : FileTree) (directory : Path) (format : Format)
    (name : String) :
    tree.placeOf (directory.child (FileName.ofInput format name)) =
      tree.placeOf directory ++ [FileName.ofInput format name] :=
  placeOf_child tree directory (FileName.proper_ofInput format name).2.1

end ClassDiagram
