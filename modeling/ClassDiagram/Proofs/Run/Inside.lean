import ClassDiagram.Proofs.Run.Directory

/-!
# Runs stay inside their directory

A run to a directory names its files by the stems of its inputs, and a stem may be any text that can
stand in a path. Sanitising makes one safe name out of it, so every file is written directly into
the directory. `output_names_safe` says this together with what sanitising does to any name.

The proof asks what one input can do to the tree, whether it fails or not, and carries that through
the run. Nothing is supposed about the inputs, the format or the success of the run, so the files of
a run that stops early are covered too.
-/

namespace ClassDiagram

/-- A format is known by its own name only. -/
theorem Format.eq_of_ofName {name : FormatName} {format : Format}
    (h : Format.ofName name = .ok format) : name = .given format.name := by
  unfold Format.ofName at h
  split at h
  · next found hfound =>
      cases h
      have hname : FormatName.given format.name = name := by simpa using List.find?_some hfound
      exact hname.symm
  · cases h

namespace Settings

variable [Codecs] {settings : Settings} {directory : Path} (grammar : Grammar)
  (stdin : Source DecodeError)

omit [Codecs] in
/-- Delivering a rendering to a directory either has a fault and writes nothing, or it writes one
file under the sanitised name. In the tree there is no other new file. -/
theorem deliver_inside (hdestination : settings.destination = .directory directory)
    (tree : FileTree) (name : String) (format : Format) (model : Model) :
    let result := settings.deliver tree name (format.document model (some name))
    FileTree.Filled (fun place ↦ ∃ path ∈ result.written, place = tree.placeOf path) tree
        result.tree ∧
      (result.fault ≠ none ∧ result.written = [] ∨
        result.fault = none ∧
          result.written = [directory.child (FileName.ofInput format name)]) := by
  have hfilled := tree.filled_save directory (FileName.ofInput format name)
    (format.fileBytes model name)
  simp only [deliver, hdestination, save_document]
  rcases hsave : tree.save directory (FileName.ofInput format name) (format.fileBytes model name)
    with ⟨later, failure | target⟩
  · rw [hsave] at hfilled
    exact ⟨by simpa using hfilled, by simp⟩
  · have htarget : target = directory.child (FileName.ofInput format name) := by
      rw [(FileTree.save_ok hsave).1, Path.join_ofInput]
    rw [hsave] at hfilled
    exact ⟨by simpa using hfilled, by simp [htarget]⟩

/-- What one input of a run to a directory does. An input that cannot be read or has no format is a
fault too, and otherwise its rendering is delivered. -/
theorem runInput_inside (hdestination : settings.destination = .directory directory)
    (tree : FileTree) (input : Input) :
    let result := settings.runInput grammar stdin tree input
    FileTree.Filled (fun place ↦ ∃ path ∈ result.written, place = tree.placeOf path) tree
        result.tree ∧
      (result.fault ≠ none ∧ result.written = [] ∨
        result.fault = none ∧ ∃ format, Format.ofName settings.format = .ok format ∧
          result.written = [directory.child (FileName.ofInput format input.name)]) := by
  have hrefused : FileTree.Filled (fun place ↦ ∃ path ∈ ([] : List Path),
      place = tree.placeOf path) tree tree := by
    simpa using FileTree.Filled.refl tree
  dsimp only
  rcases hread : settings.readInput grammar stdin tree input with ⟨fault | model, events⟩
  · rw [runInput_error hread]
    exact ⟨hrefused, by simp⟩
  · cases hformat : Format.ofName settings.format with
    | error fault =>
        simp only [runInput, hread, hformat]
        exact ⟨hrefused, by simp⟩
    | ok format =>
        obtain ⟨hfilled, hwritten⟩ := deliver_inside hdestination tree input.name format model
        simp only [runInput, hread, hformat]
        refine ⟨hfilled, hwritten.imp_right ?_⟩
        rintro ⟨hfault, hpaths⟩
        exact ⟨hfault, format, rfl, hpaths⟩

/-- What a run to a directory does, wherever it stops. The files that it writes are those of its
first inputs, and of all of them if it has no fault. In the tree there is no other new file. -/
theorem runInputs_inside (hdestination : settings.destination = .directory directory)
    {format : Format}
    (hformat : ∀ found, Format.ofName settings.format = .ok found → found = format)
    (tree : FileTree) (inputs : List Input) :
    let result := settings.runInputs grammar stdin tree inputs
    FileTree.Filled (fun place ↦ ∃ path ∈ result.written, place = tree.placeOf path) tree
        result.tree ∧
      result.written = (inputs.take result.written.length).map (fun input ↦
        directory.child (FileName.ofInput format input.name)) ∧
      (result.fault = none ↔ result.written.length = inputs.length) ∧
      (Format.ofName settings.format = .ok format ∨ result.written = []) := by
  dsimp only
  induction inputs generalizing tree with
  | nil => exact ⟨by simpa [runInputs] using FileTree.Filled.refl tree, by simp [runInputs]⟩
  | cons input rest ih =>
      have hinside := runInput_inside grammar stdin hdestination tree input
      obtain ⟨hfirst, ⟨hfault, hnone⟩ | ⟨hfault, found, hfound, hwritten⟩⟩ := hinside
      · -- the run ends here
        have hlast : settings.runInputs grammar stdin tree (input :: rest) =
            settings.runInput grammar stdin tree input := by
          rw [runInputs]
          split
          · rfl
          · next hok => exact absurd hok hfault
        rw [hlast]
        exact ⟨hfirst, by simp [hnone], by simp [hnone, hfault], Or.inr hnone⟩
      · -- the run goes on in the tree that this input leaves
        obtain rfl := hformat found hfound
        obtain ⟨hothers, htake, hdone, -⟩ := ih (settings.runInput grammar stdin tree input).tree
        rw [runInputs, hfault]
        dsimp only
        -- what follows looks up its places in that tree, but they are the same as in this one
        refine ⟨hfirst.trans hothers fun place ↦ ?_, ?_, ?_, Or.inl hfound⟩
        · simp only [List.mem_append, or_and_right, exists_or,
            FileTree.placeOf_congr hfirst.workingDirectory]
        · rw [hwritten, List.singleton_append, List.length_cons, List.take_succ_cons, List.map_cons,
            ← htake]
        · rw [hdone, hwritten, List.singleton_append, List.length_cons, List.length_cons,
            Nat.add_right_cancel_iff]

end Settings

open Scan

/-- Sanitising and the names of written files. A sanitised name is not empty, has portable
characters only, and is sanitised; the names that sanitising leaves as they are are exactly those
that are not empty and have portable characters only. So a run to a directory, whatever its inputs
are, writes every file directly into the directory: its name is the sanitised name of its input and
the suffix of the format, which is neither of the two names with dots only and has no slash. There
is one file for each input, unless the run has a fault and stops before. Nothing else changes in the
tree, except that directories may be made where nothing stood. -/
theorem output_names_safe [Codecs] :
    (∀ name : String,
      FileName.sanitise name ≠ "" ∧ (∀ c ∈ (FileName.sanitise name).toList, FileName.IsPortable c) ∧
      FileName.sanitise (FileName.sanitise name) = FileName.sanitise name ∧
      (FileName.sanitise name = name ↔ name ≠ "" ∧ ∀ c ∈ name.toList, FileName.IsPortable c)) ∧
    ∀ (settings : Settings) (grammar : Grammar) (stdin : Source DecodeError) (tree : FileTree)
      (directory : Path), settings.destination = .directory directory →
      let result := settings.run grammar stdin tree
      (result.fault = none ↔ result.written.length = settings.sources.length) ∧
      (∃ format : Format, (settings.format = .given format.name ∨ result.written = []) ∧
        result.written.map Path.name = (settings.sources.take result.written.length).map fun input ↦
          FileName.sanitise input.name ++ format.suffix) ∧
      (∀ path ∈ result.written, path.parent = directory ∧
        path.name ≠ "." ∧ path.name ≠ ".." ∧ '/' ∉ path.name.toList ∧
        tree.placeOf path = tree.placeOf directory ++ [path.name] ∧
        ∃ bytes, result.tree.node? (tree.placeOf path) = some (.file bytes)) ∧
      ∀ place, (∀ path ∈ result.written, place ≠ tree.placeOf path) →
        result.tree.node? place = tree.node? place ∨
          tree.node? place = none ∧ result.tree.node? place = some .directory := by
  constructor
  · intro name
    obtain ⟨hne, hsafe⟩ := FileName.safe_sanitise name
    refine ⟨by simpa using hne, fun c hc ↦ FileName.isSafe_iff.1 (hsafe c hc),
      FileName.sanitise_sanitise name, ?_⟩
    rw [FileName.sanitise_eq_self_iff, RunOf, OnlyOf]
    simp only [FileName.isSafe_iff, ne_eq, String.toList_eq_nil_iff]
  · intro settings grammar stdin tree directory hdestination result
    obtain ⟨format, hformat⟩ : ∃ format, ∀ found,
        Format.ofName settings.format = .ok found → found = format := by
      cases hname : Format.ofName settings.format with
      | ok format => exact ⟨format, fun found hfound ↦ (Except.ok.inj hfound).symm⟩
      | error fault => exact ⟨.dump, fun found hfound ↦ by cases hfound⟩
    obtain ⟨hfilled, hwritten, hdone, hknown⟩ :=
      Settings.runInputs_inside grammar stdin hdestination hformat tree settings.sources
    have hrun : settings.runInputs grammar stdin tree settings.sources = result := rfl
    rw [hrun] at hfilled hwritten hdone hknown
    refine ⟨hdone, ⟨format, hknown.imp_left Format.eq_of_ofName, ?_⟩, ?_, ?_⟩
    · have hnames := congrArg (List.map Path.name) hwritten
      simp only [List.map_map, Function.comp_def, Path.name_child] at hnames
      exact hnames
    · intro path hpath
      have hfile := hfilled.file (tree.placeOf path) ⟨path, hpath, rfl⟩
      rw [hwritten] at hpath
      obtain ⟨input, -, rfl⟩ := List.mem_map.1 hpath
      obtain ⟨hdot, hdots, hslash⟩ := FileName.proper_ofInput format input.name
      rw [Path.parent_child, Path.name_child]
      exact ⟨rfl, hdot, hdots, hslash, FileTree.placeOf_ofInput tree directory format input.name,
        hfile⟩
    · intro place hplace
      refine hfilled.rest place ?_
      rintro ⟨path, hpath, heq⟩
      exact hplace path hpath heq

/-- The sanitised stem of the first input would lead to the parent directory by itself, and the
second input is missing. -/
theorem output_names_safe_dots :
    let tree : FileTree :=
      { nodes := ⟨[([".. .puml"], .file ("class A".toList.flatMap Utf8.encode))]⟩ }
    let settings : Settings :=
      { inputs := [{ names := [".. .puml"] }, { names := ["b.puml"] }]
        destination := .directory { names := ["out"] } }
    let result := settings.run Grammar.standard ⟨[], .finished⟩ tree
    FileName.sanitise ".. " = ".." ∧ FileName.IsPortable '.' ∧
      result.written = [{ names := ["out", "...txt"] }] ∧ result.fault ≠ none ∧
      ({ names := ["out", "...txt"] } : Path).parent = { names := ["out"] } ∧
      (∃ bytes, result.tree.node? ["out", "...txt"] = some (.file bytes)) ∧
      (result.tree.node? ["...txt"] = none ∨ result.tree.node? ["...txt"] = some .directory) := by
  intro tree settings result
  obtain ⟨hnames, hruns⟩ := output_names_safe
  obtain ⟨hdone, -, hpaths, hrest⟩ := hruns settings Grammar.standard ⟨[], .finished⟩ tree
    { names := ["out"] } rfl
  have hname : FileName.sanitise ".. " = ".." := by decide +kernel
  have hwritten : result.written = [{ names := ["out", "...txt"] }] := by decide +kernel
  have hportable : FileName.IsPortable '.' := (hnames ".. ").2.1 '.' (by simp [hname])
  obtain ⟨hparent, -, -, -, -, hfile⟩ :=
    hpaths { names := ["out", "...txt"] } (by rw [hwritten]; exact List.mem_singleton_self _)
  have hfault : result.fault ≠ none := by
    rw [ne_eq, hdone, hwritten]
    decide
  have houtside : result.tree.node? ["...txt"] = none ∨
      result.tree.node? ["...txt"] = some .directory := by
    have hother : ∀ path ∈ result.written, ["...txt"] ≠ tree.placeOf path := by
      rw [hwritten]
      decide
    have hfree : tree.node? ["...txt"] = none := by decide
    rcases hrest ["...txt"] hother with hsame | ⟨_, hmade⟩
    · exact Or.inl (hsame.trans hfree)
    · exact Or.inr hmade
  exact ⟨hname, hportable, hwritten, hfault, hparent, hfile, houtside⟩

end ClassDiagram
