import ClassDiagram.Proofs.Files.FileName
import ClassDiagram.Proofs.Run.Output

/-!
# Runs to a directory

A run to a directory saves the rendering of each input under the sanitised stem of the input. So
inputs whose sanitised stems are the same share one file, and only the last of them is kept in it.
`renderings_kept_iff` says that all renderings are kept exactly if no two sanitised stems are the
same.

The proof follows the tree from input to input. What is saved for one input touches no other file of
the directory and nothing outside it, so the inputs that are still to come read as they did at the
start, and so do the renderings that are already there.
-/

namespace ClassDiagram

/-! ## Reading inputs -/

/-- A file that can be opened is there, and the name of its encoding is known. -/
theorem openFile_ok [Codecs] {tree : FileTree} {path : Path} {name : String}
    {source : Source DecodeError} (h : openFile tree path name = .ok source) :
    ∃ bytes codec, tree.read path = .ok bytes ∧ Codec.ofName name = .ok codec ∧
      source = codec.source bytes := by
  unfold openFile at h
  split at h
  · cases h
  · split at h
    · cases h
    · cases h
    · next bytes hbytes =>
        split at h
        · cases h
        · next codec hcodec =>
            cases h
            exact ⟨bytes, codec, hbytes, hcodec, rfl⟩

namespace Settings

variable [Codecs] {settings : Settings} {grammar : Grammar} {stdin : Source DecodeError}
  {tree later : FileTree} {path : Path}

/-- An input file that can be read has bytes. -/
theorem read_of_readInput {model : Model}
    (h : (settings.readInput grammar stdin tree (.file path)).1 = .ok model) :
    ∃ bytes, tree.read path = .ok bytes := by
  cases hencoding : settings.encoding with
  | none =>
      simp only [readInput, hencoding] at h
      cases h
  | some name =>
      simp only [readInput, hencoding] at h
      cases hopen : openFile tree path name with
      | error fault =>
          rw [loadFile, hopen] at h
          cases h
      | ok source =>
          obtain ⟨bytes, _, hbytes, _⟩ := openFile_ok hopen
          exact ⟨bytes, hbytes⟩

/-- What comes of reading an input file depends on its bytes alone. -/
theorem readInput_congr (h : later.read path = tree.read path) :
    settings.readInput grammar stdin later (.file path) =
      settings.readInput grammar stdin tree (.file path) := by
  have hopen : ∀ name, openFile later path name = openFile tree path name := by
    intro name
    unfold openFile
    rw [h]
  simp only [readInput, loadFile, hopen]

/-- An input that is not touched is read as before. -/
theorem readInput_of_keeps {touched : Place → Prop} {model : Model}
    (hkeeps : FileTree.Keeps touched tree later) (htouched : ¬ touched (tree.placeOf path))
    (h : (settings.readInput grammar stdin tree (.file path)).1 = .ok model) :
    (settings.readInput grammar stdin later (.file path)).1 = .ok model := by
  obtain ⟨bytes, hbytes⟩ := read_of_readInput h
  rw [readInput_congr ((hkeeps.read hbytes htouched).trans hbytes.symm), h]

end Settings

/-! ## Handling one input -/

/-- The bytes of the rendering of a model in a file. -/
def Format.fileBytes (format : Format) (model : Model) (title : String) : List UInt8 :=
  (format.document model (some title)).text.toList.flatMap Utf8.encode

/-- A rendering is saved under the sanitised stem of its input. -/
theorem save_document (format : Format) (model : Model) (stem : String) (tree : FileTree)
    (directory : Path) :
    (format.document model (some stem)).save tree directory (FileName.sanitise stem) =
      tree.save directory (FileName.ofInput format stem) (format.fileBytes model stem) := by
  rw [Document.save, suffix_document]
  rfl

namespace Settings

variable [Codecs] {settings : Settings} {grammar : Grammar} {stdin : Source DecodeError}
  {tree later : FileTree} {path directory : Path} {format : Format}
  (hdestination : settings.destination = .directory directory)
  (hformat : settings.format = .given format.name)
include hdestination hformat

/-- An input that can be read is saved, if its file can be. -/
theorem runInput_saved {model : Model} {events : List Event} {target : Path}
    (hread : settings.readInput grammar stdin tree (.file path) = (.ok model, events))
    (hsave : tree.save directory (FileName.ofInput format path.stem)
      (format.fileBytes model path.stem) = (later, .ok target)) :
    settings.runInput grammar stdin tree (.file path) =
      { tree := later
        events := events ++ settings.warnings path.stem model ++ [.wrote target]
        written := [target] } := by
  simp [runInput, hread, hformat, Format.ofName_name, deliver, hdestination, save_document, hsave,
    Input.name]

/-- An input that was handled without a fault was read and saved. -/
theorem exists_saved
    (h : (settings.runInput grammar stdin tree (.file path)).fault = none) :
    ∃ model events later,
      settings.readInput grammar stdin tree (.file path) = (.ok model, events) ∧
      tree.save directory (FileName.ofInput format path.stem) (format.fileBytes model path.stem) =
        (later, .ok (directory.child (FileName.ofInput format path.stem))) := by
  rcases hread : settings.readInput grammar stdin tree (.file path) with ⟨fault | model, events⟩
  · rw [runInput_error hread] at h
    cases h
  · rcases hsave : tree.save directory (FileName.ofInput format path.stem)
      (format.fileBytes model path.stem) with ⟨later, failure | target⟩
    · simp [runInput, hread, hformat, Format.ofName_name, deliver, hdestination, save_document,
        hsave, Input.name] at h
    · have htarget : target = directory.child (FileName.ofInput format path.stem) := by
        rw [(FileTree.save_ok hsave).1, Path.join_ofInput]
      exact ⟨model, events, later, rfl, htarget ▸ hsave⟩

/-! ## Handling all inputs -/

omit hdestination hformat in
/-- A run that has no fault has none on its first input, and goes on from there. -/
theorem runInputs_cons_done {input : Input} {rest : List Input}
    (h : (settings.runInputs grammar stdin tree (input :: rest)).fault = none) :
    let first := settings.runInput grammar stdin tree input
    let others := settings.runInputs grammar stdin first.tree rest
    let result := settings.runInputs grammar stdin tree (input :: rest)
    first.fault = none ∧ others.fault = none ∧ result.written = first.written ++ others.written ∧
      result.tree = others.tree := by
  rw [runInputs] at h ⊢
  cases hfault : (settings.runInput grammar stdin tree input).fault with
  | some fault => simp [hfault] at h
  | none => simpa [hfault] using h

/-- A run to a directory that has no fault, on inputs outside the directory that could all be read
at the start. It touches the files of the inputs in the directory and nothing else, and what it
saves for an input is kept unless a later input has the same sanitised stem. -/
theorem runInputs_directory {paths : List Path} {model : Path → Model}
    (hread : ∀ path ∈ paths,
      (settings.readInput grammar stdin tree (.file path)).1 = .ok (model path))
    (houtside : ∀ path ∈ paths, ¬ tree.placeOf directory <+: tree.placeOf path)
    (hdone : (settings.runInputs grammar stdin tree (paths.map .file)).fault = none) :
    let result := settings.runInputs grammar stdin tree (paths.map .file)
    result.written = paths.map (fun path ↦ directory.child (FileName.ofInput format path.stem)) ∧
      FileTree.Keeps (fun place ↦ ∃ path ∈ paths,
        place = tree.placeOf directory ++ [FileName.ofInput format path.stem]) tree result.tree ∧
      ∀ done path rest, paths = done ++ path :: rest →
        (∀ other ∈ rest, FileName.sanitise other.stem ≠ FileName.sanitise path.stem) →
        result.tree.read (directory.child (FileName.ofInput format path.stem)) =
          .ok (format.fileBytes (model path) path.stem) := by
  dsimp only
  induction paths generalizing tree with
  | nil => exact ⟨rfl, .refl tree, by simp⟩
  | cons first others ih =>
      obtain ⟨hfirst, hrest, hwritten, htree⟩ := runInputs_cons_done hdone
      obtain ⟨found, events, later, hfound, hsave⟩ := exists_saved hdestination hformat hfirst
      have hmodel : model first = found := by
        have hok := hread first List.mem_cons_self
        rw [hfound] at hok
        exact (Except.ok.inj hok).symm
      rw [runInput_saved hdestination hformat hfound hsave] at hrest hwritten htree
      dsimp only at hrest hwritten htree
      rw [List.map_cons, hwritten, htree]
      obtain ⟨-, hkeeps, hsaved⟩ := FileTree.save_ok hsave
      rw [FileTree.placeOf_ofInput] at hkeeps
      -- the inputs that are still to come are read as before, and stand outside as before
      have hothers : ∀ path ∈ others,
          (settings.readInput grammar stdin later (.file path)).1 = .ok (model path) := by
        intro path hpath
        refine readInput_of_keeps hkeeps ?_ (hread path (List.mem_cons_of_mem _ hpath))
        intro hplace
        exact houtside path (List.mem_cons_of_mem _ hpath) (hplace ▸ List.prefix_append _ _)
      have houtside' : ∀ path ∈ others, ¬ later.placeOf directory <+: later.placeOf path := by
        intro path hpath
        rw [hkeeps.placeOf, hkeeps.placeOf]
        exact houtside path (List.mem_cons_of_mem _ hpath)
      obtain ⟨hwritten', hlater, hkept⟩ := ih hothers houtside' hrest
      rw [hkeeps.placeOf] at hlater
      refine ⟨by rw [hwritten']; rfl, ?_, ?_⟩
      · have hall : FileTree.Keeps (fun place ↦ ∃ path ∈ first :: others,
            place = tree.placeOf directory ++ [FileName.ofInput format path.stem]) tree later :=
          hkeeps.mono fun place hplace ↦ ⟨first, List.mem_cons_self, hplace⟩
        refine hall.trans (hlater.mono ?_)
        rintro place ⟨path, hpath, hplace⟩
        exact ⟨path, List.mem_cons_of_mem _ hpath, hplace⟩
      · intro done path rest hpaths hrest
        cases done with
        | nil =>
            -- the file of the first input is not touched by those behind it
            obtain ⟨rfl, rfl⟩ := List.cons.inj hpaths
            rw [hmodel]
            refine hlater.read hsaved ?_
            rw [hkeeps.placeOf, FileTree.placeOf_ofInput]
            rintro ⟨other, hother, hplace⟩
            have hname : FileName.ofInput format first.stem =
                FileName.ofInput format other.stem := by
              simpa using hplace
            exact hrest other hother (FileName.ofInput_inj.1 hname).symm
        | cons head done =>
            obtain ⟨rfl, htail⟩ := List.cons.inj hpaths
            exact hkept done path rest htail hrest

end Settings

/-- A run to a directory that has no fault, on files outside the directory that could all be read at
the start, in a format that there is. It gives one path for each input: that of its sanitised stem
in the directory. What can be read there after the run is the rendering of the last input with that
sanitised stem. So the paths are different and hold the renderings of their own inputs exactly if no
two inputs have the same sanitised stem. -/
theorem renderings_kept_iff [Codecs] (settings : Settings) (grammar : Grammar)
    (stdin : Source DecodeError) (tree : FileTree) (format : Format) (directory : Path)
    (model : Path → Model) (hinputs : settings.inputs ≠ [])
    (hdestination : settings.destination = .directory directory)
    (hformat : settings.format = .given format.name)
    (hread : ∀ path ∈ settings.inputs,
      (settings.readInput grammar stdin tree (.file path)).1 = .ok (model path))
    (houtside : ∀ path ∈ settings.inputs, ¬ tree.placeOf directory <+: tree.placeOf path)
    (hdone : (settings.run grammar stdin tree).fault = none) :
    let result := settings.run grammar stdin tree
    let target := fun path : Path ↦
      directory.child (FileName.sanitise path.stem ++ format.suffix)
    let kept := fun path ↦ result.tree.read (target path) =
      .ok ((format.document (model path) (some path.stem)).text.toList.flatMap Utf8.encode)
    result.written = settings.inputs.map target ∧
      (∀ done path rest, settings.inputs = done ++ path :: rest →
        (∀ other ∈ rest, FileName.sanitise other.stem ≠ FileName.sanitise path.stem) →
          kept path) ∧
      ((result.written.Nodup ∧ ∀ path ∈ settings.inputs, kept path) ↔
        (settings.inputs.map fun path ↦ FileName.sanitise path.stem).Nodup) := by
  intro result target kept
  have hrun : result = settings.runInputs grammar stdin tree (settings.inputs.map .file) :=
    Settings.run_eq hinputs
  obtain ⟨hwritten, -, hkept⟩ := Settings.runInputs_directory hdestination hformat hread houtside
    (hrun ▸ hdone)
  rw [← hrun] at hwritten hkept
  -- the paths differ exactly where the sanitised stems do
  have hpaths : result.written.Nodup ↔
      (settings.inputs.map fun path ↦ FileName.sanitise path.stem).Nodup := by
    have htargets : result.written = (settings.inputs.map fun path ↦
        FileName.sanitise path.stem).map fun name ↦ directory.child (name ++ format.suffix) := by
      rw [hwritten, List.map_map]
      rfl
    have hinjective : Function.Injective fun name ↦ directory.child (name ++ format.suffix) := by
      intro name other heq
      exact String.append_left_inj _ |>.1 (Path.child_inj.1 heq)
    rw [htargets, List.nodup_map_iff hinjective]
  refine ⟨hwritten, hkept, ?_⟩
  constructor
  · intro h
    exact hpaths.1 h.1
  · intro h
    refine ⟨hpaths.2 h, ?_⟩
    intro path hpath
    obtain ⟨done, rest, hsplit⟩ := List.append_of_mem hpath
    refine hkept done path rest hsplit ?_
    intro other hother heq
    rw [hsplit, List.map_append, List.map_cons, List.nodup_append] at h
    exact (List.nodup_cons.1 h.2.1).1 (heq ▸ List.mem_map_of_mem hother)

/-- Two inputs with different stems, one of which is changed by sanitising. -/
theorem renderings_kept_iff_apart :
    let tree : FileTree :=
      { nodes := ⟨[(["x y.puml"], .file ("A -- B".toList.flatMap Utf8.encode)),
        (["z.puml"], .file ("class C".toList.flatMap Utf8.encode))]⟩ }
    let settings : Settings :=
      { inputs := [{ names := ["x y.puml"] }, { names := ["z.puml"] }]
        destination := .directory { names := ["out"] } }
    let result := settings.run Grammar.standard ⟨[], .finished⟩ tree
    result.written = [{ names := ["out", "x_y.txt"] }, { names := ["out", "z.txt"] }] ∧
      result.tree.read { names := ["out", "x_y.txt"] } = .ok
        ("Entities:\nRelationships:\n - A \"\" -- \"\" B : \nConstraints:\n".toList.flatMap
          Utf8.encode) := by
  intro tree settings result
  let model : Path → Model := fun path ↦
    if path.stem = "z" then { entities := ⟨[("C", ⟨"C", [], []⟩)]⟩ }
    else { relationships := [⟨"A", "B", "--", "", "", ""⟩] }
  have hread : ∀ path ∈ settings.inputs,
      (settings.readInput Grammar.standard ⟨[], .finished⟩ tree (.file path)).1 =
        .ok (model path) := by
    decide +kernel
  have houtside : ∀ path ∈ settings.inputs,
      ¬ tree.placeOf { names := ["out"] } <+: tree.placeOf path := by
    decide
  have hdone : result.fault = none := by decide +kernel
  obtain ⟨hwritten, -, hkept⟩ := renderings_kept_iff settings Grammar.standard ⟨[], .finished⟩ tree
    .dump { names := ["out"] } model (by simp [settings]) rfl rfl hread houtside hdone
  refine ⟨hwritten.trans (by decide +kernel), ?_⟩
  have hfirst := (hkept.2 (by decide +kernel)).2 { names := ["x y.puml"] } List.mem_cons_self
  have hpath : ({ names := ["out"] } : Path).child (FileName.sanitise
      ({ names := ["x y.puml"] } : Path).stem ++ Format.dump.suffix) =
        { names := ["out", "x_y.txt"] } := by
    decide +kernel
  dsimp only at hfirst
  rw [hpath] at hfirst
  exact hfirst.trans (by decide +kernel)

/-- Two different inputs with the same stem share one file, and the rendering of the first is
lost. -/
theorem same_stem_overwrites :
    ∃ (settings : Settings) (tree : FileTree) (model : Path → Model) (directory target : Path),
      settings.inputs.Nodup ∧ settings.destination = .directory directory ∧
      settings.format = .given Format.dump.name ∧
      (∀ path ∈ settings.inputs,
        (settings.readInput Grammar.standard ⟨[], .finished⟩ tree (.file path)).1 =
          .ok (model path) ∧ ¬ tree.placeOf directory <+: tree.placeOf path) ∧
      (settings.run Grammar.standard ⟨[], .finished⟩ tree).fault = none ∧
      (settings.run Grammar.standard ⟨[], .finished⟩ tree).written = [target, target] ∧
      ∃ path ∈ settings.inputs,
        (settings.run Grammar.standard ⟨[], .finished⟩ tree).tree.read target ≠
          .ok ((Format.dump.document (model path) (some path.stem)).text.toList.flatMap
            Utf8.encode) := by
  let first : Path := { names := ["a", "x.puml"] }
  let second : Path := { names := ["b", "x.puml"] }
  refine ⟨{ inputs := [first, second], destination := .directory { names := ["out"] } },
    { nodes := ⟨[(["a"], .directory), (["b"], .directory),
      (["a", "x.puml"], .file ("class A \x7b\n\x7d\n".toList.flatMap Utf8.encode)),
      (["b", "x.puml"], .file ("class B \x7b\n\x7d\n".toList.flatMap Utf8.encode))]⟩ },
    fun path ↦ if path = first then { entities := ⟨[("A", ⟨"A", [], []⟩)]⟩ }
      else { entities := ⟨[("B", ⟨"B", [], []⟩)]⟩ },
    { names := ["out"] }, { names := ["out", "x.txt"] }, ?_⟩
  decide +kernel

end ClassDiagram
