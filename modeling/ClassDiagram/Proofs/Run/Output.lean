import ClassDiagram.Run
import Mathlib.Data.List.TakeWhile

/-!
# Runs to the output text

A run that writes to the output text leaves the files alone, so what comes of one input does not
depend on the others. `Settings.runInputs_output` gives the result of such a run in one equation:
the renderings and the events of all inputs before the first that cannot be read, the events of that
one, and its fault. What a run on two lists of inputs writes is then a matter of where the first
failure stands.
-/

namespace ClassDiagram

/-- A format is found by its name. -/
theorem Format.ofName_name (format : Format) : Format.ofName (.given format.name) = .ok format := by
  cases format <;> rfl

/-- What went wrong when an input was read. -/
def faultOf (result : ReadResult) : Option RunFault :=
  match result.1 with
  | .error fault => some fault
  | .ok _ => none

/-- A computation succeeds exactly if it has a result. -/
theorem isOk_iff {ε α : Type} {computation : Except ε α} :
    computation.isOk = true ↔ ∃ result, computation = .ok result := by
  cases computation <;> simp [Except.isOk, Except.toBool]

/-- Either all inputs can be read, or there is a first that cannot, with its fault. -/
theorem stop_cases (read : Path → ReadResult) (paths : List Path) :
    let stop := paths.findIdx fun path ↦ !(read path).1.isOk
    (stop = paths.length ∧ (paths[stop]?.bind fun path ↦ faultOf (read path)) = none) ∨
      ∃ path fault, paths[stop]? = some path ∧ (read path).1 = .error fault ∧
        (paths[stop]?.bind fun path ↦ faultOf (read path)) = some fault := by
  intro stop
  rcases Nat.lt_or_ge stop paths.length with hlt | hge
  · have hget : paths[stop]? = some paths[stop] := List.getElem?_eq_getElem hlt
    have hfails := List.findIdx_of_getElem?_eq_some hget
    cases hread : (read paths[stop]).1 with
    | ok found =>
        rw [hread] at hfails
        cases hfails
    | error fault =>
        refine Or.inr ⟨_, fault, hget, hread, ?_⟩
        rw [hget]
        simp [faultOf, hread]
  · refine Or.inl ⟨Nat.le_antisymm List.findIdx_le_length hge, ?_⟩
    rw [List.getElem?_eq_none hge]
    rfl

namespace Settings

variable [Codecs] {settings : Settings} {grammar : Grammar} {stdin : Source DecodeError}
  {tree : FileTree}

/-- A run with files to read handles these files. -/
theorem run_eq (h : settings.inputs ≠ []) :
    settings.run grammar stdin tree =
      settings.runInputs grammar stdin tree (settings.inputs.map .file) := by
  rw [run, sources, if_neg h]

section Output

variable {format : Format} (hdestination : settings.destination = .output)
  (hformat : settings.format = .given format.name)
include hdestination hformat

/-- An input that can be read adds its rendering to the output text. -/
theorem runInput_output_ok {path : Path} {model : Model} {events : List Event}
    (h : settings.readInput grammar stdin tree (.file path) = (.ok model, events)) :
    settings.runInput grammar stdin tree (.file path) =
      { tree, output := (format.document model (some path.stem)).text,
        events := events ++ settings.warnings path.stem model } := by
  unfold runInput
  simp [h, hformat, Format.ofName_name, deliver, hdestination, Input.name]

omit hdestination hformat in
/-- An input that cannot be read ends the run. -/
theorem runInput_error {input : Input} {fault : RunFault} {events : List Event}
    (h : settings.readInput grammar stdin tree input = (.error fault, events)) :
    settings.runInput grammar stdin tree input = { tree, events, fault := some fault } := by
  unfold runInput
  rw [h]

/-- The result of a run to the output text. It stops at the first input that cannot be read. -/
theorem runInputs_output {model : Path → Model}
    (hmodel : ∀ path found, (settings.readInput grammar stdin tree (.file path)).1 = .ok found →
      model path = found) (paths : List Path) :
    let read := fun path ↦ settings.readInput grammar stdin tree (.file path)
    let stop := paths.findIdx fun path ↦ !(read path).1.isOk
    settings.runInputs grammar stdin tree (paths.map .file) =
      { tree
        output := String.join ((paths.take stop).map fun path ↦
          (format.document (model path) (some path.stem)).text)
        events := (paths.take stop).flatMap (fun path ↦
          (read path).2 ++ settings.warnings path.stem (model path)) ++
            paths[stop]?.toList.flatMap fun path ↦ (read path).2
        fault := paths[stop]?.bind fun path ↦ faultOf (read path) } := by
  dsimp only
  induction paths with
  | nil => rfl
  | cons path rest ih =>
      rw [List.map_cons, runInputs, List.findIdx_cons]
      rcases hread : settings.readInput grammar stdin tree (.file path) with ⟨found | found, events⟩
      · rw [runInput_error hread]
        simp [hread, Except.isOk, Except.toBool, faultOf, String.join]
      · have hfound : model path = found := hmodel path found (by rw [hread])
        rw [runInput_output_ok hdestination hformat hread, ih]
        simp [hread, Except.isOk, Except.toBool, hfound, String.join_cons]

/-- The output text of a run on some other inputs. -/
theorem output_run_on {model : Path → Model}
    (hmodel : ∀ path found, (settings.readInput grammar stdin tree (.file path)).1 = .ok found →
      model path = found) {paths : List Path} (hpaths : paths ≠ []) :
    ({ settings with inputs := paths }.run grammar stdin tree).output =
      String.join ((paths.take (paths.findIdx fun path ↦
        !(settings.readInput grammar stdin tree (.file path)).1.isOk)).map fun path ↦
          (format.document (model path) (some path.stem)).text) := by
  let other : Settings := { settings with inputs := paths }
  have hother : other.destination = .output := hdestination
  rw [run_eq hpaths]
  exact congrArg RunResult.output (runInputs_output hother hformat hmodel paths)

end Output

end Settings

/-- A run on files that writes to the output text, in a format that there is. Up to the first input
that cannot be read, the output text consists of the renderings of the inputs in order, each with
its stem as the title, and nothing is written for that input or any behind it. The events are those
of the inputs up to that one, and behind those of each input that was read come its undeclared
names, if they are asked for. The run ends with the fault of that input, or else without one. No
file is written. So where all inputs can be read and others follow them, the output text of the
others follows too. -/
theorem output_run_up_to_fault [Codecs] (settings : Settings) (grammar : Grammar)
    (stdin : Source DecodeError) (tree : FileTree) (format : Format)
    (hinputs : settings.inputs ≠ []) (hdestination : settings.destination = .output)
    (hformat : settings.format = .given format.name) :
    let read := fun path ↦ settings.readInput grammar stdin tree (.file path)
    let stop := settings.inputs.findIdx fun path ↦ !(read path).1.isOk
    let result := settings.run grammar stdin tree
    (∃ model : Path → Model,
      (∀ path ∈ settings.inputs.take stop, (read path).1 = .ok (model path)) ∧
      result.output = String.join ((settings.inputs.take stop).map fun path ↦
        (format.document (model path) (some path.stem)).text) ∧
      result.events = (settings.inputs.take stop).flatMap (fun path ↦
        (read path).2 ++ if settings.checkReferences then
          (model path).dangling.map (.undeclared path.stem) else []) ++
            settings.inputs[stop]?.toList.flatMap fun path ↦ (read path).2) ∧
    (stop = settings.inputs.length ∧ result.fault = none ∨
      ∃ path fault, settings.inputs[stop]? = some path ∧ (read path).1 = .error fault ∧
        result.fault = some fault) ∧
    result.written = [] ∧ result.tree = tree ∧
    ∀ others : List Path, others ≠ [] → (∀ path ∈ settings.inputs, (read path).1.isOk) →
      ({ settings with inputs := settings.inputs ++ others }.run grammar stdin tree).output =
        result.output ++ ({ settings with inputs := others }.run grammar stdin tree).output := by
  intro read stop result
  let model : Path → Model := fun path ↦
    match (read path).1 with
    | .ok model => model
    | .error _ => {}
  have hmodel : ∀ path found, (read path).1 = .ok found → model path = found := by
    intro path found hfound
    simp only [model, hfound]
  have hresult := Settings.runInputs_output hdestination hformat hmodel settings.inputs
  rw [← Settings.run_eq hinputs] at hresult
  have hfault : result.fault = settings.inputs[stop]?.bind fun path ↦ faultOf (read path) :=
    congrArg RunResult.fault hresult
  refine ⟨⟨model, ?_, congrArg RunResult.output hresult, congrArg RunResult.events hresult⟩, ?_,
    congrArg RunResult.written hresult, congrArg RunResult.tree hresult, ?_⟩
  · -- an input before the first that fails does not fail
    intro path hpath
    rw [← List.takeWhile_eq_take_findIdx_not] at hpath
    have hok := List.mem_takeWhile_imp hpath
    obtain ⟨found, hfound⟩ := isOk_iff.1 hok
    rw [hfound, hmodel path found hfound]
  · rw [hfault]
    exact stop_cases read settings.inputs
  · intro others hothers hok
    have hstop : stop = settings.inputs.length :=
      List.findIdx_eq_length.2 fun path hpath ↦ by simp [hok path hpath]
    have hboth : (settings.inputs ++ others).findIdx (fun path ↦ !(read path).1.isOk) =
        settings.inputs.length + others.findIdx fun path ↦ !(read path).1.isOk := by
      rw [List.findIdx_append, if_neg (Nat.not_lt.2 (Nat.le_of_eq hstop.symm)), Nat.add_comm]
    rw [Settings.output_run_on hdestination hformat hmodel
        (List.append_ne_nil_of_left_ne_nil hinputs others),
      Settings.output_run_on hdestination hformat hmodel hothers, hboth,
      List.take_length_add_append, List.map_append, String.join_append]
    show _ = (settings.run grammar stdin tree).output ++ _
    rw [hresult]
    show _ = String.join ((settings.inputs.take stop).map _) ++ _
    rw [hstop, List.take_length]

/-- The second of three inputs is missing, so the third is not read. -/
theorem output_run_up_to_fault_missing :
    let tree : FileTree :=
      { nodes := ⟨[(["a.puml"], .file ("A -- B".toList.flatMap Utf8.encode)),
        (["c.puml"], .file ("class C".toList.flatMap Utf8.encode))]⟩ }
    let settings : Settings :=
      { inputs := [{ names := ["a.puml"] }], format := .given "puml", checkReferences := true }
    let others : List Path := [{ names := ["b.puml"] }, { names := ["c.puml"] }]
    let both := { settings with inputs := settings.inputs ++ others }.run Grammar.standard
      ⟨[], .finished⟩ tree
    both.output = (settings.run Grammar.standard ⟨[], .finished⟩ tree).output ++
        ({ settings with inputs := others }.run Grammar.standard ⟨[], .finished⟩ tree).output ∧
      both.output = "@startuml\ntitle \"a\"\nA -- B\n@enduml\n" ∧
      both.events = [.parsed { names := ["a.puml"] } 0 1 0, .undeclared "a" "A",
        .undeclared "a" "B"] ∧
      both.fault = some (.cannotOpen { names := ["b.puml"] } .missing) := by
  intro tree settings others both
  have hread : ∀ path ∈ settings.inputs,
      (settings.readInput Grammar.standard ⟨[], .finished⟩ tree (.file path)).1.isOk := by
    decide +kernel
  obtain ⟨-, -, -, -, hothers⟩ := output_run_up_to_fault settings Grammar.standard ⟨[], .finished⟩
    tree .puml (by simp [settings]) rfl rfl
  refine ⟨hothers others (by simp [others]) hread, ?_⟩
  decide +kernel

end ClassDiagram
