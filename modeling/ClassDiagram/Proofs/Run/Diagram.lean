import ClassDiagram.Proofs.Encoding.TextFile
import ClassDiagram.Proofs.Output.Title
import ClassDiagram.Proofs.Reader.Account
import ClassDiagram.Proofs.Run.Directory

/-!
# Diagrams of diagrams

A run that writes diagrams gives each diagram the stem of its input as the title, and saves it under
the sanitised stem. If sanitising leaves the stem as it is, a run on the diagram finds the same
stem, and `diagram_run_idempotent` says that it writes the same bytes again.

For this the diagram has to be read back from its file as it was written. The title has safe
characters only, so it changes nothing in the model, and no carriage return can be in the text: the
lines of a file have none, and nothing in a diagram adds one. The codec of the input plays no part
in this, but it has to decode the file by chunks: UTF-16 without a byte order mark is a text and yet
no file that can be read (`unmarked_input_not_drawn`).
-/

namespace ClassDiagram

/-! ## The diagram of a diagram -/

/-- A diagram shows the entities, the relationships and the constraints of a model. -/
theorem document_congr {model other : Model} (hentities : model.entities = other.entities)
    (hrelationships : model.relationships = other.relationships)
    (hconstraints : model.constraints = other.constraints) (title : Option String) :
    Diagram.document model title = Diagram.document other title := by
  unfold Diagram.document Diagram.lines
  rw [hentities, hrelationships, hconstraints]

/-- Lenient reading gives the same diagram as strict reading. -/
theorem document_modelOf (strict : Bool) (lines : List String) (title : Option String) :
    Diagram.document (modelOf strict lines) title =
      Diagram.document (modelOf true lines) title := by
  cases strict with
  | true => rfl
  | false =>
      rw [modelOf, (Reader.run_forget lines).1]
      exact document_congr rfl rfl rfl title

/-- The diagram of what is read from a diagram is the diagram itself, if its title has neither line
feeds nor double quotes. -/
theorem document_again {model : Model} (h : model.Writable) (strict : Bool) {title : String}
    (hfeed : '\n' ∉ title.toList) (hquote : '"' ∉ title.toList) :
    Diagram.document (modelOf strict (Text.linesOf (Diagram.document model (some title)).text))
        (some title) =
      Diagram.document model (some title) := by
  obtain ⟨hentities, hrelationships, hconstraints⟩ := modelOf_plainTitle h strict hfeed hquote
  exact document_congr hentities hrelationships hconstraints _

/-- A diagram has no carriage return, if neither its model nor its title has one. -/
theorem not_return_text {model : Model} (h : model.Parts Fragment.WellFormed)
    (hlacks : model.Parts (Fragment.Lacks '\r')) {title : String} (htitle : '\r' ∉ title.toList) :
    '\r' ∉ (Diagram.document model (some title)).text.toList := by
  rw [toList_text, List.flatMap_map]
  intro hmem
  obtain ⟨raw, hraw, hmem⟩ := List.mem_flatMap.1 hmem
  have hreturn : '\r' ∈ raw.toList := by simpa using hmem
  have hlines : raw = Document.titleLine title ∨ raw ∈ (Diagram.document model none).lines := by
    rw [lines_titled] at hraw
    rw [lines_document]
    split at hraw
    · exact Or.inr (by simpa using hraw)
    · simp only [List.mem_cons, List.mem_append, List.not_mem_nil, or_false] at hraw ⊢
      tauto
  rcases hlines with hraw | hraw
  · rw [hraw, toList_titleLine] at hreturn
    have hescaped : '\r' ∉ (Text.escapeQuotes title).toList :=
      fun hmem ↦ htitle (mem_of_mem_escapeQuotes (by decide) hmem)
    simp [titleTail, hescaped] at hreturn
  · exact not_mem_document (Or.inr rfl) h hlacks raw hraw hreturn

/-! ## Diagrams in files -/

/-- A written text without carriage returns is read from its file as it is. -/
theorem openFile_written [Codecs] {tree : FileTree} {path : Path} {text : String}
    (h : tree.read path = .ok (text.toList.flatMap Utf8.encode)) (hreturn : '\r' ∉ text.toList) :
    openFile tree path "utf-8" = .ok (Source.ofStream text) := by
  have hwrites : Encoding.utf8.Writes text.toList (text.toList.flatMap Utf8.encode) :=
    DecodeMode.writes_utf8 _
  have hactual : Encoding.actualName "utf-8" = "utf-8" := if_neg (by decide)
  have hname : Encoding.ofName "utf-8" = .ok .utf8 := by
    rw [Encoding.ofName, hactual]
    decide
  rw [openFile_eq (by decide) (Codec.ofName_encoding hname) h, Codec.source_of_writes hwrites,
    Text.normalNewlines_of_not_mem hreturn, String.ofList_toList]

/-- The diagram of a text without carriage returns is read from its file as it is. -/
theorem openFile_drawn [Codecs] {tree : FileTree} {path : Path} {text title : String}
    (hreturn : '\r' ∉ text.toList) (htitle : '\r' ∉ title.toList)
    (h : tree.read path = .ok (Format.puml.fileBytes (modelOf true (Text.linesOf text)) title)) :
    openFile tree path "utf-8" = .ok (Source.ofStream
      (Diagram.document (modelOf true (Text.linesOf text)) (some title)).text) := by
  apply openFile_written h
  refine not_return_text (modelOf_wellFormed true _) (modelOf_lacks true ?_) htitle
  intro raw hraw hmem
  exact hreturn (Text.mem_of_mem_linesOf hraw (Text.mem_of_mem_trim hmem))

/-! ## Runs that write a diagram -/

namespace Settings

variable [Codecs] {settings : Settings} {grammar : Grammar} {stdin : Source DecodeError}
  {tree : FileTree} {path : Path}

/-- A run on one file is done when the file is. -/
theorem run_one (h : settings.inputs = [path])
    (hdone : (settings.runInput grammar stdin tree (.file path)).fault = none) :
    settings.run grammar stdin tree = settings.runInput grammar stdin tree (.file path) := by
  rw [run_eq (by simp [h]), h]
  rcases hresult : settings.runInput grammar stdin tree (.file path) with
    ⟨later, output, events, written, fault⟩
  have hnone : fault = none := by simpa [hresult] using hdone
  simp [runInputs, hresult, hnone]

/-- The settings of a run that writes the diagram of one input into a directory. -/
def drawing (input directory : Path) (encoding : String) (strict checkReferences : Bool) :
    Settings where
  inputs := [input]
  destination := .directory directory
  format := .given Format.puml.name
  strict := strict
  checkReferences := checkReferences
  encoding := some encoding

/-- An input that is a stream over a text has the model of the lines of the text. -/
theorem readInput_drawing {input directory : Path} {encoding text : String}
    (hopen : openFile tree input encoding = .ok (Source.ofStream text))
    (strict checkReferences : Bool) :
    ∃ events, (drawing input directory encoding strict checkReferences).readInput Grammar.standard
        stdin tree (.file input) = (.ok (modelOf strict (Text.linesOf text)), events) := by
  have hmodel : (loadFile Grammar.standard strict encoding tree input).1 =
      .ok (modelOf strict (Text.linesOf text)) := by
    rw [loadFile_eq hopen, parse_ofStream, parse_text]
    rfl
  refine ⟨(loadFile Grammar.standard strict encoding tree input).2, ?_⟩
  rw [← hmodel]
  rfl

end Settings

/-- A run on an input that is a stream over a text saves the diagram of the text, whether or not it
is strict and reports undeclared names. -/
theorem exists_drawn [Codecs] {tree : FileTree} {input directory : Path} {encoding text : String}
    (hopen : openFile tree input encoding = .ok (Source.ofStream text))
    (haccepts : tree.Accepts directory (FileName.ofInput .puml input.stem)) :
    ∃ later,
      (∀ strict checkReferences stdin,
        let result := (Settings.drawing input directory encoding strict checkReferences).run
          Grammar.standard stdin tree
        result.fault = none ∧
          result.written = [directory.child (FileName.ofInput .puml input.stem)] ∧
          result.tree = later) ∧
      later.read (directory.child (FileName.ofInput .puml input.stem)) =
        .ok (Format.puml.fileBytes (modelOf true (Text.linesOf text)) input.stem) := by
  obtain ⟨later, hsave⟩ := FileTree.exists_save haccepts
    (Format.puml.fileBytes (modelOf true (Text.linesOf text)) input.stem)
  have hread := (FileTree.save_ok hsave).2.2
  rw [Path.join_ofInput] at hsave hread
  refine ⟨later, ?_, hread⟩
  intro strict checkReferences stdin
  dsimp only
  obtain ⟨events, hload⟩ := Settings.readInput_drawing hopen strict checkReferences
  -- strictness does not show in the diagram
  have hbytes : Format.puml.fileBytes (modelOf strict (Text.linesOf text)) input.stem =
      Format.puml.fileBytes (modelOf true (Text.linesOf text)) input.stem := by
    unfold Format.fileBytes Format.document
    rw [document_modelOf]
  rw [← hbytes] at hsave
  have hinput := Settings.runInput_saved rfl rfl hload hsave
  rw [Settings.run_one rfl (by rw [hinput]), hinput]
  exact ⟨rfl, rfl, rfl⟩

/-- A file that can be decoded to its end, by whatever codec, and whose stem sanitising leaves as it
is. A run that writes its diagram into a directory that accepts it saves the diagram under the stem.
A second run, on the saved diagram and into any directory that accepts it, saves exactly the same
bytes under the same name. Neither run has a fault, and the files do not depend on whether the runs
are strict or report undeclared names. -/
theorem diagram_run_idempotent [Codecs] (tree : FileTree) (input directory : Path)
    (encoding : String) (source : Source DecodeError)
    (hopen : openFile tree input encoding = .ok source) (hdecoded : source.ending = .finished)
    (hstem : FileName.sanitise input.stem = input.stem)
    (haccepts : tree.Accepts directory (input.stem ++ ".puml")) :
    let target := directory.child (input.stem ++ ".puml")
    ∃ bytes later,
      (∀ strict checkReferences stdin,
        let first := (Settings.drawing input directory encoding strict checkReferences).run
          Grammar.standard stdin tree
        first.fault = none ∧ first.written = [target] ∧ first.tree = later) ∧
      later.read target = .ok bytes ∧
      ∀ directory' : Path, later.Accepts directory' (input.stem ++ ".puml") →
        ∃ last,
          (∀ strict checkReferences stdin,
            let second := (Settings.drawing target directory' "utf-8" strict checkReferences).run
              Grammar.standard stdin later
            second.fault = none ∧ second.written = [directory'.child (input.stem ++ ".puml")] ∧
              second.tree = last) ∧
          last.read (directory'.child (input.stem ++ ".puml")) = .ok bytes := by
  intro target
  have hname : FileName.ofInput .puml input.stem = input.stem ++ ".puml" := by
    rw [FileName.ofInput, hstem]
    rfl
  have hreturn := FileName.not_mem_of_sanitise hstem (c := '\r') (by decide)
  have hfeed := FileName.not_mem_of_sanitise hstem (c := '\n') (by decide)
  have hquote := FileName.not_mem_of_sanitise hstem (c := '"') (by decide)
  -- the input is a stream over a text without carriage returns
  obtain ⟨_, _, _, _, rfl⟩ := openFile_ok hopen
  obtain ⟨text, htext, hsource⟩ := Codec.exists_source hdecoded
  rw [hsource] at hopen
  have hwritable : (modelOf true (Text.linesOf text)).Writable :=
    writable_modelOf true fun raw hraw ↦ Text.not_feed_of_mem_linesOf hraw
  obtain ⟨later, hfirst, hread⟩ := exists_drawn hopen (hname ▸ haccepts)
  rw [hname] at hfirst hread
  refine ⟨_, later, hfirst, hread, ?_⟩
  intro directory' haccepts'
  -- the diagram is a stream over its own text, and its file has the same stem
  have hopen' : openFile later target "utf-8" = _ := openFile_drawn htext hreturn hread
  have hstem' : target.stem = input.stem := by
    have hchild := Path.stem_child_ofInput directory .puml input.stem
    rw [hname, hstem] at hchild
    exact hchild
  obtain ⟨last, hsecond, hagain⟩ := exists_drawn hopen' (by rw [hstem', hname]; exact haccepts')
  rw [hstem', hname] at hsecond hagain
  refine ⟨last, hsecond, hagain.trans ?_⟩
  show Except.ok ((Diagram.document _ _).text.toList.flatMap Utf8.encode) = _
  rw [document_again hwritable true hfeed hquote]
  rfl

/-- ISO 8859-5, for which there is no encoding here. Each byte is a character. -/
def Codec.cyrillic : Codec where
  State := Unit
  decoder :=
    { feedChunk := fun _ chunk ↦ .ok ((), chunk.map fun byte ↦
        if byte ≤ 0xA0 ∨ byte = 0xAD then Char.ofNat byte.toNat
        else if byte = 0xF0 then '№'
        else if byte = 0xFD then '§'
        else Char.ofNat (byte.toNat + 0x360))
      finish := fun _ ↦ .ok [] }
  start := ()

/-- A stem with a dot, line ends of two characters, and a character that takes up one byte in the
input and two in the diagram. -/
theorem diagram_run_idempotent_dotted :
    let _ : Codecs := ⟨"utf-8", fun name ↦
      if Encoding.normalName name = "iso_8859_5" then some Codec.cyrillic else none⟩
    let tree : FileTree := { nodes := ⟨[(["a.b.puml"], .file [0x41, 0x20, 0x2D, 0x2D, 0x20, 0x42,
      0x20, 0x3A, 0x20, 0xEF, 0x0D, 0x0A, 0x2B, 0x0D, 0x0A])]⟩ }
    let target : Path := { names := ["out", "a.b.puml"] }
    ∃ later last,
      (∀ strict, ((Settings.drawing { names := ["a.b.puml"] } { names := ["out"] } "iso-8859-5"
        strict false).run Grammar.standard ⟨[], .finished⟩ tree).tree = later) ∧
      (∀ strict, ((Settings.drawing target { names := ["again"] } "utf-8" strict false).run
        Grammar.standard ⟨[], .finished⟩ later).tree = last) ∧
      later.read target = .ok
        ("@startuml\ntitle \"a.b\"\nA -- B : я\n@enduml\n".toList.flatMap Utf8.encode) ∧
      last.read { names := ["again", "a.b.puml"] } = later.read target := by
  intro codecs tree target
  have hopen : openFile tree { names := ["a.b.puml"] } "iso-8859-5" =
      .ok ⟨["A -- B : я\n", "+\n"], .finished⟩ := by
    decide +kernel
  obtain ⟨bytes, later, hfirst, hread, hsecond⟩ := diagram_run_idempotent tree
    { names := ["a.b.puml"] } { names := ["out"] } "iso-8859-5" _ hopen rfl (by decide +kernel)
    (by decide +kernel)
  have hlater := (hfirst true false ⟨[], .finished⟩).2.2
  have haccepts : later.Accepts { names := ["again"] } "a.b.puml" := by
    rw [← hlater]
    decide +kernel
  obtain ⟨last, hagain, hbytes⟩ := hsecond { names := ["again"] } haccepts
  refine ⟨later, last, fun strict ↦ (hfirst strict false _).2.2,
    fun strict ↦ (hagain strict false _).2.2, ?_, hbytes.trans hread.symm⟩
  rw [← hlater]
  decide +kernel

/-- UTF-16 without a byte order mark is decoded as a whole, but as a file it cannot be read. The run
has a fault then, and writes nothing. -/
theorem unmarked_input_not_drawn :
    let bytes : List UInt8 := [0x41, 0, 0x20, 0, 0x2D, 0, 0x2D, 0, 0x20, 0, 0x42, 0, 0x0A, 0]
    let tree : FileTree := { nodes := ⟨[(["a.puml"], .file bytes)]⟩ }
    let result := (Settings.drawing { names := ["a.puml"] } { names := ["out"] } "utf-16" false
      false).run Grammar.standard ⟨[], .finished⟩ tree
    Encoding.ofName "utf-16" = .ok .utf16 ∧
      (∃ last, (Decoder.start .utf16).feed bytes = .ok (last, "A -- B\n".toList) ∧
        last.finish = .ok ()) ∧
      FileName.sanitise ({ names := ["a.puml"] } : Path).stem = "a" ∧
      tree.Accepts { names := ["out"] } "a.puml" ∧
      result.fault = some (.halted (.unreadable 0 .missingMark)) ∧ result.written = [] ∧
      result.tree = tree := by
  intro bytes tree result
  refine ⟨by decide, ⟨{ mode := .utf16Unmarked, offset := 14 }, ?_⟩, ?_⟩
  · decide +kernel
  · decide +kernel

end ClassDiagram
