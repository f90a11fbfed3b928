import ClassDiagram.Files.FileTree
import ClassDiagram.Proofs.Table

/-!
# What writing leaves alone

A path leads to a place by its names alone, and every tree that it can be followed in agrees on that
place. `FileTree.Keeps` says what a later tree has in common with an earlier one: all directories,
and all files but those at touched places. A path that could be followed can then still be followed
(`Keeps.follow`), and an untouched file reads as before (`Keeps.read`). `save_ok` says what a file
that is saved touches: its own place, where it can be read.

`FileTree.Filled` says what is new in a later tree: files at some places and directories where
nothing stood. `filled_save` says that saving a file adds no file at any other place, also if it
fails.
-/

namespace ClassDiagram

/-- A computation in two parts succeeds if both do. -/
theorem bind_ok_iff {ε α β : Type} {first : Except ε α} {second : α → Except ε β} {result : β} :
    first >>= second = .ok result ↔ ∃ middle, first = .ok middle ∧ second middle = .ok result := by
  cases first with
  | error failure => simp [bind, Except.bind]
  | ok middle => simp [bind, Except.bind]

namespace FileTree

variable {tree later : FileTree} {path : Path} {found : Found} {touched : Place → Prop}

/-! ## Places -/

/-- The place behind a name. -/
def goTo (place : Place) (name : String) : Place :=
  if name = ".." then place.dropLast else place ++ [name]

/-- Where a path leads by its names alone, whatever stands there. -/
def placeOf (tree : FileTree) (path : Path) : Place := path.names.foldl goTo (tree.startOf path)

/-- Places depend on the working directory alone. -/
theorem placeOf_congr (h : later.workingDirectory = tree.workingDirectory) (path : Path) :
    later.placeOf path = tree.placeOf path := by
  unfold placeOf startOf
  rw [h]

/-- What is found is a directory or what the tree has at its place. -/
def Stands (tree : FileTree) (found : Found) : Prop :=
  found.node = some .directory ∨ found.node = tree.node? found.place

/-- A name can be followed from a directory only. The parent directory needs no look into the
tree. -/
theorem enter_ok_iff {name : String} {next : Found} :
    tree.enter found name = .ok next ↔
      found.node = some .directory ∧ next.place = goTo found.place name ∧
        (name = ".." ∧ next.node = some .directory ∨
          name ≠ ".." ∧ name.utf8ByteSize ≤ nameLimit ∧ next.node = tree.node? next.place) := by
  obtain ⟨place, node⟩ := next
  unfold enter goTo
  rcases hnode : found.node with _ | ⟨_ | _⟩
  · simp
  · simp
  · by_cases hname : name = ".."
    · simp [hname, eq_comm]
    · by_cases hlimit : nameLimit < name.utf8ByteSize
      · simp [hname, hlimit, Nat.not_le.2 hlimit]
      · simp only [hname, hlimit, if_false, Except.ok.injEq, Found.mk.injEq, true_and, false_and,
          false_or, not_false_eq_true, ne_eq, Nat.not_lt.1 hlimit]
        constructor
        · rintro ⟨rfl, rfl⟩
          exact ⟨rfl, rfl⟩
        · rintro ⟨rfl, rfl⟩
          exact ⟨rfl, rfl⟩

theorem foldlM_enter_ok {names : List String} {start : Found} (hstart : tree.Stands start)
    (h : names.foldlM tree.enter start = .ok found) :
    found.place = names.foldl goTo start.place ∧ tree.Stands found := by
  induction names generalizing start with
  | nil =>
      cases h
      exact ⟨rfl, hstart⟩
  | cons name rest ih =>
      rw [List.foldlM_cons, bind_ok_iff] at h
      obtain ⟨next, hnext, hrest⟩ := h
      obtain ⟨_, hplace, hnode⟩ := enter_ok_iff.1 hnext
      rw [List.foldl_cons, ← hplace]
      exact ih (hnode.imp And.right fun hnode ↦ hnode.2.2) hrest

/-- What is found at the end of a path stands at the place of the path. -/
theorem follow_ok (h : tree.follow path = .ok found) :
    found.place = tree.placeOf path ∧ tree.Stands found := by
  unfold follow at h
  split at h
  · cases h
  · exact foldlM_enter_ok (Or.inl rfl) h

/-! ## Later trees -/

/-- A later tree has all directories of an earlier one, and all its files but those at touched
places. Nothing is said about places where nothing stood. -/
structure Keeps (touched : Place → Prop) (tree later : FileTree) : Prop where
  workingDirectory : later.workingDirectory = tree.workingDirectory
  directory : ∀ place, tree.node? place = some .directory → later.node? place = some .directory
  file : ∀ place bytes, ¬ touched place → tree.node? place = some (.file bytes) →
    later.node? place = some (.file bytes)

/-- What a later tree finds where an earlier one found something. -/
def review (later : FileTree) (found : Found) : Found where
  place := found.place
  node := if found.node = some .directory then some .directory else later.node? found.place

namespace Keeps

theorem refl (tree : FileTree) : Keeps touched tree tree :=
  ⟨rfl, fun _ h ↦ h, fun _ _ _ h ↦ h⟩

theorem trans {last : FileTree} (h : Keeps touched tree later) (h' : Keeps touched later last) :
    Keeps touched tree last where
  workingDirectory := h'.workingDirectory.trans h.workingDirectory
  directory place hplace := h'.directory place (h.directory place hplace)
  file place bytes htouched hplace :=
    h'.file place bytes htouched (h.file place bytes htouched hplace)

theorem mono {more : Place → Prop} (h : Keeps touched tree later)
    (hmore : ∀ place, touched place → more place) : Keeps more tree later where
  workingDirectory := h.workingDirectory
  directory := h.directory
  file place bytes hplace := h.file place bytes fun htouched ↦ hplace (hmore place htouched)

/-- Paths lead to the same places as before. -/
theorem placeOf (h : Keeps touched tree later) (path : Path) :
    later.placeOf path = tree.placeOf path :=
  placeOf_congr h.workingDirectory path

/-- A name that could be followed can still be followed. -/
theorem enter (h : Keeps touched tree later) {name : String} {next : Found}
    (hnext : tree.enter found name = .ok next) :
    later.enter (later.review found) name = .ok (later.review next) := by
  obtain ⟨hfound, hplace, hnode⟩ := enter_ok_iff.1 hnext
  rw [enter_ok_iff]
  refine ⟨if_pos hfound, hplace, ?_⟩
  rcases hnode with ⟨hname, hnode⟩ | ⟨hname, hlimit, hnode⟩
  · exact Or.inl ⟨hname, if_pos hnode⟩
  · refine Or.inr ⟨hname, hlimit, ?_⟩
    unfold review
    dsimp only
    split
    · next hdirectory => exact (h.directory next.place (hnode ▸ hdirectory)).symm
    · rfl

/-- A path that could be followed leads to the same place. -/
theorem follow (h : Keeps touched tree later) (hfollow : tree.follow path = .ok found) :
    later.follow path = .ok (later.review found) := by
  have hfold : ∀ (names : List String) (start : Found),
      names.foldlM tree.enter start = .ok found →
        names.foldlM later.enter (later.review start) = .ok (later.review found) := by
    intro names
    induction names with
    | nil =>
        intro start hfold
        cases hfold
        rfl
    | cons name rest ih =>
        intro start hfold
        rw [List.foldlM_cons, bind_ok_iff] at hfold ⊢
        obtain ⟨next, hnext, hrest⟩ := hfold
        exact ⟨later.review next, h.enter hnext, ih next hrest⟩
  unfold FileTree.follow at hfollow ⊢
  split at hfollow
  · cases hfollow
  · next hlimit =>
      have hstart : later.startOf path = tree.startOf path := by
        unfold startOf
        rw [h.workingDirectory]
      rw [if_neg hlimit, hstart]
      exact hfold path.names _ hfollow

end Keeps

/-! ## Reading and writing -/

/-- An operation on a path succeeds if the path holds no zero character and the system allows it. -/
theorem onPath_ok_iff {α : Type} {operation : Except SystemFault α} {result : α} :
    onPath path operation = .ok result ↔
      path.toString.toList.contains (Char.ofNat 0) = false ∧ operation = .ok result := by
  unfold onPath
  cases path.toString.toList.contains (Char.ofNat 0) with
  | true => simp
  | false => cases operation <;> simp [Except.mapError]

/-- A file is read where a path leads to it. -/
theorem read_ok_iff {bytes : List UInt8} :
    tree.read path = .ok bytes ↔
      path.toString.toList.contains (Char.ofNat 0) = false ∧
        ∃ found, tree.follow path = .ok found ∧ found.node = some (.file bytes) := by
  rw [read, onPath_ok_iff, bind_ok_iff]
  refine and_congr_right fun _ ↦ exists_congr fun found ↦ and_congr_right fun _ ↦ ?_
  rcases found.node with _ | ⟨_ | _⟩ <;> simp [pure, Except.pure]

/-- A file is written where a path leads and no directory stands. -/
theorem write_ok_iff {bytes : List UInt8} :
    tree.write path bytes = .ok later ↔
      path.toString.toList.contains (Char.ofNat 0) = false ∧
        ∃ found, tree.follow path = .ok found ∧ found.node ≠ some .directory ∧
          later = tree.place found.place (.file bytes) := by
  rw [write, onPath_ok_iff, bind_ok_iff]
  refine and_congr_right fun _ ↦ exists_congr fun found ↦ and_congr_right fun _ ↦ ?_
  rcases found.node with _ | ⟨_ | _⟩ <;> simp [pure, Except.pure, eq_comm]

/-- Whether a file can be written does not depend on its bytes. -/
theorem exists_write {bytes : List UInt8} (h : tree.write path bytes = .ok later)
    (other : List UInt8) : ∃ later', tree.write path other = .ok later' := by
  obtain ⟨hzero, found, hfollow, hnode, _⟩ := write_ok_iff.1 h
  exact ⟨_, write_ok_iff.2 ⟨hzero, found, hfollow, hnode, rfl⟩⟩

/-- What stands in a tree after a node was put at a place other than the root. -/
theorem node?_place {place : Place} (h : place ≠ []) (tree : FileTree) (node : Node)
    (other : Place) :
    (tree.place place node).node? other =
      if other = place then some node else tree.node? other := by
  unfold node? FileTree.place
  dsimp only
  by_cases hother : other = place
  · rw [if_pos hother, if_neg (hother ▸ h), hother, Table.get?_insert_self]
  · rw [if_neg hother, Table.get?_insert_of_ne _ _ hother]

/-- The root is a directory, so nothing else stands there. -/
theorem ne_root {place : Place} (h : tree.node? place ≠ some .directory) : place ≠ [] := by
  intro hroot
  rw [hroot] at h
  exact h rfl

/-- A node that is put where no directory stood leaves all else alone. -/
theorem keeps_place {place : Place} (h : tree.node? place ≠ some .directory)
    (htouched : ∀ bytes, tree.node? place = some (.file bytes) → touched place) (node : Node) :
    Keeps touched tree (tree.place place node) where
  workingDirectory := rfl
  directory other hother := by
    have hne : other ≠ place := fun heq ↦ h (heq ▸ hother)
    rw [node?_place (ne_root h), if_neg hne, hother]
  file other bytes hother hfile := by
    have hne : other ≠ place := fun heq ↦ hother (heq ▸ htouched bytes (heq ▸ hfile))
    rw [node?_place (ne_root h), if_neg hne, hfile]

/-- Writing touches the place of the file, and the file can be read there. -/
theorem write_ok {bytes : List UInt8} (h : tree.write path bytes = .ok later) :
    Keeps (· = tree.placeOf path) tree later ∧ later.read path = .ok bytes := by
  obtain ⟨hzero, found, hfollow, hnode, hlater⟩ := write_ok_iff.1 h
  obtain ⟨hplace, hstands⟩ := follow_ok hfollow
  have hfree : tree.node? found.place ≠ some .directory := hstands.resolve_left hnode ▸ hnode
  have hkeeps : Keeps (· = tree.placeOf path) tree later :=
    hlater ▸ keeps_place hfree (fun _ _ ↦ hplace) _
  refine ⟨hkeeps, read_ok_iff.2 ⟨hzero, later.review found, hkeeps.follow hfollow, ?_⟩⟩
  show (if found.node = some .directory then some .directory else later.node? found.place) = _
  rw [if_neg hnode, hlater, node?_place (ne_root hfree), if_pos rfl]

/-- A file that is not touched reads as before. -/
theorem Keeps.read {bytes : List UInt8} (h : Keeps touched tree later)
    (hread : tree.read path = .ok bytes) (htouched : ¬ touched (tree.placeOf path)) :
    later.read path = .ok bytes := by
  obtain ⟨hzero, found, hfollow, hnode⟩ := read_ok_iff.1 hread
  obtain ⟨hplace, hstands⟩ := follow_ok hfollow
  have hne : found.node ≠ some .directory := by simp [hnode]
  have hfile : tree.node? found.place = some (.file bytes) := by
    rw [← hstands.resolve_left hne, hnode]
  refine read_ok_iff.2 ⟨hzero, later.review found, h.follow hfollow, ?_⟩
  show (if found.node = some .directory then some .directory else later.node? found.place) = _
  rw [if_neg hne, h.file found.place bytes (hplace ▸ htouched) hfile]

/-! ## New files and directories -/

/-- A later tree has a file at each of some places. Everywhere else it has what an earlier tree had,
or a new directory where nothing stood. -/
structure Filled (places : Place → Prop) (tree later : FileTree) : Prop where
  workingDirectory : later.workingDirectory = tree.workingDirectory
  file : ∀ place, places place → ∃ bytes, later.node? place = some (.file bytes)
  rest : ∀ place, ¬ places place → later.node? place = tree.node? place ∨
    tree.node? place = none ∧ later.node? place = some .directory

namespace Filled

theorem refl (tree : FileTree) : Filled (fun _ ↦ False) tree tree :=
  ⟨rfl, fun _ h ↦ h.elim, fun _ _ ↦ Or.inl rfl⟩

theorem trans {first second places : Place → Prop} {last : FileTree} (h : Filled first tree later)
    (h' : Filled second later last) (hplaces : ∀ place, places place ↔ first place ∨ second place) :
    Filled places tree last where
  workingDirectory := h'.workingDirectory.trans h.workingDirectory
  file place hplace := by
    by_cases hsecond : second place
    · exact h'.file place hsecond
    · -- the file was there before, so it is still the same
      have hfirst : first place := ((hplaces place).1 hplace).resolve_right hsecond
      obtain ⟨bytes, hbytes⟩ := h.file place hfirst
      rcases h'.rest place hsecond with hsame | ⟨hnone, _⟩
      · exact ⟨bytes, hsame.trans hbytes⟩
      · rw [hbytes] at hnone
        cases hnone
  rest place hplace := by
    rw [hplaces, not_or] at hplace
    rcases h.rest place hplace.1 with hsame | ⟨hnone, hmade⟩
    · rw [← hsame]
      exact h'.rest place hplace.2
    · rcases h'.rest place hplace.2 with hsame | ⟨hnone', _⟩
      · exact Or.inr ⟨hnone, hsame.trans hmade⟩
      · rw [hmade] at hnone'
        cases hnone'

/-- New directories touch no file. -/
theorem keeps (h : Filled (fun _ ↦ False) tree later) : Keeps touched tree later where
  workingDirectory := h.workingDirectory
  directory place hplace := by
    rcases h.rest place id with hsame | ⟨hnone, _⟩
    · rw [hsame, hplace]
    · rw [hplace] at hnone
      cases hnone
  file place bytes _ hplace := by
    rcases h.rest place id with hsame | ⟨hnone, _⟩
    · rw [hsame, hplace]
    · rw [hplace] at hnone
      cases hnone

end Filled

/-- A directory is made where nothing stood. -/
theorem filled_makeDirectory (h : tree.makeDirectory path = .ok later) :
    Filled (fun _ ↦ False) tree later := by
  rw [makeDirectory, bind_ok_iff] at h
  obtain ⟨found, hfollow, hmade⟩ := h
  split at hmade
  · cases hmade
  · next hnone =>
      cases hmade
      have hfree : tree.node? found.place = none := by
        rcases (follow_ok hfollow).2 with hdirectory | hnode
        · rw [hnone] at hdirectory
          cases hdirectory
        · rw [← hnode, hnone]
      have hnot : tree.node? found.place ≠ some .directory := by simp [hfree]
      refine ⟨rfl, fun _ h ↦ h.elim, fun place _ ↦ ?_⟩
      rw [node?_place (ne_root hnot)]
      split
      · next hplace => exact Or.inr ⟨hplace ▸ hfree, rfl⟩
      · exact Or.inl rfl

theorem filled_ensureDirectory (tree : FileTree) (path : Path) :
    Filled (fun _ ↦ False) tree (tree.ensureDirectory path).1 := by
  unfold ensureDirectory
  split
  · next hmade => exact filled_makeDirectory hmade
  · exact .refl tree

theorem filled_ensureUpTo (tree : FileTree) (path : Path) (count : Nat) :
    Filled (fun _ ↦ False) tree (tree.ensureUpTo path count).1 := by
  induction count with
  | zero => exact filled_ensureDirectory _ _
  | succ count ih =>
      rw [ensureUpTo]
      split
      · split
        · next hparents =>
            rw [hparents] at ih
            exact ih.trans (filled_ensureDirectory _ _) (by simp)
        · exact ih
      · exact filled_ensureDirectory _ _

/-- Making directories adds nothing else, whether or not all of them can be made. -/
theorem filled_ensureDirectories (tree : FileTree) (path : Path) :
    Filled (fun _ ↦ False) tree (tree.ensureDirectories path).1 := by
  unfold ensureDirectories
  split
  · exact filled_ensureUpTo tree path _
  · exact .refl tree

/-- Writing puts a file at the place of the path. -/
theorem filled_write {bytes : List UInt8} (h : tree.write path bytes = .ok later) :
    Filled (· = tree.placeOf path) tree later := by
  obtain ⟨_, found, hfollow, hnode, rfl⟩ := write_ok_iff.1 h
  obtain ⟨hplace, hstands⟩ := follow_ok hfollow
  have hfree : tree.node? found.place ≠ some .directory := hstands.resolve_left hnode ▸ hnode
  refine ⟨rfl, ?_, ?_⟩
  · rintro place rfl
    exact ⟨bytes, by rw [node?_place (ne_root hfree), if_pos hplace.symm]⟩
  · intro place hne
    rw [node?_place (ne_root hfree), if_neg (by rwa [hplace])]
    exact Or.inl rfl

/-! ## Saving files -/

/-- A file that is saved stands in its directory and can be read there. No other file is touched. -/
theorem save_ok {directory : Path} {name : String} {bytes : List UInt8}
    (h : tree.save directory name bytes = (later, .ok path)) :
    path = directory.join (Path.ofString name) ∧ Keeps (· = tree.placeOf path) tree later ∧
      later.read path = .ok bytes := by
  unfold save at h
  split at h
  · cases h
  · next middle hmade =>
      dsimp only at h
      split at h
      · next hwrite =>
          cases h
          have hdirectories : Keeps (· = tree.placeOf (directory.join (Path.ofString name))) tree
              (tree.ensureDirectories directory).1 :=
            (filled_ensureDirectories tree directory).keeps
          rw [hmade] at hdirectories
          obtain ⟨hkeeps, hread⟩ := write_ok hwrite
          rw [hdirectories.placeOf] at hkeeps
          exact ⟨rfl, hdirectories.trans hkeeps, hread⟩
      · cases h

/-- Saving puts a file at the place of the path that it gives. If it fails, it puts no file
anywhere. -/
theorem filled_save (tree : FileTree) (directory : Path) (name : String) (bytes : List UInt8) :
    let saved := tree.save directory name bytes
    Filled (fun place ↦ ∃ path, saved.2 = .ok path ∧ place = tree.placeOf path) tree saved.1 := by
  have hmade := filled_ensureDirectories tree directory
  dsimp only
  unfold save
  split
  · next hfailed =>
      rw [hfailed] at hmade
      simpa using hmade
  · next middle hok =>
      rw [hok] at hmade
      dsimp only
      split
      · next hwrite =>
          refine hmade.trans (filled_write hwrite) fun place ↦ ?_
          simp [placeOf_congr hmade.workingDirectory, eq_comm]
      · simpa using hmade

/-- A file of the name can be saved in the directory: all directories on the way are there or can be
made, and no directory has the name of the file. -/
def Accepts (tree : FileTree) (directory : Path) (name : String) : Prop :=
  (tree.save directory name []).2 = .ok (directory.join (Path.ofString name))

instance (tree : FileTree) (directory : Path) (name : String) :
    Decidable (tree.Accepts directory name) :=
  inferInstanceAs (Decidable (_ = _))

/-- Whether a file can be saved does not depend on its bytes. -/
theorem exists_save {directory : Path} {name : String} (h : tree.Accepts directory name)
    (bytes : List UInt8) :
    ∃ later, tree.save directory name bytes =
      (later, .ok (directory.join (Path.ofString name))) := by
  unfold Accepts save at h
  unfold save
  split at h
  · cases h
  · next middle hmade =>
      dsimp only at h
      split at h
      · next hwrite =>
          obtain ⟨later, hlater⟩ := exists_write hwrite bytes
          simp only [hlater]
          exact ⟨later, rfl⟩
      · cases h

end FileTree

end ClassDiagram
