import Wiring.Proofs.DiskChanges
import Wiring.Proofs.FolderPasses
import Wiring.Proofs.ManifestOrder

/-!
# Disks that list their folders differently

Two disks on which the same stands at every place may still list the entries of their folders in
different orders.  Nothing but the search for manifests lists a folder, so every operation comes to
the same on both; and manifests are sorted.  A pass over a folder of manifests therefore does not
depend on the order in which the disk lists it.

## Main definitions

* `Disk.Relisted` — the same stands at every place.
* `Disk.sightOf` — what a path leads to, without looking below it.
* `Disk.SameChange`, `SameRun` — two operations and two runs that come to the same.
* `OutputFolder.Relisted` — the same for output folders.

## Main results

* `Disk.Relisted.locate`, `Disk.Relisted.readText`, `Disk.Relisted.makeFolders`,
  `Disk.Relisted.writeFile` — operations on a disk come to the same.
* `OutputFolder.Relisted.emit`, `OutputFolder.Relisted.emitAll` — so do those of output folders.
* `Disk.Relisted.manifestsBelow` — the same manifests in the same order.
* `manifestsBelow_any_order` — **the order of listing has no effect.**
-/

namespace Wiring

open Wiring.Path FileTree

namespace Disk

/-- The disks differ at most in the order in which folders list their entries. -/
structure Relisted (disk other : Disk) : Prop where
  /-- The current folder is the same. -/
  current : other.current = disk.current
  /-- The same is seen at every place. -/
  sights : ∀ place, other.tree.sightAt? place = disk.tree.sightAt? place

/-- A step depends on what is seen where it starts and where it leads. -/
theorem step_eq (tree : FileTree) (place : List String) (hop : Hop) :
    step tree place hop =
      match tree.sightAt? place, hop with
      | none, _ => .error .notFound
      | some (.file _), _ => .error .notFolder
      | some .folder, .here => .ok place
      | some .folder, .up => .ok place.dropLast
      | some .folder, .down name =>
          match tree.sightAt? (place ++ [name]) with
          | none => .error .notFound
          | some _ => .ok (place ++ [name]) := by
  unfold step
  cases hplace : tree.get? place with
  | none => rw [sightAt?, hplace]; rfl
  | some found =>
    rw [sightAt?, hplace]
    cases found with
    | file content => rfl
    | folder entries =>
      cases hop with
      | here => rfl
      | up => rfl
      | down name =>
        dsimp only [Option.map_some, sight]
        rw [sightAt?, get?_append_singleton hplace]
        cases entries.lookup name <;> rfl

/-- What a path leads to, without looking below it. -/
def sightOf (disk : Disk) (path : Path) : Except DiskFault Sight :=
  match disk.locate path with
  | .error fault => .error fault
  | .ok place =>
      match disk.tree.sightAt? place with
      | none => .error .notFound
      | some seen => .ok seen

theorem map_sight_find (disk : Disk) (path : Path) :
    (disk.find path).map sight = disk.sightOf path := by
  unfold find sightOf sightAt?
  cases disk.locate path with
  | error fault => rfl
  | ok place =>
    dsimp only
    cases disk.tree.get? place <;> rfl

theorem isFile_eq (disk : Disk) (path : Path) :
    disk.isFile path =
      match disk.sightOf path with
      | .ok (.file _) => true
      | _ => false := by
  rw [← map_sight_find, isFile]
  cases disk.find path with
  | error fault => rfl
  | ok found => cases found <;> rfl

theorem isFolder_eq (disk : Disk) (path : Path) :
    disk.isFolder path =
      match disk.sightOf path with
      | .ok .folder => true
      | _ => false := by
  rw [← map_sight_find, isFolder]
  cases disk.find path with
  | error fault => rfl
  | ok found => cases found <;> rfl

theorem readBytes_eq (disk : Disk) (path : Path) :
    disk.readBytes path =
      match disk.sightOf path with
      | .error fault => .error fault
      | .ok .folder => .error .isFolder
      | .ok (.file content) => .ok content := by
  rw [← map_sight_find, readBytes]
  cases disk.find path with
  | error fault => rfl
  | ok found => cases found <;> rfl

/-- The last step of a path depends on what is seen where it starts. -/
theorem target_eq (disk : Disk) (path : Path) :
    disk.target path =
      if path.text = "" then .error .notFound
      else
        match path.hops.getLast? with
        | none => .ok (.standing (disk.start path))
        | some hop =>
            match walk disk.tree (disk.start path) path.hops.dropLast with
            | .error fault => .error fault
            | .ok above =>
                match hop, disk.tree.sightAt? above with
                | _, none => .error .notFound
                | _, some (.file _) => .error .notFolder
                | .down name, some .folder => .ok (.entry above name)
                | .here, some .folder => .ok (.standing above)
                | .up, some .folder => .ok (.standing above.dropLast) := by
  unfold target
  congr 1
  cases path.hops.getLast? with
  | none => rfl
  | some hop =>
    dsimp only
    cases walk disk.tree (disk.start path) path.hops.dropLast with
    | error fault => rfl
    | ok above =>
      dsimp only
      unfold sightAt?
      cases disk.tree.get? above with
      | none => cases hop <;> rfl
      | some found => cases found <;> cases hop <;> rfl

/-- Two operations had the same fault, or they left disks that differ only in their listings. -/
inductive SameChange : Except DiskFault Disk → Except DiskFault Disk → Prop where
  /-- Both failed. -/
  | error (fault : DiskFault) : SameChange (.error fault) (.error fault)
  /-- Both succeeded. -/
  | ok {disk other : Disk} (h : Relisted disk other) : SameChange (.ok disk) (.ok other)

theorem SameChange.cases {result result' : Except DiskFault Disk} (h : SameChange result result') :
    (∃ fault, result = .error fault ∧ result' = .error fault) ∨
      ∃ disk other, result = .ok disk ∧ result' = .ok other ∧ Relisted disk other := by
  cases h with
  | error fault => exact .inl ⟨fault, rfl, rfl⟩
  | ok h => exact .inr ⟨_, _, rfl, rfl, h⟩

namespace Relisted

variable {disk other : Disk}

/-! ### Looking at a disk -/

theorem walk (h : Relisted disk other) (place : List String) (hops : List Hop) :
    Disk.walk other.tree place hops = Disk.walk disk.tree place hops := by
  induction hops generalizing place with
  | nil => rfl
  | cons hop rest ih =>
    rw [Disk.walk, Disk.walk, step_eq, step_eq, h.sights]
    simp only [h.sights, ih]

theorem start (h : Relisted disk other) (path : Path) : other.start path = disk.start path := by
  rw [Disk.start, Disk.start, h.current]

/-- A path leads to the same place. -/
theorem locate (h : Relisted disk other) (path : Path) : other.locate path = disk.locate path := by
  rw [Disk.locate, Disk.locate, h.walk, h.start]

theorem sightOf (h : Relisted disk other) (path : Path) :
    other.sightOf path = disk.sightOf path := by
  unfold Disk.sightOf
  rw [h.locate]
  simp only [h.sights]

theorem isFile (h : Relisted disk other) (path : Path) : other.isFile path = disk.isFile path := by
  rw [isFile_eq, isFile_eq, h.sightOf]

theorem isFolder (h : Relisted disk other) (path : Path) :
    other.isFolder path = disk.isFolder path := by
  rw [isFolder_eq, isFolder_eq, h.sightOf]

/-- A file has the same text. -/
theorem readText (h : Relisted disk other) (path : Path) :
    other.readText path = disk.readText path := by
  rw [Disk.readText, Disk.readText, readBytes_eq, readBytes_eq, h.sightOf]

theorem target (h : Relisted disk other) (path : Path) : other.target path = disk.target path := by
  rw [target_eq, target_eq, h.walk, h.start]
  simp only [h.sights]

/-! ### Changing a disk -/

/-- A file is put at the same place. -/
theorem set_file (h : Relisted disk other) {place : List String} {name : String}
    (content : ByteArray) (hfolder : disk.tree.sightAt? place = some .folder)
    (hold : disk.tree.sightAt? (place ++ [name]) ≠ some .folder) :
    Relisted (disk.set (place ++ [name]) (.file content))
      (other.set (place ++ [name]) (.file content)) := by
  refine ⟨h.current, fun inside => ?_⟩
  rw [sightAt?_set_file content hfolder hold, sightAt?_set_file content, h.sights]
  · rwa [h.sights]
  · rwa [h.sights]

/-- A folder is put at the same place. -/
theorem set_folder (h : Relisted disk other) {place : List String} {name : String}
    (hfolder : disk.tree.sightAt? place = some .folder)
    (hnew : disk.tree.sightAt? (place ++ [name]) = none) :
    Relisted (disk.set (place ++ [name]) (.folder []))
      (other.set (place ++ [name]) (.folder [])) := by
  refine ⟨h.current, fun inside => ?_⟩
  rw [sightAt?_set_folder hfolder hnew, sightAt?_set_folder, h.sights]
  · rwa [h.sights]
  · rwa [h.sights]

/-- A file is written with the same success. -/
theorem writeFile (h : Relisted disk other) (path : Path) (content : ByteArray) :
    SameChange (disk.writeFile path content) (other.writeFile path content) := by
  unfold Disk.writeFile
  rw [h.target]
  cases htarget : disk.target path with
  | error fault => exact .error fault
  | ok target =>
    cases target with
    | standing place => exact .error _
    | entry above name =>
      obtain ⟨-, front, -, -, hfolder⟩ := target_eq_entry_iff.mp htarget
      -- a folder at the place refuses the file, a file or nothing lets it in on both disks
      have hput : disk.tree.sightAt? (above ++ [name]) ≠ some .folder →
          Relisted (disk.set (above ++ [name]) (.file content))
            (other.set (above ++ [name]) (.file content)) := h.set_file content hfolder
      have hsight := h.sights (above ++ [name])
      dsimp only
      unfold sightAt? at hput hsight
      cases hold : disk.tree.get? (above ++ [name]) with
      | none =>
        rw [hold] at hsight hput
        rw [Option.map_eq_none_iff.mp hsight]
        cases endsInSlash path.text with
        | true => exact .error _
        | false => exact .ok (hput (by simp))
      | some old =>
        rw [hold] at hsight hput
        obtain ⟨new, hnew, hsame⟩ := Option.map_eq_some_iff.mp hsight
        rw [hnew]
        cases old with
        | folder entries =>
          cases new with
          | folder _ => exact .error _
          | file _ => cases hsame
        | file bytes =>
          cases new with
          | folder _ => cases hsame
          | file _ =>
            cases endsInSlash path.text with
            | true => exact .error _
            | false => exact .ok (hput (by simp))

/-- A folder is made with the same success. -/
theorem makeFolder (h : Relisted disk other) (path : Path) :
    SameChange (disk.makeFolder path) (other.makeFolder path) := by
  unfold Disk.makeFolder
  rw [h.target]
  cases htarget : disk.target path with
  | error fault => exact .error fault
  | ok target =>
    cases target with
    | standing place => exact .error _
    | entry above name =>
      obtain ⟨-, front, -, -, hfolder⟩ := target_eq_entry_iff.mp htarget
      have hsight := h.sights (above ++ [name])
      dsimp only
      cases hold : disk.tree.get? (above ++ [name]) with
      | none =>
        have hnone : disk.tree.sightAt? (above ++ [name]) = none := Option.map_eq_none_iff.mpr hold
        rw [Option.map_eq_none_iff.mp (hsight.trans hnone)]
        exact .ok (h.set_folder hfolder hnone)
      | some old =>
        rw [sightAt?, sightAt?, hold] at hsight
        obtain ⟨new, hnew, -⟩ := Option.map_eq_some_iff.mp hsight
        rw [hnew]
        exact .error _

end Relisted

end Disk

/-- Two runs came to the same, and what they left is related. -/
def SameRun {σ α : Type} (related : σ → σ → Prop) (first second : σ × α) : Prop :=
  related first.1 second.1 ∧ second.2 = first.2

theorem SameRun.cases {σ α : Type} {related : σ → σ → Prop} {first second : σ × α}
    (h : SameRun related first second) :
    ∃ left left' answer, first = (left, answer) ∧ second = (left', answer) ∧ related left left' :=
  ⟨first.1, second.1, first.2, rfl, Prod.ext rfl h.2, h.1⟩

namespace Disk.Relisted

variable {disk other : Disk}

theorem makeFoldersUp (h : Relisted disk other) (paths : List Path) :
    SameRun Relisted (disk.makeFoldersUp paths) (other.makeFoldersUp paths) := by
  induction paths with
  | nil => exact ⟨h, rfl⟩
  | cons path above ih =>
    rw [Disk.makeFoldersUp, Disk.makeFoldersUp, h.isFolder]
    rcases (h.makeFolder path).cases with ⟨fault, hfirst, hsecond⟩ | ⟨_, _, hfirst, hsecond, hmade⟩
    · rw [hfirst, hsecond]
      cases fault with
      | notFound =>
        -- the folders above are made first, and then this one is tried again
        obtain ⟨made, made', answer, hfirst, hsecond, hmade⟩ := ih.cases
        dsimp only
        rw [hfirst, hsecond]
        cases answer with
        | error fault => exact ⟨hmade, rfl⟩
        | ok _ =>
          dsimp only
          rw [hmade.isFolder]
          rcases (hmade.makeFolder path).cases with
            ⟨fault, hfirst, hsecond⟩ | ⟨_, _, hfirst, hsecond, hlast⟩
          · rw [hfirst, hsecond]
            exact ⟨hmade, rfl⟩
          · rw [hfirst, hsecond]
            exact ⟨hlast, rfl⟩
      | _ => exact ⟨h, rfl⟩
    · rw [hfirst, hsecond]
      exact ⟨hmade, rfl⟩

/-- Folders are made with the same success. -/
theorem makeFolders (h : Relisted disk other) (path : Path) :
    SameRun Relisted (disk.makeFolders path) (other.makeFolders path) :=
  h.makeFoldersUp path.ancestors

end Disk.Relisted

/-! ### Output folders -/

namespace OutputFolder

/-- The output folders differ at most in the order in which their disks list folders. -/
structure Relisted (folder other : OutputFolder) : Prop where
  /-- The path is the same. -/
  root : other.root = folder.root
  /-- The index is the same. -/
  index : other.index = folder.index
  /-- The disks differ at most in their listings. -/
  disk : folder.disk.Relisted other.disk

namespace Relisted

variable {folder other : OutputFolder}

theorem pathOf (h : Relisted folder other) (file : SourceFile) :
    other.pathOf file = folder.pathOf file := by
  rw [OutputFolder.pathOf, OutputFolder.pathOf, h.root]

theorem holds (h : Relisted folder other) (file : SourceFile) :
    other.holds file = folder.holds file := by
  unfold OutputFolder.holds
  rw [h.pathOf, h.disk.readText]

theorem remember (h : Relisted folder other) (file : SourceFile) :
    Relisted (folder.remember file) (other.remember file) :=
  ⟨h.root, congrArg (Provenance.record · file) h.index, h.disk⟩

theorem makeFolders (h : Relisted folder other) (path : Path) :
    SameRun Relisted (folder.makeFolders path) (other.makeFolders path) := by
  obtain ⟨made, made', answer, hfirst, hsecond, hmade⟩ := (h.disk.makeFolders path).cases
  rw [OutputFolder.makeFolders, OutputFolder.makeFolders, hfirst, hsecond]
  cases answer with
  | error fault => exact ⟨⟨h.root, h.index, hmade⟩, rfl⟩
  | ok _ => exact ⟨⟨h.root, h.index, hmade⟩, rfl⟩

theorem writeText (h : Relisted folder other) (path : Path) (text : String) :
    SameRun Relisted (folder.writeText path text) (other.writeText path text) := by
  rw [OutputFolder.writeText, OutputFolder.writeText]
  rcases (h.disk.writeFile path text.toUTF8).cases with
    ⟨fault, hfirst, hsecond⟩ | ⟨_, _, hfirst, hsecond, hdone⟩
  · rw [hfirst, hsecond]
    exact ⟨h, rfl⟩
  · rw [hfirst, hsecond]
    exact ⟨⟨h.root, h.index, hdone⟩, rfl⟩

theorem writeBelow (h : Relisted folder other) (above : Option Path) (path : Path)
    (text : String) :
    SameRun Relisted (folder.writeBelow above path text) (other.writeBelow above path text) := by
  cases above with
  | none => exact h.writeText path text
  | some parent =>
    obtain ⟨made, made', answer, hfirst, hsecond, hmade⟩ := (h.makeFolders parent).cases
    rw [OutputFolder.writeBelow, OutputFolder.writeBelow, hfirst, hsecond]
    cases answer with
    | error problem => exact ⟨hmade, rfl⟩
    | ok _ => exact hmade.writeText path text

/-- A file is taken with the same outcome. -/
theorem emit (h : Relisted folder other) (file : SourceFile) :
    SameRun Relisted (folder.emit file) (other.emit file) := by
  rw [OutputFolder.emit, OutputFolder.emit, h.holds, h.pathOf]
  split
  · exact ⟨h.remember file, rfl⟩
  · obtain ⟨left, left', answer, hfirst, hsecond, hleft⟩ :=
      (h.writeBelow (folder.pathOf file).parent? (folder.pathOf file) file.code).cases
    dsimp only
    rw [hfirst, hsecond]
    cases answer with
    | error problem => exact ⟨hleft, rfl⟩
    | ok _ => exact ⟨hleft.remember file, rfl⟩

/-- The index is written with the same success. -/
theorem writeIndex (h : Relisted folder other) :
    SameRun Relisted folder.writeIndex other.writeIndex := by
  obtain ⟨left, left', answer, hfirst, hsecond, hleft⟩ :=
    (h.writeBelow (some folder.root) (folder.root.push Provenance.fileName)
      folder.index.text).cases
  rw [OutputFolder.writeIndex, OutputFolder.writeIndex, h.root, h.index, hfirst, hsecond]
  cases answer with
  | error problem => exact ⟨hleft, rfl⟩
  | ok _ => exact ⟨hleft, rfl⟩

/-- Files are taken one after the other with the same outcomes. -/
theorem emitAll (h : Relisted folder other) (summary : Summary) (files : List SourceFile) :
    SameRun Relisted (Wiring.emitAll sink summary files folder)
      (Wiring.emitAll sink summary files other) := by
  induction files generalizing folder other summary with
  | nil => exact ⟨h, rfl⟩
  | cons file rest ih =>
    obtain ⟨next, next', answer, hfirst, hsecond, hnext⟩ := (h.emit file).cases
    rw [Wiring.emitAll, Wiring.emitAll, sink_emit, sink_emit, hfirst, hsecond]
    cases answer with
    | error problem => exact ⟨hnext, rfl⟩
    | ok outcome => exact ih hnext _

end Relisted

end OutputFolder

/-! ### Passes -/

namespace Disk.Relisted

variable {disk other : Disk}

/-- A pass into an output folder comes to the same. -/
theorem emitInto (h : Relisted disk other) (settings : Settings) (manifests : List Manifest)
    (out : Path) :
    SameRun Relisted (emitInto settings manifests out disk)
      (emitInto settings manifests out other) := by
  have hfresh : (OutputFolder.fresh disk out).Relisted (OutputFolder.fresh other out) :=
    ⟨rfl, rfl, h⟩
  rw [Wiring.emitInto, Wiring.emitInto, run, run]
  cases filesOf settings (.manifests manifests) with
  | error problem => exact ⟨h, rfl⟩
  | ok files =>
    obtain ⟨folder, folder', answer, hfirst, hsecond, hfolder⟩ :=
      (hfresh.emitAll .empty files).cases
    dsimp only
    rw [hfirst, hsecond]
    cases answer with
    | error problem => exact ⟨hfolder.disk, rfl⟩
    | ok summary =>
      obtain ⟨left, left', answer, hfirst, hsecond, hleft⟩ := hfolder.writeIndex.cases
      dsimp only
      rw [hfirst, hsecond]
      cases answer with
      | error problem => exact ⟨hleft.disk, rfl⟩
      | ok _ => exact ⟨hleft.disk, rfl⟩

/-- A folder is the same but for its listing. -/
theorem exists_folder (h : Relisted disk other) {path : Path}
    {entries : List (String × FileTree)}
    (hfound : disk.find path = .ok (FileTree.folder entries)) :
    ∃ relisted, other.find path = .ok (FileTree.folder relisted) ∧
      ∀ place, (FileTree.folder relisted).sightAt? place =
        (FileTree.folder entries).sightAt? place := by
  obtain ⟨above, hlocate, hget⟩ := find_eq_ok_iff.mp hfound
  have habove : other.tree.sightAt? above = some .folder := by
    rw [h.sights, sightAt?_eq_some_folder]
    exact ⟨entries, hget⟩
  obtain ⟨relisted, hrelisted⟩ := sightAt?_eq_some_folder.mp habove
  refine ⟨relisted, find_eq_ok_iff.mpr ⟨above, (h.locate path).trans hlocate, hrelisted⟩, ?_⟩
  intro place
  have hsight := h.sights (above ++ place)
  rwa [sightAt?, sightAt?, get?_append, get?_append, hrelisted, hget] at hsight

/-- **The same manifests are found in the same order.** -/
theorem manifestsBelow (h : Relisted disk other) (hproper : disk.tree.Proper)
    (hproper' : other.tree.Proper) {folder : Path} {entries : List (String × FileTree)}
    (hfound : disk.find folder = .ok (FileTree.folder entries)) :
    Wiring.manifestsBelow other folder = Wiring.manifestsBelow disk folder := by
  obtain ⟨relisted, hfound', hsights⟩ := h.exists_folder hfound
  obtain ⟨_, -, hget⟩ := find_eq_ok_iff.mp hfound
  obtain ⟨_, -, hget'⟩ := find_eq_ok_iff.mp hfound'
  obtain ⟨places, hplaces, hincreasing, hbelow⟩ :=
    exists_manifestsBelow (hproper.get? hget).1 hfound
  obtain ⟨others, hothers, hincreasing', hbelow'⟩ :=
    exists_manifestsBelow (hproper'.get? hget').1 hfound'
  -- both lists increase, so it is enough that they have the same members
  have hsame : others = places := by
    refine eq_of_increasing_places hincreasing' hincreasing fun place => ?_
    rw [hothers, hplaces, ManifestAt, ManifestAt, bytesAt?_congr (hsights place)]
  rw [hbelow, hbelow', hsame]

theorem manifestsAt (h : Relisted disk other) (hproper : disk.tree.Proper)
    (hproper' : other.tree.Proper) (path : Path) :
    Wiring.manifestsAt other path = Wiring.manifestsAt disk path := by
  rw [Wiring.manifestsAt, Wiring.manifestsAt, h.isFile, h.isFolder]
  cases hfolder : disk.isFolder path with
  | false => rfl
  | true =>
    obtain ⟨place, hlocate, hsight⟩ := isFolder_iff.mp hfolder
    obtain ⟨entries, hget⟩ := sightAt?_eq_some_folder.mp hsight
    rw [h.manifestsBelow hproper hproper' (find_eq_ok_iff.mpr ⟨place, hlocate, hget⟩)]

theorem loadManifests (h : Relisted disk other) (paths : List Path) :
    Wiring.loadManifests other paths = Wiring.loadManifests disk paths := by
  induction paths with
  | nil => rfl
  | cons path rest ih =>
    rw [Wiring.loadManifests, Wiring.loadManifests, loadManifest, loadManifest, h.readText, ih]

/-- **Generating from a path comes to the same**, and leaves disks that differ at most in their
listings. -/
theorem generatePath (h : Relisted disk other) (hproper : disk.tree.Proper)
    (hproper' : other.tree.Proper) (settings : Settings) (path out : Path) :
    SameRun Relisted (Wiring.generatePath settings path out disk)
      (Wiring.generatePath settings path out other) := by
  rw [Wiring.generatePath, Wiring.generatePath, h.manifestsAt hproper hproper']
  cases Wiring.manifestsAt disk path with
  | error message => exact ⟨h, rfl⟩
  | ok paths =>
    dsimp only
    rw [h.loadManifests]
    cases Wiring.loadManifests disk paths with
    | error problem => exact ⟨h, rfl⟩
    | ok manifests =>
      obtain ⟨left, left', answer, hfirst, hsecond, hleft⟩ :=
        (h.emitInto settings manifests out).cases
      dsimp only
      rw [hfirst, hsecond]
      cases answer with
      | error problem => exact ⟨hleft, rfl⟩
      | ok summary => exact ⟨hleft, rfl⟩

end Disk.Relisted

/-! ### Any order -/

open Disk (pathBelow find_eq_ok_iff)

/-- **The order of listing has no effect.**  Whatever the order in which folders list their entries,
and in which a walk comes upon them, the manifests in a folder are its files that are manifests by
their names, each of them once, with paths that increase component by component; so a pass over
the folder comes to the same. -/
theorem manifestsBelow_any_order {disk other : Disk} (hproper : disk.tree.Proper)
    (hproper' : other.tree.Proper) (hrelisted : disk.Relisted other) {folder : Path}
    {entries : List (String × FileTree)}
    (hfound : disk.find folder = .ok (FileTree.folder entries)) :
    (∃ places : List (List String),
      (∀ place, place ∈ places ↔ (FileTree.folder entries).ManifestAt place) ∧
      places.Pairwise (List.Lex (· < ·)) ∧
      (∀ place ∈ places, (pathBelow folder place).components =
        folder.components ++ place.map .entry) ∧
      manifestsBelow disk folder = places.map (pathBelow folder)) ∧
    (manifestsBelow disk folder).Pairwise (fun path next => path.le next ∧ ¬ next.le path) ∧
    (∀ walk, (FileTree.folder entries).Walk walk →
      manifestsOfWalk folder walk = manifestsBelow disk folder) ∧
    manifestsBelow other folder = manifestsBelow disk folder ∧
    loadManifests other (manifestsBelow other folder) =
      loadManifests disk (manifestsBelow disk folder) ∧
    ∀ settings out,
      (generatePath settings folder out other).2 = (generatePath settings folder out disk).2 ∧
      (generatePath settings folder out disk).1.Relisted
        (generatePath settings folder out other).1 := by
  obtain ⟨_, -, hget⟩ := find_eq_ok_iff.mp hfound
  have hentries := (hproper.get? hget).1
  have hsame := hrelisted.manifestsBelow hproper hproper' hfound
  obtain ⟨places, hplaces, hincreasing, hbelow⟩ := exists_manifestsBelow hentries hfound
  have hnames : ∀ place ∈ places, ∀ name ∈ place, IsName name := by
    intro place hplace
    obtain ⟨content, hcontent⟩ := Option.isSome_iff_exists.mp ((hplaces place).mp hplace).1
    exact (hentries.get? (sightAt?_eq_some_file.mp (bytesAt?_eq_some.mp hcontent))).2
  refine ⟨⟨places, hplaces, hincreasing, fun place hplace => components_pathBelow folder
    (hnames place hplace), hbelow⟩, ?_, fun walk hwalk => manifestsOfWalk_eq hentries hfound hwalk,
    hsame, by rw [hsame, hrelisted.loadManifests], fun settings out => ?_⟩
  · rw [hbelow, List.pairwise_map]
    refine hincreasing.imp_of_mem fun {place next} hplace hnext hlt => ?_
    rw [le_pathBelow folder (hnames place hplace) (hnames next hnext),
      le_pathBelow folder (hnames next hnext) (hnames place hplace), decide_eq_true_iff,
      decide_eq_true_iff, not_le]
    exact ⟨le_of_lt (a := place) (b := next) hlt, hlt⟩
  · obtain ⟨hleft, hending⟩ := hrelisted.generatePath hproper hproper' settings folder out
    exact ⟨hending, hleft⟩

/-- The same stands in a folder in whatever order it lists its entries. -/
theorem FileTree.Proper.sightAt?_perm {entries others : List (String × FileTree)}
    (h : (FileTree.folder entries).Proper) (hperm : others.Perm entries) (place : List String) :
    (FileTree.folder others).sightAt? place = (FileTree.folder entries).sightAt? place := by
  cases place with
  | nil => rfl
  | cons name rest =>
    cases h with
    | folder distinct _ _ =>
      have hlookup : others.lookup name = entries.lookup name := by
        refine Option.ext fun below => ?_
        rw [Json.lookup_eq_some_iff_mem distinct,
          Json.lookup_eq_some_iff_mem ((hperm.map Prod.fst).nodup_iff.mpr distinct)]
        exact hperm.mem_iff
      rw [sightAt?, sightAt?, get?_cons, get?_cons, entry?, entry?, FileTree.entries,
        FileTree.entries, hlookup]

/-- A file without properties. -/
def emptyFile : FileTree := .file "[]".toUTF8

/-- A folder with a manifest and an index. -/
def innerFolder : FileTree :=
  .folder [("x.json", emptyFile), (".autowire-provenance.json", emptyFile)]

/-- Entries among which the order by components is not that of the texts of the paths. -/
def mixedEntries : List (String × FileTree) :=
  [("b", innerFolder), ("b-c.json", emptyFile), (".json", emptyFile), ("notes.txt", emptyFile)]

/-- A name that starts like that of a folder comes after all that is in the folder. -/
theorem manifestsBelow_any_order_mixed :
    (FileTree.folder mixedEntries).Proper ∧ (FileTree.folder mixedEntries.reverse).Proper ∧
      Disk.Relisted ⟨.folder mixedEntries, []⟩ ⟨.folder mixedEntries.reverse, []⟩ ∧
      Disk.find ⟨.folder mixedEntries, []⟩ ⟨"."⟩ = .ok (.folder mixedEntries) ∧
      manifestsBelow ⟨.folder mixedEntries.reverse, []⟩ ⟨"."⟩ =
        [⟨"./b/x.json"⟩, ⟨"./b-c.json"⟩] ∧
      manifestsOfWalk ⟨"."⟩ ((FileTree.folder mixedEntries).walkFrom []).reverse =
        [⟨"./b/x.json"⟩, ⟨"./b-c.json"⟩] := by
  have hfile : emptyFile.Proper := .file _
  have hinner : innerFolder.Proper := .folder (by decide) (by decide) (by simp [hfile])
  have hbelow : ∀ entry ∈ mixedEntries, entry.2.Proper := by
    simp [mixedEntries, hfile, hinner]
  have hproper : (FileTree.folder mixedEntries).Proper := .folder (by decide) (by decide) hbelow
  have hproper' : (FileTree.folder mixedEntries.reverse).Proper :=
    .folder (by decide) (by decide) fun entry hmem => hbelow entry (List.mem_reverse.mp hmem)
  have hrelisted : Disk.Relisted ⟨.folder mixedEntries, []⟩ ⟨.folder mixedEntries.reverse, []⟩ :=
    ⟨rfl, hproper.sightAt?_perm (List.reverse_perm _)⟩
  have hfound : Disk.find ⟨.folder mixedEntries, []⟩ ⟨"."⟩ = .ok (.folder mixedEntries) := rfl
  have hmanifests : (Disk.filesBelow ⟨.folder mixedEntries, []⟩ ⟨"."⟩).filter isManifest =
      [⟨"./b/x.json"⟩, ⟨"./b-c.json"⟩] := by decide +kernel
  have hlisted : manifestsBelow ⟨.folder mixedEntries, []⟩ ⟨"."⟩ =
      [⟨"./b/x.json"⟩, ⟨"./b-c.json"⟩] := by
    rw [manifestsBelow, manifestsAmong, hmanifests,
      List.mergeSort_of_pairwise (by decide +kernel)]
  obtain ⟨-, -, hwalks, hother, -⟩ :=
    manifestsBelow_any_order hproper hproper' hrelisted hfound
  exact ⟨hproper, hproper', hrelisted, hfound, hother.trans hlisted,
    (hwalks _ (hproper.walk.perm (List.reverse_perm _))).trans hlisted⟩

end Wiring
