import Wiring.Proofs.FolderPasses
import Wiring.Proofs.ManifestSearch

/-!
# Generating again

A run of the command leaves a disk on which the same run finds the same manifests, succeeds again,
and leaves every file as it is.  The second run takes files that are all there, so no problem can
come up; and since both runs take the same files in the same order, a place holds the text of the
same last file after either.

## Main results

* `generatePath_eq_emitted_iff` — what a run of the command that succeeds goes through.
* `loadManifests_again` — the same manifests are found and read.
* `emitInto_again` — the same files are taken.
* `generatePath_again` — running the command again changes no file.
-/

namespace Wiring

open FileTree Disk

/-! ### The command -/

theorem filesOf_eq_ok_iff {settings : Settings} {manifests : List Manifest}
    {files : List SourceFile} :
    filesOf settings (.manifests manifests) = .ok files ↔
      ∃ properties, Manifest.discoverAll settings.symbols.marker manifests = .ok properties ∧
        compile settings properties = .ok files := by
  unfold filesOf PropertySource.discover
  cases hdiscover : Manifest.discoverAll settings.symbols.marker manifests with
  | error fault => simp [hdiscover]
  | ok properties =>
    cases hcompile : compile settings properties <;> simp [hdiscover, hcompile]

theorem emitInto_eq_ok_iff {settings : Settings} {manifests : List Manifest} {out : Path}
    {disk left : Disk} {summary : Summary} :
    emitInto settings manifests out disk = (left, .ok summary) ↔
      ∃ files folder done path, filesOf settings (.manifests manifests) = .ok files ∧
        emitAll OutputFolder.sink .empty files (.fresh disk out) = (folder, .ok summary) ∧
        folder.writeIndex = (done, .ok path) ∧ done.disk = left := by
  unfold emitInto run
  cases filesOf settings (.manifests manifests) with
  | error problem => simp
  | ok files =>
    dsimp only
    rcases hemit : emitAll OutputFolder.sink .empty files (.fresh disk out) with ⟨folder, result⟩
    constructor
    · intro h
      cases result with
      | error problem => simp at h
      | ok taken =>
        rcases hwrite : folder.writeIndex with ⟨done, written⟩
        cases written with
        | error problem => simp [hwrite] at h
        | ok path =>
          obtain ⟨rfl, rfl⟩ : done.disk = left ∧ taken = summary := by simpa [hwrite] using h
          exact ⟨files, folder, done, path, rfl, hemit, hwrite, rfl⟩
    · rintro ⟨files', folder', done, path, hfiles, hemit', hwrite, rfl⟩
      obtain rfl := Except.ok.inj hfiles
      rw [hemit] at hemit'
      obtain ⟨rfl, rfl⟩ := Prod.mk.inj hemit'
      simp only [hwrite]

/-- What a run of the command goes through that succeeds. -/
theorem generatePath_eq_emitted_iff {settings : Settings} {path out root : Path}
    {disk left : Disk} {summary : Summary} :
    generatePath settings path out disk = (left, .emitted root summary) ↔
      root = out ∧ ∃ paths manifests, manifestsAt disk path = .ok paths ∧
        loadManifests disk paths = .ok manifests ∧
        emitInto settings manifests out disk = (left, .ok summary) := by
  unfold generatePath
  cases manifestsAt disk path with
  | error message => simp
  | ok paths =>
    dsimp only
    cases hload : loadManifests disk paths with
    | error problem => simp [hload]
    | ok manifests =>
      dsimp only
      rcases hemit : emitInto settings manifests out disk with ⟨done, result⟩
      cases result with
      | error problem => simp [hload, hemit]
      | ok taken => simp [hload, hemit, and_left_comm, eq_comm]

/-- A pass that succeeds leaves a finished output folder. -/
theorem exists_finished {settings : Settings} {manifests : List Manifest} {out : Path}
    {disk left : Disk} {summary : Summary}
    (h : emitInto settings manifests out disk = (left, .ok summary)) :
    ∃ files done, filesOf settings (.manifests manifests) = .ok files ∧
      OutputFolder.Finished disk out files done ∧ done.disk = left := by
  obtain ⟨files, folder, done, indexPath, hfiles, htaken, hwrite, hleft⟩ :=
    emitInto_eq_ok_iff.mp h
  have hfolder := OutputFolder.filled_emitAll (OutputFolder.filled_fresh disk out) htaken
  exact ⟨files, done, hfiles, hfolder.writeIndex hwrite, hleft⟩

/-! ### Running it again -/

section

variable {settings : Settings} {disk : Disk} {out : Path} {manifests : List Manifest}
  {files : List SourceFile} {done : OutputFolder}

/-- The manifests of a run are found and read again after it. -/
theorem loadManifests_again (hdone : OutputFolder.Finished disk out files done) {path : Path}
    {paths : List Path} (hpaths : manifestsAt disk path = .ok paths)
    (hload : loadManifests disk paths = .ok manifests)
    (hpath : disk.isFile path = true →
      done.disk.locate (out.push Provenance.fileName) ≠ done.disk.locate path) :
    manifestsAt done.disk path = .ok paths ∧ loadManifests done.disk paths = .ok manifests := by
  have hindexPath : done.indexPath = out.push Provenance.fileName := by
    rw [OutputFolder.indexPath, hdone.root]
  have hforeign : ∀ found ∈ paths, isJson found = true ∧
      ∀ place, disk.locate found = .ok place → ¬ done.IndexAt place := by
    intro found hmem
    rcases isJson_of_manifestsAt hpaths with ⟨hfile, rfl, hjson⟩ | ⟨-, hmanifest⟩
    · obtain rfl := List.mem_singleton.mp hmem
      refine ⟨hjson, fun place hplace hindex => hpath hfile ?_⟩
      rw [← hindexPath, hdone.evolves.locate hplace]
      exact hindex
    · have hfound := hmanifest found hmem
      exact ⟨(Bool.and_eq_true_iff.mp hfound).1, fun place hplace =>
        OutputFolder.not_indexAt_of_isManifest hfound hplace⟩
  exact ⟨hdone.manifestsAt hpaths, hdone.loadManifests (fun found hmem => (hforeign found hmem).1)
    (fun found hmem => (hforeign found hmem).2) hload⟩

/-- Files that are all there are taken again, and the index is written again. -/
theorem emitInto_again (hfiles : filesOf settings (.manifests manifests) = .ok files)
    (hdone : OutputFolder.Finished disk out files done) :
    ∃ again folder summary, emitInto settings manifests out done.disk = (again.disk, .ok summary) ∧
      emitAll OutputFolder.sink .empty files (.fresh done.disk out) = (folder, .ok summary) ∧
      OutputFolder.Finished done.disk out files again := by
  have hsame : Evolves (fun _ => False) done.disk (OutputFolder.fresh done.disk out).disk := .refl
  have hlocated : ∀ file ∈ files, (OutputFolder.fresh done.disk out).Located file :=
    fun file hmem => OutputFolder.Located.later hdone.root.symm hsame (hdone.exists_bytesAt? hmem)
  obtain ⟨folder, summary, htaken⟩ := OutputFolder.emitAll_of_located .empty hlocated
  have hfolder := OutputFolder.filled_emitAll (OutputFolder.filled_fresh done.disk out) htaken
  -- the file of the index is there too
  obtain ⟨place, hplace, hbytes⟩ := hdone.written
  have hlater : folder.IndexAt place :=
    hplace.later (hfolder.root.trans hdone.root.symm) hfolder.evolves
  obtain ⟨old, hold⟩ := hfolder.evolves.exists_bytesAt? hbytes
  obtain ⟨again, indexPath, hwrite⟩ := OutputFolder.writeIndex_of_located hlater hold
  refine ⟨again, folder, summary, ?_, htaken, hfolder.writeIndex hwrite⟩
  exact emitInto_eq_ok_iff.mpr ⟨files, folder, again, indexPath, hfiles, htaken, hwrite, rfl⟩

/-- Files with different paths hold their texts, so all of them are left alone. -/
theorem emitAll_again (hdone : OutputFolder.Finished disk out files done)
    (hnodup : (files.map SourceFile.relativePath).Nodup)
    (hslashless : ∀ file ∈ files, file.Slashless) :
    (emitAll OutputFolder.sink .empty files (.fresh done.disk out)).2 =
      .ok ⟨[], files.map SourceFile.relativePath⟩ := by
  refine OutputFolder.emitAll_of_held .empty fun file hmem => ?_
  have hread := hdone.readBytes_of_nodup hnodup hslashless hmem
  rwa [OutputFolder.pathOf, hdone.root] at hread

end

/-- **Running the command again** on what it has left finds the same manifests and properties,
succeeds, and leaves every file as it is, the index included.  If moreover the relative paths of
its files are different and come from names without slashes, the second run writes none of them.
The manifest that the command was given must not be the index of the output folder itself. -/
theorem generatePath_again (settings : Settings) (path out : Path) (disk first : Disk)
    (summary : Summary)
    (hrun : generatePath settings path out disk = (first, .emitted out summary))
    (hpath : disk.isFile path = true →
      first.locate (out.push Provenance.fileName) ≠ first.locate path) :
    ∃ second again paths manifests properties files,
      generatePath settings path out first = (second, .emitted out again) ∧
      manifestsAt disk path = .ok paths ∧ manifestsAt first path = .ok paths ∧
      loadManifests disk paths = .ok manifests ∧ loadManifests first paths = .ok manifests ∧
      Manifest.discoverAll settings.symbols.marker manifests = .ok properties ∧
      compile settings properties = .ok files ∧
      (∀ place, second.tree.bytesAt? place = first.tree.bytesAt? place) ∧
      ((files.map SourceFile.relativePath).Nodup → (∀ file ∈ files, file.Slashless) →
        again = ⟨[], files.map SourceFile.relativePath⟩) := by
  obtain ⟨-, paths, manifests, hpaths, hload, hemit⟩ := generatePath_eq_emitted_iff.mp hrun
  obtain ⟨files, done, hfiles, hdone, rfl⟩ := exists_finished hemit
  obtain ⟨properties, hdiscover, hcompile⟩ := filesOf_eq_ok_iff.mp hfiles
  obtain ⟨hpaths', hload'⟩ := loadManifests_again hdone hpaths hload hpath
  obtain ⟨last, folder, again, hemit', htaken, hlast⟩ := emitInto_again hfiles hdone
  refine ⟨last.disk, again, paths, manifests, properties, files, ?_, hpaths, hpaths', hload, hload',
    hdiscover, hcompile, hdone.bytesAt?_again hlast, ?_⟩
  · exact generatePath_eq_emitted_iff.mpr ⟨rfl, paths, manifests, hpaths', hload', hemit'⟩
  · intro hnodup hslashless
    have hleft := emitAll_again hdone hnodup hslashless
    rw [htaken] at hleft
    exact Except.ok.inj hleft

/-- A folder with a manifest of one property, whose marker is `A`. -/
def manifestDisk : Disk :=
  let text := "[[[\"property\",\"id\",[\"Int\"],\"public\",[\"M\",null,\"screen\"],[[\"A\"]]]]]"
  ⟨.folder [("in", .folder [("m.json", .file text.toUTF8)])], []⟩

/-- How many files a run of the command has written, if it succeeded. -/
def Ending.writtenCount? : Ending → Option Nat
  | .emitted _ summary => some summary.written.length
  | _ => none

/-- The output folder may lie in the folder of manifests. -/
theorem generatePath_again_inside :
    ∃ first second summary again,
      generatePath { symbols := { marker := "A" } } ⟨"in"⟩ ⟨"in/out"⟩ manifestDisk =
        (first, .emitted ⟨"in/out"⟩ summary) ∧
      (manifestDisk.isFile ⟨"in"⟩ = true →
        first.locate (Path.push ⟨"in/out"⟩ Provenance.fileName) ≠ first.locate ⟨"in"⟩) ∧
      summary.written.length = 1 ∧
      generatePath { symbols := { marker := "A" } } ⟨"in"⟩ ⟨"in/out"⟩ first =
        (second, .emitted ⟨"in/out"⟩ again) ∧
      ∀ place, second.tree.bytesAt? place = first.tree.bytesAt? place := by
  have hcount : (generatePath { symbols := { marker := "A" } } ⟨"in"⟩ ⟨"in/out"⟩
      manifestDisk).2.writtenCount? = some 1 := by
    decide +kernel
  have hpath : manifestDisk.isFile ⟨"in"⟩ = false := by decide +kernel
  rcases hrun : generatePath { symbols := { marker := "A" } } ⟨"in"⟩ ⟨"in/out"⟩ manifestDisk with
    ⟨first, ending⟩
  rw [hrun] at hcount
  cases ending with
  | printed files json => cases hcount
  | refused message => cases hcount
  | failed problem => cases hcount
  | emitted root summary =>
    obtain ⟨rfl, -⟩ := generatePath_eq_emitted_iff.mp hrun
    have hother : manifestDisk.isFile ⟨"in"⟩ = true →
        first.locate (Path.push ⟨"in/out"⟩ Provenance.fileName) ≠ first.locate ⟨"in"⟩ := by
      rw [hpath]
      exact fun hfile => nomatch hfile
    obtain ⟨second, again, -, -, -, -, hsecond, -, -, -, -, -, -, hbytes, -⟩ :=
      generatePath_again _ _ _ _ first summary hrun hother
    exact ⟨first, second, summary, again, rfl, hother, Option.some.inj hcount, hsecond, hbytes⟩

end Wiring
