import Mathlib.Logic.Relation
import Wiring.Proofs.DiskPaths
import Wiring.Proofs.PathSteps

/-!
# What operations on a disk change

What an operation does, whether it succeeds or fails halfway, is a series of two kinds of
updates: a new empty folder where nothing stood, and a file where no folder stood.  Nothing is
ever taken away, so what is there stays there, and only the files that are written change.

## Main definitions

* `Disk.Update`, `Disk.Evolves` — one update, and a series of them.

## Main results

* `Disk.Evolves.locate` — a path that leads to a place keeps leading there.
* `Disk.Evolves.bytesAt?` — files that are not written keep their bytes.
* `Disk.Evolves.keptPlaces` — files of other names are listed as before.
* `Disk.evolves_makeFolders`, `Disk.exists_of_writeFile` — what the operations do.
* `Disk.writeFile_of_locate`, `Disk.makeFolders_parent` — a file that is there can be written
  again.
-/

namespace Wiring.Disk

open FileTree Wiring.Path

/-- An update of a disk, in which files are only written at some places. -/
inductive Update (written : List String → Prop) (before : Disk) : Disk → Prop where
  /-- A new empty folder where nothing stood. -/
  | folder {place : List String} {name : String}
      (hfolder : before.tree.sightAt? place = some .folder)
      (hnew : before.tree.sightAt? (place ++ [name]) = none) :
      Update written before (before.set (place ++ [name]) (.folder []))
  /-- A file where no folder stood. -/
  | file {place : List String} {name : String} (content : ByteArray)
      (hfolder : before.tree.sightAt? place = some .folder)
      (hold : before.tree.sightAt? (place ++ [name]) ≠ some .folder)
      (hwritten : written (place ++ [name])) :
      Update written before (before.set (place ++ [name]) (.file content))

/-- One disk comes from another by a series of updates. -/
abbrev Evolves (written : List String → Prop) : Disk → Disk → Prop :=
  Relation.ReflTransGen (Update written)

/-! ### One update -/

theorem entries_eq_nil_of_sightAt?_ne_folder {tree : FileTree} {place : List String}
    (h : tree.sightAt? place ≠ some .folder) :
    ∀ old, tree.get? place = some old → old.entries = [] := by
  intro old hold
  cases old with
  | file content => rfl
  | folder entries => exact absurd (sightAt?_eq_some_folder.mpr ⟨entries, hold⟩) h

/-- What is seen after a folder was made where nothing stood. -/
theorem sightAt?_set_folder {disk : Disk} {place : List String} {name : String}
    (hfolder : disk.tree.sightAt? place = some .folder)
    (hnew : disk.tree.sightAt? (place ++ [name]) = none) (other : List String) :
    (disk.set (place ++ [name]) (.folder [])).tree.sightAt? other =
      if other = place ++ [name] then some .folder else disk.tree.sightAt? other := by
  have hold : disk.tree.sightAt? (place ++ [name]) ≠ some .folder := by simp [hnew]
  exact sightAt?_put hfolder rfl (entries_eq_nil_of_sightAt?_ne_folder hold) other

/-- What is seen after a file was put where no folder stood. -/
theorem sightAt?_set_file {disk : Disk} {place : List String} {name : String} (content : ByteArray)
    (hfolder : disk.tree.sightAt? place = some .folder)
    (hold : disk.tree.sightAt? (place ++ [name]) ≠ some .folder) (other : List String) :
    (disk.set (place ++ [name]) (.file content)).tree.sightAt? other =
      if other = place ++ [name] then some (.file content) else disk.tree.sightAt? other :=
  sightAt?_put hfolder rfl (entries_eq_nil_of_sightAt?_ne_folder hold) other

namespace Update

variable {written : List String → Prop} {before after : Disk}

theorem mono {more : List String → Prop} (hmore : ∀ place, written place → more place)
    (h : Update written before after) : Update more before after := by
  cases h with
  | folder hfolder hnew => exact .folder hfolder hnew
  | file content hfolder hold hwritten => exact .file content hfolder hold (hmore _ hwritten)

theorem current (h : Update written before after) : after.current = before.current := by
  cases h <;> rfl

theorem grows (h : Update written before after) : Grows before.tree after.tree := by
  cases h with
  | @folder place name hfolder hnew =>
    have hsight := sightAt?_set_folder hfolder hnew
    constructor
    · intro other hother
      rw [hsight]
      split
      · rfl
      · exact hother
    · intro other content hother
      refine ⟨content, ?_⟩
      rw [hsight, if_neg, hother]
      rintro rfl
      simp [hnew] at hother
  | @file place name new hfolder hold hwritten =>
    have hsight := sightAt?_set_file new hfolder hold
    constructor
    · intro other hother
      rw [hsight, if_neg, hother]
      rintro rfl
      exact hold hother
    · intro other content hother
      rw [hsight]
      split
      · exact ⟨new, rfl⟩
      · exact ⟨content, hother⟩

/-- A file is as before unless it was written. -/
theorem bytesAt? (h : Update written before after) {place : List String}
    (hplace : ¬ written place) : after.tree.bytesAt? place = before.tree.bytesAt? place := by
  cases h with
  | @folder folder name hfolder hnew =>
    have hsight := sightAt?_set_folder hfolder hnew
    refine Option.ext fun content => ?_
    rw [bytesAt?_eq_some, bytesAt?_eq_some, hsight]
    split
    · rename_i heq
      simp [heq, hnew]
    · rfl
  | @file folder name content hfolder hold hwritten =>
    have hsight := sightAt?_set_file content hfolder hold
    refine bytesAt?_congr ?_
    rw [hsight, if_neg]
    rintro rfl
    exact hplace hwritten

/-- A folder lists the same files whose names pass a test that no written file passes. -/
theorem keptPlaces {keep : String → Bool}
    (hkeep : ∀ place name, written (place ++ [name]) → keep name = false)
    (h : Update written before after) {other : List String} {found : FileTree}
    (hother : before.tree.sightAt? other = some .folder)
    (hfound : before.tree.get? other = some found) :
    ∃ left, after.tree.get? other = some left ∧ left.keptPlaces keep = found.keptPlaces keep := by
  cases h with
  | @folder place name hfolder hnew =>
    have hnone : before.tree.get? (place ++ [name]) = none := Option.map_eq_none_iff.mp hnew
    refine get?_put_kept hfolder ⟨rfl, fun hfile => by cases hfile⟩ (fun old hold => ?_) hfound ?_
    · rw [hnone] at hold
      cases hold
    · rintro rfl
      rw [hnone] at hfound
      cases hfound
  | @file place name content hfolder hold hwritten =>
    have hname := hkeep place name hwritten
    refine get?_put_kept hfolder ⟨rfl, fun _ => hname⟩ (fun old hget => ?_) hfound ?_
    · exact ⟨entries_eq_nil_of_sightAt?_ne_folder hold old hget, fun _ => hname⟩
    · rintro rfl
      exact hold hother

end Update

/-! ### A series of updates -/

namespace Evolves

variable {written : List String → Prop} {before after : Disk}

theorem mono {more : List String → Prop} (hmore : ∀ place, written place → more place)
    (h : Evolves written before after) : Evolves more before after :=
  Relation.ReflTransGen.mono (fun _ _ hupdate => Update.mono hmore hupdate) _ _ h

theorem current (h : Evolves written before after) : after.current = before.current := by
  induction h with
  | refl => rfl
  | tail _ hupdate ih => rw [hupdate.current, ih]

/-- Every path starts where it started. -/
theorem start (h : Evolves written before after) (path : Path) :
    after.start path = before.start path := by
  rw [Disk.start, Disk.start, h.current]

theorem grows (h : Evolves written before after) : Grows before.tree after.tree := by
  induction h with
  | refl => exact ⟨fun _ hsight => hsight, fun _ content hsight => ⟨content, hsight⟩⟩
  | tail _ hupdate ih => exact ih.trans hupdate.grows

/-- A path that leads to a place keeps leading there. -/
theorem locate (h : Evolves written before after) {path : Path} {place : List String}
    (hlocate : before.locate path = .ok place) : after.locate path = .ok place :=
  locate_mono h.grows h.current hlocate

/-- A file is as before unless it was written. -/
theorem bytesAt? (h : Evolves written before after) {place : List String}
    (hplace : ¬ written place) : after.tree.bytesAt? place = before.tree.bytesAt? place := by
  induction h with
  | refl => rfl
  | tail _ hupdate ih => rw [hupdate.bytesAt? hplace, ih]

/-- A file that is there stays there. -/
theorem exists_bytesAt? (h : Evolves written before after) {place : List String}
    {old : ByteArray} (hold : before.tree.bytesAt? place = some old) :
    ∃ new, after.tree.bytesAt? place = some new := by
  obtain ⟨new, hnew⟩ := h.grows.files place old (bytesAt?_eq_some.mp hold)
  exact ⟨new, bytesAt?_eq_some.mpr hnew⟩

/-- A folder lists the same files whose names pass a test that no written file passes. -/
theorem keptPlaces {keep : String → Bool}
    (hkeep : ∀ place name, written (place ++ [name]) → keep name = false)
    (h : Evolves written before after) {other : List String} {found : FileTree}
    (hother : before.tree.sightAt? other = some .folder)
    (hfound : before.tree.get? other = some found) :
    ∃ left, after.tree.get? other = some left ∧ left.keptPlaces keep = found.keptPlaces keep := by
  induction h with
  | refl => exact ⟨found, hfound, rfl⟩
  | tail hseries hupdate ih =>
    obtain ⟨between, hget, hkept⟩ := ih
    obtain ⟨left, hleft, hsame⟩ :=
      hupdate.keptPlaces hkeep ((grows hseries).folders other hother) hget
    exact ⟨left, hleft, hsame.trans hkept⟩

theorem isFile (h : Evolves written before after) {path : Path}
    (hfile : before.isFile path = true) : after.isFile path = true := by
  obtain ⟨place, content, hlocate, hsight⟩ := isFile_iff.mp hfile
  obtain ⟨other, hother⟩ := h.grows.files place content hsight
  exact isFile_iff.mpr ⟨place, other, h.locate hlocate, hother⟩

theorem isFolder (h : Evolves written before after) {path : Path}
    (hfolder : before.isFolder path = true) : after.isFolder path = true := by
  obtain ⟨place, hlocate, hsight⟩ := isFolder_iff.mp hfolder
  exact isFolder_iff.mpr ⟨place, h.locate hlocate, h.grows.folders place hsight⟩

end Evolves

/-! ### Making folders -/

theorem evolves_makeFolder {disk made : Disk} {path : Path}
    (h : disk.makeFolder path = .ok made) : Evolves (fun _ => False) disk made := by
  unfold makeFolder at h
  split at h
  · cases h
  · cases h
  · rename_i folder name htarget
    obtain ⟨-, front, -, -, hfolder⟩ := target_eq_entry_iff.mp htarget
    split at h
    · cases h
    · rename_i hnone
      obtain rfl := Except.ok.inj h
      exact .single (.folder hfolder (Option.map_eq_none_iff.mpr hnone))

theorem evolves_makeFoldersUp (disk : Disk) (paths : List Path) :
    Evolves (fun _ => False) disk (disk.makeFoldersUp paths).1 := by
  induction paths with
  | nil => exact .refl
  | cons path above ih =>
    rw [makeFoldersUp]
    split
    · exact evolves_makeFolder ‹_›
    · split
      · rename_i hmade
        rwa [hmade] at ih
      · rename_i made hmade
        rw [hmade] at ih
        split
        · exact ih.trans (evolves_makeFolder ‹_›)
        · exact ih
    · exact .refl

/-- Making folders writes no file, even if it fails. -/
theorem evolves_makeFolders (disk : Disk) (path : Path) :
    Evolves (fun _ => False) disk (disk.makeFolders path).1 :=
  evolves_makeFoldersUp disk path.ancestors

theorem evolves_of_makeFolders {disk made : Disk} {path : Path} {result : Except DiskFault Unit}
    (h : disk.makeFolders path = (made, result)) : Evolves (fun _ => False) disk made := by
  have hseries := evolves_makeFolders disk path
  rwa [h] at hseries

/-- The steps of the path lead to a folder, or the path is empty. -/
def Stands (disk : Disk) (path : Path) : Prop :=
  path.text = "" ∨
    ∃ folder, walk disk.tree (disk.start path) path.hops = .ok folder ∧
      disk.tree.sightAt? folder = some .folder

theorem isFolder_of_walk {disk : Disk} {path : Path} {folder : List String}
    (htext : path.text ≠ "") (hwalk : walk disk.tree (disk.start path) path.hops = .ok folder)
    (hfolder : disk.tree.sightAt? folder = some .folder) : disk.isFolder path = true := by
  refine isFolder_iff.mpr ⟨folder, locate_eq_ok_iff.mpr ⟨htext, ?_⟩, hfolder⟩
  refine walk_append_eq_ok_iff.mpr ⟨folder, hwalk, walk_idle (fun hop hmem => ?_) hfolder⟩
  split at hmem
  · exact List.mem_singleton.mp hmem
  · cases hmem

/-- A folder that stands already cannot be made. -/
theorem makeFolder_of_walk {disk : Disk} {path : Path} {folder : List String}
    (htext : path.text ≠ "") (hwalk : walk disk.tree (disk.start path) path.hops = .ok folder)
    (hfolder : disk.tree.sightAt? folder = some .folder) :
    disk.makeFolder path = .error .alreadyExists := by
  rcases List.eq_nil_or_concat path.hops with hnil | ⟨front, hop, hhops⟩
  · simp [makeFolder, target, htext, hnil]
  rw [List.concat_eq_append] at hhops
  rw [hhops, walk_append_eq_ok_iff] at hwalk
  obtain ⟨above, habove, hstep⟩ := hwalk
  rw [walk_singleton_eq_ok_iff, step_eq_ok_iff] at hstep
  obtain ⟨hstands, rfl, -⟩ := hstep
  obtain ⟨entries, hentries⟩ := sightAt?_eq_some_folder.mp hstands
  obtain ⟨inside, hinside⟩ := sightAt?_eq_some_folder.mp hfolder
  cases hop with
  | here => simp [makeFolder, target, htext, hhops, habove, hentries]
  | up => simp [makeFolder, target, htext, hhops, habove, hentries]
  | down name =>
    rw [landing] at hinside
    simp [makeFolder, target, htext, hhops, habove, hentries, hinside]

theorem ancestors_empty : ancestors ⟨""⟩ = [] := by decide

theorem exists_ancestors {path : Path} (h : path.text ≠ "") :
    ∃ above, path.ancestors = path :: above := by
  unfold ancestors
  cases path.text.length with
  | zero => exact ⟨[], by simp [ancestorsWithin, h]⟩
  | succ count =>
    rw [ancestorsWithin]
    split <;> simp [h]

/-- A folder that stands is made again by leaving everything as it is. -/
theorem makeFolders_of_stands {disk : Disk} {path : Path} (h : disk.Stands path) :
    disk.makeFolders path = (disk, .ok ()) := by
  by_cases htext : path.text = ""
  · obtain rfl : path = ⟨""⟩ := congrArg Path.mk htext
    rw [makeFolders, ancestors_empty, makeFoldersUp]
  obtain ⟨folder, hwalk, hfolder⟩ := h.resolve_left htext
  obtain ⟨above, habove⟩ := exists_ancestors htext
  rw [makeFolders, habove, makeFoldersUp, makeFolder_of_walk htext hwalk hfolder]
  simp [isFolder_of_walk htext hwalk hfolder]

/-- The folder in which a path ends in a name that is there stands. -/
theorem makeFolders_parent {disk : Disk} {path : Path} {name : String} {place : List String}
    (hname : path.EndsIn name) (hlocate : disk.locate path = .ok place) :
    ∃ parent, path.parent? = some parent ∧ disk.makeFolders parent = (disk, .ok ()) := by
  obtain ⟨parent, hparent, hcases⟩ := exists_parent? hname
  refine ⟨parent, hparent, makeFolders_of_stands ?_⟩
  rcases hcases with ⟨rfl, -⟩ | ⟨-, -, -, -, habsolute, idle, hhops, hidle⟩
  · exact .inl rfl
  · obtain ⟨folder, hwalk, hfolder, -, -⟩ := (locate_endsIn hname hhops).mp hlocate
    obtain ⟨inner, hinner, hrest⟩ := walk_append_eq_ok_iff.mp hwalk
    obtain rfl := eq_of_walk_idle hidle hrest
    refine .inr ⟨folder, ?_, hfolder⟩
    rw [start, habsolute]
    exact hinner

/-- A folder stands in which there is an entry. -/
theorem stands_of_locate_push {disk : Disk} {path : Path} {name : String} {place : List String}
    (hname : IsName name) (h : disk.locate (path.push name) = .ok place) : disk.Stands path := by
  have hhops : (path.push name).hops = path.hops ++ [.down name] := by
    rw [hops_push path hname.startsAtRoot, hname.hops]
  obtain ⟨folder, hwalk, hfolder, -, -⟩ := (locate_endsIn (endsIn_push path hname) hhops).mp h
  rw [start, isAbsolute_push path hname.startsAtRoot] at hwalk
  exact .inr ⟨folder, hwalk, hfolder⟩

/-! ### Writing files -/

section

variable {disk done : Disk} {path : Path} {name : String} {front : List Hop}
  {folder : List String} {content : ByteArray}

/-- A file is not written where a folder stands. -/
theorem writeFile_of_folder (hname : path.EndsIn name) (hfront : path.hops = front ++ [.down name])
    (hwalk : walk disk.tree (disk.start path) front = .ok folder)
    (hfolder : disk.tree.sightAt? folder = some .folder)
    (hold : disk.tree.sightAt? (folder ++ [name]) = some .folder) (content : ByteArray) :
    disk.writeFile path content = .error .isFolder := by
  have htarget : disk.target path = .ok (.entry folder name) :=
    target_eq_entry_iff.mpr ⟨hname.text_ne_empty, front, hfront, hwalk, hfolder⟩
  obtain ⟨entries, hentries⟩ := sightAt?_eq_some_folder.mp hold
  simp only [writeFile, htarget, hentries]

/-- **A file is written** exactly if the folder is there and no other folder stands at its place. -/
theorem writeFile_eq_ok_iff (hname : path.EndsIn name)
    (hfront : path.hops = front ++ [.down name]) :
    disk.writeFile path content = .ok done ↔
      ∃ folder, walk disk.tree (disk.start path) front = .ok folder ∧
        disk.tree.sightAt? folder = some .folder ∧
        disk.tree.sightAt? (folder ++ [name]) ≠ some .folder ∧
        done = disk.set (folder ++ [name]) (.file content) := by
  constructor
  · intro h
    unfold writeFile at h
    split at h
    · cases h
    · cases h
    · rename_i folder last htarget
      obtain ⟨-, front', hfront', hwalk, hfolder⟩ := target_eq_entry_iff.mp htarget
      obtain ⟨rfl, hlast⟩ := List.append_inj' (hfront.symm.trans hfront') rfl
      obtain rfl := Hop.down.inj (List.singleton_inj.mp hlast)
      have hold : disk.tree.sightAt? (folder ++ [name]) ≠ some .folder := by
        rw [Ne, sightAt?_eq_some_folder]
        rintro ⟨entries, hentries⟩
        simp [hentries] at h
      refine ⟨folder, hwalk, hfolder, hold, ?_⟩
      rw [hname.endsInSlash] at h
      split at h <;> simp_all
  · rintro ⟨folder, hwalk, hfolder, hold, rfl⟩
    have htarget : disk.target path = .ok (.entry folder name) :=
      target_eq_entry_iff.mpr ⟨hname.text_ne_empty, front, hfront, hwalk, hfolder⟩
    rw [Ne, sightAt?_eq_some_folder] at hold
    simp only [writeFile, htarget, hname.endsInSlash]
    cases hfound : disk.tree.get? (folder ++ [name]) with
    | none => rfl
    | some found =>
      cases found with
      | file old => rfl
      | folder entries => exact absurd ⟨entries, hfound⟩ hold

end

/-- **What a file that was written changes.**  The path leads to the file now, it has the bytes,
and nothing else was written. -/
theorem exists_of_writeFile {disk done : Disk} {path : Path} {name : String} {content : ByteArray}
    (hname : path.EndsIn name) (h : disk.writeFile path content = .ok done) :
    ∃ place, done.locate path = .ok place ∧ done.tree.bytesAt? place = some content ∧
      Evolves (· = place) disk done := by
  obtain ⟨front, hfront⟩ := hname.exists_hops
  obtain ⟨folder, hwalk, hfolder, hold, rfl⟩ := (writeFile_eq_ok_iff hname hfront).mp h
  have hupdate : Update (· = folder ++ [name]) disk (disk.set (folder ++ [name]) (.file content)) :=
    .file content hfolder hold rfl
  have hsight := sightAt?_set_file content hfolder hold (folder ++ [name])
  rw [if_pos rfl] at hsight
  refine ⟨folder ++ [name], ?_, bytesAt?_eq_some.mpr hsight, .single hupdate⟩
  refine (locate_endsIn hname hfront).mpr ⟨folder, ?_, ?_, by simp [hsight], rfl⟩
  · rw [start, hupdate.current]
    exact walk_mono hupdate.grows hwalk
  · exact hupdate.grows.folders folder hfolder

/-- A file that is there can be written. -/
theorem writeFile_of_locate {disk : Disk} {path : Path} {name : String} {place : List String}
    {old : ByteArray} (hname : path.EndsIn name) (hlocate : disk.locate path = .ok place)
    (hold : disk.tree.bytesAt? place = some old) (content : ByteArray) :
    ∃ done, disk.writeFile path content = .ok done := by
  obtain ⟨front, hfront⟩ := hname.exists_hops
  obtain ⟨folder, hwalk, hfolder, -, rfl⟩ := (locate_endsIn hname hfront).mp hlocate
  have hfile : disk.tree.sightAt? (folder ++ [name]) ≠ some .folder := by
    rw [bytesAt?_eq_some.mp hold]
    simp
  exact ⟨_, (writeFile_eq_ok_iff hname hfront).mpr ⟨folder, hwalk, hfolder, hfile, rfl⟩⟩

end Wiring.Disk
