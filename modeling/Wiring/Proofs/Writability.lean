import Wiring.Proofs.FolderMaking
import Wiring.Proofs.OutputFolders

/-!
# When an output folder takes a file

Whether a file is taken depends on what stands on the way to its folder and at its own place,
and on nothing else.  It is not taken if a file stands on the way, or if its place is that of a
folder, either one that is there or one that its own path needs.

## Main definitions

* `SourceFile.wayBelow`, `Disk.placeOf` — the steps to the folder of a file, and its place.
* `Disk.Occupied`, `Disk.Writable` — a file cannot be taken because of a folder, or can be taken.

## Main results

* `OutputFolder.emit_of_writable`, `OutputFolder.writable_of_emit` — it is taken exactly then.
* `OutputFolder.emit_of_not_clear`, `OutputFolder.emit_of_blocked`,
  `OutputFolder.emit_of_occupied` — the problem otherwise.
* `OutputFolder.folder_of_emit`, `OutputFolder.emit_of_start` — which folders are made.
-/

namespace Wiring

open FileTree Wiring.Path

/-! ### Where a file belongs on a disk -/

namespace SourceFile

variable {file other : SourceFile}

/-- The steps to the folder of a file below an output folder. -/
def wayBelow (root : Path) (file : SourceFile) : List Hop :=
  root.hops ++ (packageSegments file.package).map .down

/-- The path of a file takes these steps, and one to the file. -/
theorem Slashless.hops_push (h : file.Slashless) (root : Path) :
    (root.push file.relativePath.text).hops =
      file.wayBelow root ++ [.down (file.className ++ ".kt")] := by
  rw [Path.hops_push root h.isAbsolute_relativePath]
  change root.hops ++ file.relativePath.hops = _
  rw [h.hops_relativePath, names, List.map_append, wayBelow, List.append_assoc]
  rfl

theorem Slashless.endsIn_push (h : file.Slashless) (root : Path) :
    (root.push file.relativePath.text).EndsIn (file.className ++ ".kt") := by
  obtain ⟨stem, hstem⟩ := file.exists_endsIn root
  obtain ⟨front, hfront⟩ := hstem.exists_hops
  have hlast := (List.append_inj' ((h.hops_push root).symm.trans hfront) rfl).2
  rwa [Hop.down.inj (List.singleton_inj.mp hlast)]

end SourceFile

namespace Disk

variable {disk : Disk} {root : Path} {file other : SourceFile}

theorem start_push (h : file.Slashless) (disk : Disk) (root : Path) :
    disk.start (root.push file.relativePath.text) = disk.start root := by
  rw [start, start, isAbsolute_push root h.isAbsolute_relativePath]

/-- The place of a file of an output folder. -/
def placeOf (disk : Disk) (root : Path) (file : SourceFile) : List String :=
  arrival (disk.start root) (file.wayBelow root) ++ [file.className ++ ".kt"]

theorem placeOf_eq (disk : Disk) (root : Path) (file : SourceFile) :
    disk.placeOf root file = arrival (disk.start root) root.hops ++ file.names := by
  rw [placeOf, SourceFile.wayBelow, arrival_append, arrival_down, SourceFile.names,
    List.append_assoc]

/-- Different relative paths lead to different places. -/
theorem relativePath_of_placeOf (h : disk.placeOf root file = disk.placeOf root other) :
    file.relativePath = other.relativePath := by
  rw [placeOf_eq, placeOf_eq] at h
  rw [SourceFile.relativePath_eq, SourceFile.relativePath_eq, List.append_cancel_left h]

/-- A name with the extension of generated files is not that of a folder of a package. -/
theorem extension_not_mem (name package : String) :
    name ++ ".kt" ∉ SourceFile.packageSegments package := by
  intro hmem
  obtain ⟨piece, hpiece, heq⟩ := List.mem_map.mp hmem
  have hdot : '.' ∉ piece := Text.not_mem_of_mem_segments (List.mem_filter.mp hpiece).1
  rw [← String.toList_inj, String.toList_ofList] at heq
  rw [heq, String.toList_append] at hdot
  exact hdot (List.mem_append_right _ (by decide))

/-- **No folder of a package is the place of a file**: what is on the way to any file and is the
place of a file is on the way to the output folder, and so on the way to that file as well. -/
theorem onWay_of_onWay_placeOf
    (h : OnWay (disk.start root) (other.wayBelow root) (disk.placeOf root file)) :
    OnWay (disk.start root) (file.wayBelow root) (disk.placeOf root file) := by
  rcases onWay_append_iff.mp h with hroot | hnames
  · exact hroot.mono (List.prefix_append root.hops _)
  · obtain ⟨first, hfirst, heq⟩ := onWay_down_iff.mp hnames
    rw [placeOf_eq] at heq
    have hname : file.className ++ ".kt" ∈ first :=
      List.append_cancel_left heq ▸ List.mem_append_right _ List.mem_cons_self
    exact absurd (hfirst.subset hname) (extension_not_mem _ _)

/-- The place of the file is that of a folder, one that is there or one on the way to the file. -/
def Occupied (disk : Disk) (root : Path) (file : SourceFile) : Prop :=
  disk.tree.sightAt? (disk.placeOf root file) = some .folder ∨
    OnWay (disk.start root) (file.wayBelow root) (disk.placeOf root file)

/-- **The file can be taken**: no file stands on the way to it, and its place is not that of a
folder. -/
structure Writable (disk : Disk) (root : Path) (file : SourceFile) : Prop where
  /-- The way starts in a folder. -/
  start : disk.tree.sightAt? (disk.start root) = some .folder
  /-- No file stands on the way. -/
  clear : Clear disk.tree (disk.start root) (file.wayBelow root)
  /-- The place is not that of a folder. -/
  vacant : ¬ Occupied disk root file

theorem writable_iff_and :
    Writable disk root file ↔
      disk.tree.sightAt? (disk.start root) = some .folder ∧
        Clear disk.tree (disk.start root) (file.wayBelow root) ∧ ¬ Occupied disk root file :=
  ⟨fun h => ⟨h.start, h.clear, h.vacant⟩, fun h => ⟨h.1, h.2.1, h.2.2⟩⟩

end Disk

/-! ### Taking a file -/

namespace OutputFolder

open Disk

variable {folder done : OutputFolder} {file : SourceFile} {outcome : Outcome}

/-- The path above that of a file leads to its folder. -/
theorem exists_fronts (hfile : file.Slashless) (folder : OutputFolder) :
    ∃ parent, (folder.pathOf file).parent? = some parent ∧
      Fronts parent (folder.pathOf file) (file.wayBelow folder.root) :=
  Disk.exists_fronts (hfile.endsIn_push folder.root) (hfile.hops_push folder.root)

/-- What taking a file does unless it holds its text already. -/
theorem emit_of_not_holds {parent : Path} (hparent : (folder.pathOf file).parent? = some parent)
    (h : folder.holds file = false) :
    folder.emit file =
      match folder.disk.makeFolders parent with
      | (made, .error fault) => ({ folder with disk := made }, .error (.disk parent fault))
      | (made, .ok ()) =>
          match made.writeFile (folder.pathOf file) file.code.toUTF8 with
          | .error fault =>
              ({ folder with disk := made }, .error (.disk (folder.pathOf file) fault))
          | .ok disk => ({ folder with disk }.remember file, .ok .written) := by
  rw [emit, h, if_neg Bool.false_ne_true]
  simp only [hparent, writeBelow, makeFolders, writeText]
  rcases folder.disk.makeFolders parent with ⟨made, fault | done⟩
  · rfl
  · dsimp only
    cases made.writeFile (folder.pathOf file) file.code.toUTF8 <;> rfl

/-- The path of a file leads to its place. -/
theorem locate_pathOf (hfile : file.Slashless) {disk : Disk} {root : Path} {place : List String}
    (h : disk.locate (root.push file.relativePath.text) = .ok place) :
    place = disk.placeOf root file ∧
      walk disk.tree (disk.start root) (file.wayBelow root) =
        .ok (arrival (disk.start root) (file.wayBelow root)) ∧
      disk.tree.sightAt? (arrival (disk.start root) (file.wayBelow root)) = some .folder := by
  obtain ⟨above, hwalk, hfolder, -, hplace⟩ :=
    (locate_endsIn (hfile.endsIn_push root) (hfile.hops_push root)).mp h
  rw [start_push hfile] at hwalk
  obtain rfl := eq_arrival_of_walk hwalk
  exact ⟨hplace, hwalk, hfolder⟩

theorem placeOf_eq_of_evolves {written : List String → Prop} {before after : Disk}
    (h : Evolves written before after) (root : Path) (file : SourceFile) :
    after.placeOf root file = before.placeOf root file := by
  rw [placeOf, placeOf, h.start]

/-- Without files on the way the folder of a file is there once it was asked for. -/
theorem exists_makeFolders (hfile : file.Slashless) {parent : Path}
    (hfronts : Fronts parent (folder.pathOf file) (file.wayBelow folder.root))
    (hstart : folder.disk.tree.sightAt? (folder.disk.start folder.root) = some .folder)
    (hclear : Clear folder.disk.tree (folder.disk.start folder.root)
      (file.wayBelow folder.root)) :
    ∃ made, folder.disk.makeFolders parent = (made, .ok ()) ∧
      walk made.tree (made.start folder.root) (file.wayBelow folder.root) =
        .ok (arrival (folder.disk.start folder.root) (file.wayBelow folder.root)) ∧
      made.tree.sightAt? (arrival (folder.disk.start folder.root) (file.wayBelow folder.root)) =
        some .folder := by
  rw [← start_push hfile] at hstart hclear
  obtain ⟨made, hmade⟩ := hfronts.makeFolders_of_clear hstart hclear
  have hseries := evolves_of_makeFolders hmade
  obtain ⟨hwalk, hfolder⟩ := hfronts.walk_of_makeFolders hstart hmade
  rw [pathOf, start_push hfile] at hwalk hfolder
  exact ⟨made, hmade, by rwa [hseries.start], hfolder⟩

/-- **Only folders on the way to a file are made** when it is taken, or is not. -/
theorem folder_of_emit (hfile : file.Slashless) {place : List String}
    (h : (folder.emit file).1.disk.tree.sightAt? place = some .folder) :
    folder.disk.tree.sightAt? place = some .folder ∨
      OnWay (folder.disk.start folder.root) (file.wayBelow folder.root) place := by
  obtain ⟨parent, hparent, hfronts⟩ := exists_fronts hfile folder
  have hmade := hfronts.folder_of_makeFolders folder.disk place
  rw [pathOf, start_push hfile] at hmade
  cases hholds : folder.holds file with
  | true =>
    rw [emit, hholds, if_pos rfl] at h
    exact .inl h
  | false =>
    rw [emit_of_not_holds hparent hholds] at h
    split at h
    · rename_i made fault hmake
      rw [hmake] at hmade
      exact hmade h
    · rename_i made hmake
      rw [hmake] at hmade
      split at h
      · exact hmade h
      · rename_i disk hwrite
        obtain ⟨above, -, hfolder, hold, rfl⟩ := (writeFile_eq_ok_iff
          (hfile.endsIn_push folder.root) (hfile.hops_push folder.root)).mp hwrite
        refine hmade ?_
        change (made.set (above ++ [file.className ++ ".kt"]) _).tree.sightAt? place = _ at h
        rw [sightAt?_set_file _ hfolder hold] at h
        split at h
        · cases h
        · exact h

/-- From a place where no folder stands nothing is done at all. -/
theorem emit_of_start (hfile : file.Slashless)
    (hstart : folder.disk.tree.sightAt? (folder.disk.start folder.root) ≠ some .folder) :
    (folder.emit file).1.disk = folder.disk := by
  obtain ⟨parent, hparent, hfronts⟩ := exists_fronts hfile folder
  have hmade := hfronts.makeFolders_of_start folder.disk
  rw [pathOf, start_push hfile] at hmade
  cases hholds : folder.holds file with
  | true =>
    rw [emit, hholds, if_pos rfl]
    rfl
  | false =>
    rw [emit_of_not_holds hparent hholds]
    have hsame := hmade hstart
    split
    · rename_i made fault hmake
      rwa [hmake] at hsame
    · rename_i made hmake
      rw [hmake] at hsame
      obtain rfl : made = folder.disk := hsame
      split
      · rfl
      · rename_i disk hwrite
        obtain ⟨above, hwalk, hfolder, -, -⟩ := (writeFile_eq_ok_iff
          (hfile.endsIn_push folder.root) (hfile.hops_push folder.root)).mp hwrite
        rw [start_push hfile] at hwalk
        exact absurd (folder_of_onWay hwalk hfolder (onWay_start _ _)) hstart

/-- A file that was taken could be taken. -/
theorem writable_of_emit (hfile : file.Slashless) (h : folder.emit file = (done, .ok outcome)) :
    Writable folder.disk folder.root file := by
  obtain ⟨-, -, place, hlocate, hbytes, hseries⟩ := emit_ok h
  obtain ⟨rfl, hwalk, hfolder⟩ := locate_pathOf hfile hlocate
  rw [hseries.start] at hwalk hfolder
  rw [placeOf_eq_of_evolves hseries] at hbytes
  have hfile' := bytesAt?_eq_some.mp hbytes
  constructor
  · -- had no folder stood at the start, nothing would have been done
    by_contra hstart
    have hsame : done.disk = folder.disk := by
      rw [← emit_of_start hfile hstart, h]
    rw [hsame] at hwalk hfolder
    exact hstart (folder_of_onWay hwalk hfolder (onWay_start _ _))
  · intro other hother
    rw [Option.eq_none_iff_forall_ne_some]
    intro old hold
    obtain ⟨new, hnew⟩ := hseries.exists_bytesAt? hold
    have hnone := clear_of_walk hwalk hfolder other hother
    rw [hnew] at hnone
    cases hnone
  · rintro (hold | hway)
    · rw [hseries.grows.folders _ hold] at hfile'
      cases hfile'
    · rw [folder_of_onWay hwalk hfolder hway] at hfile'
      cases hfile'

/-- **A file that can be taken is taken.** -/
theorem emit_of_writable (hfile : file.Slashless) (h : Writable folder.disk folder.root file) :
    ∃ done outcome, folder.emit file = (done, .ok outcome) := by
  obtain ⟨parent, hparent, hfronts⟩ := exists_fronts hfile folder
  cases hholds : folder.holds file with
  | true => exact ⟨folder.remember file, .unchanged, by rw [emit, hholds, if_pos rfl]⟩
  | false =>
    obtain ⟨made, hmade, hwalk, hfolder⟩ := exists_makeFolders hfile hfronts h.start h.clear
    have hnew := hfronts.folder_of_makeFolders folder.disk
      (folder.disk.placeOf folder.root file)
    rw [hmade, pathOf, start_push hfile] at hnew
    rw [← start_push hfile] at hwalk
    have hvacant : made.tree.sightAt? (folder.disk.placeOf folder.root file) ≠ some .folder :=
      fun hold => h.vacant (hnew hold)
    have hwrite : made.writeFile (folder.root.push file.relativePath.text) file.code.toUTF8 =
        .ok (made.set (folder.disk.placeOf folder.root file) (.file file.code.toUTF8)) :=
      (writeFile_eq_ok_iff (hfile.endsIn_push folder.root) (hfile.hops_push folder.root)).mpr
        ⟨_, hwalk, hfolder, hvacant, rfl⟩
    rw [emit_of_not_holds hparent hholds, hmade]
    simp only [pathOf, hwrite]
    exact ⟨_, _, rfl⟩

theorem holds_of_not_writable (hfile : file.Slashless)
    (h : ¬ Writable folder.disk folder.root file) : folder.holds file = false := by
  cases hholds : folder.holds file with
  | false => rfl
  | true =>
    have hemit : folder.emit file = (folder.remember file, .ok .unchanged) := by
      rw [emit, hholds, if_pos rfl]
    exact absurd (writable_of_emit hfile hemit) h

/-- A file on the way keeps the folder from being made. -/
theorem emit_of_not_clear (hfile : file.Slashless) {parent : Path}
    (hparent : (folder.pathOf file).parent? = some parent)
    (hstart : folder.disk.tree.sightAt? (folder.disk.start folder.root) = some .folder)
    (hfull : ¬ Clear folder.disk.tree (folder.disk.start folder.root)
      (file.wayBelow folder.root)) :
    ∃ fault, (folder.emit file).2 = .error (.disk parent fault) := by
  obtain ⟨parent', hparent', hfronts⟩ := exists_fronts hfile folder
  obtain rfl : parent = parent' := Option.some.inj (hparent.symm.trans hparent')
  rw [emit_of_not_holds hparent (holds_of_not_writable hfile fun h => hfull h.clear)]
  split
  · exact ⟨_, rfl⟩
  · -- the folder cannot be there: the file is still on the way to it
    rename_i made hmake
    have hseries := evolves_of_makeFolders hmake
    rw [← start_push hfile] at hstart
    obtain ⟨hwalk, hfolder⟩ := hfronts.walk_of_makeFolders hstart hmake
    rw [pathOf, start_push hfile] at hwalk hfolder
    refine absurd (fun other hother => ?_) hfull
    rw [← hseries.bytesAt? not_false]
    exact clear_of_walk hwalk hfolder other hother

/-- The problem that a file on the way leads to. -/
theorem emit_of_blocked (hfile : file.Slashless) {parent : Path} {front back : List Hop}
    {content : ByteArray} (hparent : (folder.pathOf file).parent? = some parent)
    (hstart : folder.disk.tree.sightAt? (folder.disk.start folder.root) = some .folder)
    (hway : file.wayBelow folder.root = front ++ back)
    (hwalk : walk folder.disk.tree (folder.disk.start folder.root) front =
      .ok (arrival (folder.disk.start folder.root) front))
    (hblock : folder.disk.tree.sightAt? (arrival (folder.disk.start folder.root) front) =
      some (.file content)) :
    (folder.emit file).2 = .error (.disk parent (blockFault parent front)) := by
  obtain ⟨parent', hparent', hfronts⟩ := exists_fronts hfile folder
  obtain rfl : parent = parent' := Option.some.inj (hparent.symm.trans hparent')
  have hholds := holds_of_not_writable hfile fun h => not_clear_of_file hway hblock h.clear
  rw [hway] at hfronts
  rw [← start_push hfile] at hstart hwalk hblock
  rw [emit_of_not_holds hparent hholds, hfronts.makeFolders_of_blocked hstart hwalk hblock]

/-- The problem that a folder at the place of the file leads to. -/
theorem emit_of_occupied (hfile : file.Slashless)
    (hstart : folder.disk.tree.sightAt? (folder.disk.start folder.root) = some .folder)
    (hclear : Clear folder.disk.tree (folder.disk.start folder.root) (file.wayBelow folder.root))
    (hold : Occupied folder.disk folder.root file) :
    (folder.emit file).2 = .error (.disk (folder.pathOf file) .isFolder) := by
  obtain ⟨parent, hparent, hfronts⟩ := exists_fronts hfile folder
  have hholds := holds_of_not_writable hfile fun h => h.vacant hold
  obtain ⟨made, hmade, hwalk, hfolder⟩ := exists_makeFolders hfile hfronts hstart hclear
  have hseries := evolves_of_makeFolders hmade
  have hstands : made.tree.sightAt? (folder.disk.placeOf folder.root file) = some .folder := by
    rcases hold with hold | hway
    · exact hseries.grows.folders _ hold
    · rw [hseries.start] at hwalk
      exact folder_of_onWay hwalk hfolder hway
  rw [← start_push hfile] at hwalk
  have hwrite := writeFile_of_folder (hfile.endsIn_push folder.root)
    (hfile.hops_push folder.root) hwalk hfolder hstands file.code.toUTF8
  rw [emit_of_not_holds hparent hholds, hmade]
  simp only [pathOf, hwrite]

end OutputFolder

end Wiring
