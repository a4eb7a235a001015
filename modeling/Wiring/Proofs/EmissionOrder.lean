import Mathlib.Data.List.Sort
import Wiring.Proofs.LaterDisks
import Wiring.Proofs.RecordReading

/-!
# The order in which files are taken

Files with different relative paths do not get in each other's way.  Whichever order an output
folder is given them in, the same ones are taken, all files hold the same bytes in the end, and the
index is the same; the path with which there is a problem is the same as well.  Unless the path of
the output folder goes up from a missing folder, every file comes to the same outcome or leads to
the same problem.

## Main definitions

* `OutputFolder.emitEach` — taking files one after the other, going on after a problem.
* `OutputFolder.Tried` — what has become of a disk, said without the order.

## Main results

* `OutputFolder.Tried.emit`, `OutputFolder.tried_emitEach` — one more file, and many of them.
* `OutputFolder.Tried.bytesAt?_eq`, `OutputFolder.Tried.index_eq` — the order leaves no trace.
* `OutputFolder.emitEach_of_perm` — **any two orders compared.**
-/

namespace Wiring

open FileTree Wiring.Path

/-- Keys that increase do not repeat. -/
theorem Json.Increasing.nodup_keys {α : Type} {members : List (String × α)}
    (h : Increasing members) : (members.map Prod.fst).Nodup := by
  refine List.pairwise_map.mpr (h.imp fun hlt heq => ?_)
  rw [heq] at hlt
  exact String.lt_irrefl _ hlt

/-- Members in the order of their keys are told by what is found under each key. -/
theorem Json.eq_of_increasing {α : Type} {first second : List (String × α)}
    (hfirst : Increasing first) (hsecond : Increasing second)
    (h : ∀ key, first.lookup key = second.lookup key) : first = second := by
  let before : String × α → String × α → Prop := fun first second => first.1 < second.1
  have hirrefl : Std.Irrefl before := ⟨fun member => String.lt_irrefl member.1⟩
  have hantisymm : Std.Antisymm before :=
    ⟨fun _ _ hlt hgt => absurd hgt (String.lt_asymm hlt)⟩
  refine List.Pairwise.eq_of_mem_iff (r := before) hfirst hsecond fun member => ?_
  rw [← lookup_eq_some_iff_mem hfirst.nodup_keys, ← lookup_eq_some_iff_mem hsecond.nodup_keys, h]

namespace OutputFolder

open Disk

/-! ### Many files -/

/-- Takes files one after the other and goes on after a problem.  The answer has the outcome of each
file, or the problem that it led to. -/
def emitEach (folder : OutputFolder) :
    List SourceFile → OutputFolder × List (SourceFile × Except Problem Outcome)
  | [] => (folder, [])
  | next :: rest =>
      match folder.emit next with
      | (done, result) =>
          match emitEach done rest with
          | (last, results) => (last, (next, result) :: results)

theorem emitEach_cons (folder : OutputFolder) (file : SourceFile) (rest : List SourceFile) :
    folder.emitEach (file :: rest) =
      (((folder.emit file).1.emitEach rest).1,
        (file, (folder.emit file).2) :: ((folder.emit file).1.emitEach rest).2) := by
  rw [emitEach]

/-- There is one result for each file. -/
theorem map_fst_emitEach (folder : OutputFolder) (files : List SourceFile) :
    (folder.emitEach files).2.map Prod.fst = files := by
  induction files generalizing folder with
  | nil => rfl
  | cons file rest ih => rw [emitEach_cons, List.map_cons, ih]

/-- **What has become of a disk** after an output folder was given some files, said without their
order and from the start alone: those that can be taken there are taken. -/
structure Tried (start : Disk) (root : Path) (files : List SourceFile) (folder : OutputFolder) :
    Prop where
  /-- The folder is where it was. -/
  rooted : folder.root = root
  /-- Only files that can be taken were written, each at its place. -/
  evolves : Evolves
    (fun place => ∃ file ∈ files, Writable start root file ∧ place = start.placeOf root file)
    start folder.disk
  /-- Folders were made on the way to files only. -/
  folders : ∀ place, folder.disk.tree.sightAt? place = some .folder →
    start.tree.sightAt? place = some .folder ∨
      ∃ file ∈ files, OnWay (start.start root) (file.wayBelow root) place
  /-- If the way does not start in a folder, nothing happened. -/
  still : start.tree.sightAt? (start.start root) ≠ some .folder → folder.disk = start
  /-- Files that can be taken hold their texts. -/
  holds : ∀ file ∈ files, Writable start root file →
    folder.disk.tree.bytesAt? (start.placeOf root file) = some file.code.toUTF8
  /-- The keys of the index increase. -/
  increasing : Json.Increasing folder.index
  /-- The index has the files that can be taken. -/
  lookup : ∀ path source, folder.index.lookup path = some source ↔
    ∃ file ∈ files, Writable start root file ∧ file.relativePath.text = path ∧
      file.source = source

theorem tried_fresh (start : Disk) (root : Path) : Tried start root [] (fresh start root) where
  rooted := rfl
  evolves := .refl
  folders _ h := .inl h
  still _ := rfl
  holds _ h := absurd h List.not_mem_nil
  increasing := List.Pairwise.nil
  lookup path source := by simp [fresh]

namespace Tried

variable {start : Disk} {root : Path} {files others : List SourceFile}
  {folder other : OutputFolder} {file : SourceFile}

/-- The order of the files does not count. -/
theorem of_mem_iff (h : Tried start root files folder)
    (hmem : ∀ file, file ∈ others ↔ file ∈ files) : Tried start root others folder := by
  obtain ⟨hrooted, hevolves, hfolders, hstill, hholds, hincreasing, hlookup⟩ := h
  simp only [← hmem] at hevolves hfolders hholds hlookup
  exact ⟨hrooted, hevolves, hfolders, hstill, hholds, hincreasing, hlookup⟩

/-- **Other files do not concern a file.** -/
theorem apart (h : Tried start root files folder)
    (hnew : ∀ other ∈ files, other.relativePath ≠ file.relativePath) :
    Apart root file start folder.disk where
  current := h.evolves.current
  grows := h.evolves.grows
  way place hway := by
    refine h.evolves.bytesAt? ?_
    -- a file that was written would have stood on its own way
    rintro ⟨other, -, hfree, rfl⟩
    exact hfree.vacant (.inr (onWay_of_onWay_placeOf hway))
  place := by
    refine h.evolves.bytesAt? ?_
    rintro ⟨other, hmem, -, hplace⟩
    exact hnew other hmem (relativePath_of_placeOf hplace.symm)
  folder hfolder := by
    rcases h.folders _ hfolder with hbefore | ⟨other, -, hway⟩
    · exact .inl hbefore
    · exact .inr (onWay_of_onWay_placeOf hway)
  still := h.still

section More

variable (h : Tried start root files folder) (hfile : file.Plain)
include h hfile

/-- The folders that stand after one more file was given. -/
theorem folders_emit (place : List String)
    (hplace : (folder.emit file).1.disk.tree.sightAt? place = some .folder) :
    start.tree.sightAt? place = some .folder ∨
      ∃ given ∈ files ++ [file], OnWay (start.start root) (given.wayBelow root) place := by
  rcases folder_of_emit hfile.1 hplace with hbefore | hway
  · refine (h.folders place hbefore).imp_right ?_
    rintro ⟨given, hmem, hway⟩
    exact ⟨given, List.mem_append_left _ hmem, hway⟩
  · rw [h.evolves.start, h.rooted] at hway
    exact .inr ⟨file, by simp, hway⟩

theorem still_emit (hstart : start.tree.sightAt? (start.start root) ≠ some .folder) :
    (folder.emit file).1.disk = start := by
  have hsame := h.still hstart
  rw [← hsame] at hstart ⊢
  exact emit_of_start hfile.1 (h.rooted ▸ hstart)

/-- **A file that cannot be taken** leaves no more than folders. -/
theorem emit_left (hnew : ∀ other ∈ files, other.relativePath ≠ file.relativePath)
    (hnot : ¬ Writable start root file) :
    Tried start root (files ++ [file]) (folder.emit file).1 := by
  have hfolders := h.folders_emit hfile
  have hstill := h.still_emit hfile
  have hmem : ∀ given, Writable start root given → (given ∈ files ++ [file] ↔ given ∈ files) := by
    rintro given hfree
    have hne : given ≠ file := by
      rintro rfl
      exact hnot hfree
    simp [hne]
  rcases hemit : folder.emit file with ⟨done, problem | outcome⟩
  case ok =>
    have hfree := writable_of_emit hfile.1 hemit
    rw [h.rooted, (h.apart hnew).writable_iff] at hfree
    exact absurd hfree hnot
  rw [hemit] at hfolders hstill
  obtain ⟨hroot, hindex, hseries⟩ := emit_error hemit
  refine ⟨hroot.trans h.rooted, ?_, hfolders, hstill, ?_, hindex ▸ h.increasing, ?_⟩
  · refine (h.evolves.mono ?_).trans (Evolves.mono (fun _ hfalse => hfalse.elim) hseries)
    rintro place ⟨given, hgiven, hrest⟩
    exact ⟨given, List.mem_append_left _ hgiven, hrest⟩
  · intro given hgiven hfree
    rw [hseries.bytesAt? not_false]
    exact h.holds given ((hmem given hfree).mp hgiven) hfree
  · intro path source
    rw [hindex, h.lookup]
    refine exists_congr fun given => ?_
    rw [and_left_comm, and_left_comm (a := given ∈ files ++ [file])]
    exact and_congr_right fun hfree => by rw [hmem given hfree]

/-- **A file that can be taken** is written, and the index has it. -/
theorem emit_taken (hnew : ∀ other ∈ files, other.relativePath ≠ file.relativePath)
    (hfree : Writable start root file) :
    Tried start root (files ++ [file]) (folder.emit file).1 := by
  have hfolders := h.folders_emit hfile
  have hstill := h.still_emit hfile
  have hfree' : Writable folder.disk folder.root file := by
    rwa [h.rooted, (h.apart hnew).writable_iff]
  obtain ⟨done, outcome, hemit⟩ := OutputFolder.emit_of_writable hfile.1 hfree'
  rw [hemit] at hfolders hstill ⊢
  obtain ⟨hroot, hindex, place, hlocate, hbytes, hseries⟩ := emit_ok hemit
  obtain ⟨rfl, -, -⟩ := locate_pathOf hfile.1 hlocate
  rw [placeOf_eq_of_evolves hseries, placeOf_eq_of_evolves h.evolves, h.rooted] at hbytes hseries
  refine ⟨hroot.trans h.rooted, ?_, hfolders, hstill, ?_, ?_, ?_⟩
  · refine (h.evolves.mono ?_).trans (Evolves.mono ?_ hseries)
    · rintro place ⟨given, hgiven, hrest⟩
      exact ⟨given, List.mem_append_left _ hgiven, hrest⟩
    · rintro place rfl
      exact ⟨file, by simp, hfree, rfl⟩
  · intro given hgiven hgivenFree
    rcases List.mem_append.mp hgiven with hgiven | hgiven
    · have hother : start.placeOf root given ≠ start.placeOf root file := fun hplace =>
        hnew given hgiven (relativePath_of_placeOf hplace)
      rw [hseries.bytesAt? hother]
      exact h.holds given hgiven hgivenFree
    · rw [List.mem_singleton.mp hgiven]
      exact hbytes
  · rw [hindex]
    exact Json.increasing_setMember _ _ h.increasing
  · intro path source
    rw [hindex, Provenance.record, Json.lookup_setMember, hfile.key]
    by_cases hpath : path = file.relativePath.text
    · -- no other file has this path
      subst hpath
      rw [if_pos rfl, Option.some.injEq]
      constructor
      · exact fun hsource => ⟨file, by simp, hfree, rfl, hsource⟩
      · rintro ⟨given, hgiven, -, htext, hsource⟩
        rcases List.mem_append.mp hgiven with hgiven | hgiven
        · exact absurd (congrArg Path.mk htext) (hnew given hgiven)
        · rwa [List.mem_singleton.mp hgiven] at hsource
    · rw [if_neg hpath, h.lookup]
      constructor
      · rintro ⟨given, hgiven, hrest⟩
        exact ⟨given, List.mem_append_left _ hgiven, hrest⟩
      · rintro ⟨given, hgiven, hgivenFree, htext, hsource⟩
        rcases List.mem_append.mp hgiven with hgiven | hgiven
        · exact ⟨given, hgiven, hgivenFree, htext, hsource⟩
        · rw [List.mem_singleton.mp hgiven] at htext
          exact absurd htext.symm hpath

end More

/-- One more file. -/
theorem emit (h : Tried start root files folder) (hfile : file.Plain)
    (hnew : ∀ other ∈ files, other.relativePath ≠ file.relativePath) :
    Tried start root (files ++ [file]) (folder.emit file).1 := by
  by_cases hfree : Writable start root file
  · exact h.emit_taken hfile hnew hfree
  · exact h.emit_left hfile hnew hfree

/-- What is left does not depend on anything else. -/
theorem bytesAt?_eq (h : Tried start root files folder) (h' : Tried start root files other)
    (place : List String) :
    other.disk.tree.bytesAt? place = folder.disk.tree.bytesAt? place := by
  by_cases hplace : ∃ file ∈ files, Writable start root file ∧ place = start.placeOf root file
  · obtain ⟨file, hmem, hfree, rfl⟩ := hplace
    rw [h.holds file hmem hfree, h'.holds file hmem hfree]
  · rw [h.evolves.bytesAt? hplace, h'.evolves.bytesAt? hplace]

theorem index_eq (h : Tried start root files folder) (h' : Tried start root files other) :
    other.index = folder.index := by
  refine Json.eq_of_increasing h'.increasing h.increasing fun path => Option.ext fun source => ?_
  rw [h.lookup, h'.lookup]

end Tried

/-! ### One file after the other -/

/-- **Files that are taken one after the other** leave what is said without their order, and each of
them has the result that it has at the start, up to what is left to the order. -/
theorem tried_emitEach {start : Disk} {root : Path} {seen files : List SourceFile}
    {folder : OutputFolder} (h : Tried start root seen folder)
    (hplain : ∀ file ∈ files, file.Plain)
    (hnodup : ((seen ++ files).map SourceFile.relativePath).Nodup) :
    Tried start root (seen ++ files) (folder.emitEach files).1 ∧
      (∀ entry ∈ (folder.emitEach files).2,
        Alike ((fresh start root).emit entry.1).2 entry.2) ∧
      (Steady start root → (folder.emitEach files).2 =
        files.map fun file => (file, ((fresh start root).emit file).2)) := by
  induction files generalizing seen folder with
  | nil =>
    rw [List.append_nil]
    exact ⟨h, fun entry hmem => absurd hmem List.not_mem_nil, fun _ => rfl⟩
  | cons file rest ih =>
    have hfile := hplain file List.mem_cons_self
    have hnew : ∀ other ∈ seen, other.relativePath ≠ file.relativePath := by
      intro other hmem heq
      rw [List.map_append, List.nodup_append] at hnodup
      exact hnodup.2.2 _ (List.mem_map_of_mem hmem) _ (List.mem_map_of_mem List.mem_cons_self) heq
    have happend : seen ++ file :: rest = (seen ++ [file]) ++ rest := by simp
    rw [happend] at hnodup ⊢
    obtain ⟨hrest, halike, hsteady⟩ := ih (h.emit hfile hnew)
      (fun other hmem => hplain other (List.mem_cons_of_mem _ hmem)) hnodup
    have hapart := h.apart hnew
    have halikeFile : Alike ((fresh start root).emit file).2 (folder.emit file).2 :=
      emit_alike hfile.1 h.rooted hapart
    rw [emitEach_cons]
    refine ⟨hrest, ?_, fun hway => ?_⟩
    · intro entry hmem
      rcases List.mem_cons.mp hmem with rfl | hmem
      · exact halikeFile
      · exact halike entry hmem
    · have hsame : (folder.emit file).2 = ((fresh start root).emit file).2 :=
        emit_eq_of_steady hfile.1 h.rooted hapart hway
      rw [List.map_cons, hsteady hway, hsame]

/-- **Any two orders of files with different relative paths** lead to the same bytes in all files
and to the same index, and each file is taken in both orders or leads to a problem with the same
path in both.  With a steady folder the results are the same altogether. -/
theorem emitEach_of_perm (disk : Disk) (root : Path) {files others : List SourceFile}
    (hplain : ∀ file ∈ files, file.Plain)
    (hnodup : (files.map SourceFile.relativePath).Nodup) (hperm : others.Perm files) :
    let first := (fresh disk root).emitEach files
    let second := (fresh disk root).emitEach others
    first.2.map Prod.fst = files ∧ second.2.map Prod.fst = others ∧
      (∀ place, second.1.disk.tree.bytesAt? place = first.1.disk.tree.bytesAt? place) ∧
      second.1.index = first.1.index ∧
      (∀ file result result', (file, result) ∈ first.2 → (file, result') ∈ second.2 →
        Alike result result') ∧
      (Steady disk root → second.2.Perm first.2) := by
  have hplain' : ∀ file ∈ others, file.Plain := fun file hmem => hplain file (hperm.mem_iff.mp hmem)
  have hnodup' : (others.map SourceFile.relativePath).Nodup :=
    (hperm.map SourceFile.relativePath).nodup_iff.mpr hnodup
  obtain ⟨htried, halike, hsteady⟩ := tried_emitEach (tried_fresh disk root) hplain hnodup
  obtain ⟨htried', halike', hsteady'⟩ := tried_emitEach (tried_fresh disk root) hplain' hnodup'
  have hsame : Tried disk root files ((fresh disk root).emitEach others).1 :=
    htried'.of_mem_iff fun file => hperm.mem_iff.symm
  refine ⟨map_fst_emitEach _ files, map_fst_emitEach _ others, htried.bytesAt?_eq hsame,
    htried.index_eq hsame, ?_, fun hway => ?_⟩
  · intro file result result' hmem hmem'
    exact (halike _ hmem).symm.trans (halike' _ hmem')
  · rw [hsteady hway, hsteady' hway]
    exact hperm.map _

/-- Two files, one of them in a package. -/
def twoFiles : List SourceFile := [⟨"a.b", "A", "x", none, []⟩, ⟨"", "B", "y", some "B.kt", []⟩]

/-- A disk on which a file is in the way of the first of them, and the second is there. -/
def crowdedDisk : Disk :=
  ⟨.folder [("out", .folder [("B.kt", .file "y".toUTF8), ("a", .file "z".toUTF8)])], []⟩

/-- One of the files cannot be taken, and the other one is there already. -/
theorem emitEach_of_perm_twoFiles :
    let first := (fresh crowdedDisk ⟨"out"⟩).emitEach twoFiles
    let second := (fresh crowdedDisk ⟨"out"⟩).emitEach twoFiles.reverse
    (∀ file ∈ twoFiles, file.Plain) ∧ (twoFiles.map SourceFile.relativePath).Nodup ∧
      twoFiles.reverse.Perm twoFiles ∧ Steady crowdedDisk ⟨"out"⟩ ∧
      first.2.map Prod.fst = twoFiles ∧ second.2.map Prod.fst = twoFiles.reverse ∧
      (∀ place, second.1.disk.tree.bytesAt? place = first.1.disk.tree.bytesAt? place) ∧
      second.1.index = first.1.index ∧
      (∀ file result result', (file, result) ∈ first.2 → (file, result') ∈ second.2 →
        Alike result result') ∧
      second.2.Perm first.2 := by
  have hplain : ∀ file ∈ twoFiles, file.Plain := by decide
  have hnodup : (twoFiles.map SourceFile.relativePath).Nodup := by decide
  have hperm : twoFiles.reverse.Perm twoFiles := twoFiles.reverse_perm
  have hsteady : Steady crowdedDisk ⟨"out"⟩ := steady_of_no_up crowdedDisk (by decide)
  obtain ⟨hfirst, hsecond, hbytes, hindex, halike, hresults⟩ :=
    emitEach_of_perm crowdedDisk ⟨"out"⟩ hplain hnodup hperm
  exact ⟨hplain, hnodup, hperm, hsteady, hfirst, hsecond, hbytes, hindex, halike,
    hresults hsteady⟩

/-- **Going up from a missing folder the order shows.**  The file `B.kt` is there with its text, but
it is found below `m/..` only once the folder `m` was made for the other file. -/
theorem emitEach_above_missing :
    let first : SourceFile := ⟨"", "A", "a", none, []⟩
    let second : SourceFile := ⟨"", "B", "b", none, []⟩
    let disk : Disk := ⟨.folder [("B.kt", .file "b".toUTF8)], []⟩
    (∀ file ∈ [first, second], file.Plain) ∧
      ([first, second].map SourceFile.relativePath).Nodup ∧
      [second, first].Perm [first, second] ∧
      ((fresh disk ⟨"m/.."⟩).emitEach [first, second]).2 =
        [(first, .ok .written), (second, .ok .unchanged)] ∧
      ((fresh disk ⟨"m/.."⟩).emitEach [second, first]).2 =
        [(second, .ok .written), (first, .ok .written)] := by
  dsimp only
  refine ⟨by decide, by decide, .swap _ _ [], ?_, ?_⟩
  · rfl
  · rfl

end OutputFolder

end Wiring
