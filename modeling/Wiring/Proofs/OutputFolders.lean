import Mathlib.Data.List.Induction
import Wiring.Emission
import Wiring.Proofs.DiskChanges
import Wiring.Proofs.FilePlaces

/-!
# What an output folder does to its disk

Taking a file either succeeds, and then its path leads to a file that holds its text and nothing
else was written, or it fails, and then no file was written at all.  After any series of files
that were taken, a place therefore holds the text of the last of them whose path leads there, and
what it held at the start if there is none.

## Main definitions

* `LastWith` — the last element of a list that has a property.
* `OutputFolder.LeadsTo` — the path of a file leads to a place.
* `OutputFolder.Filled` — what has become of a disk after some files were taken.
* `OutputFolder.Finished` — the same with the index written.

## Main results

* `OutputFolder.emit_ok`, `OutputFolder.emit_error` — taking one file.
* `OutputFolder.writeIndex_ok`, `OutputFolder.writeIndex_error` — writing the index.
* `OutputFolder.emit_of_located` — a file that is there can be taken again.
* `OutputFolder.Filled.emit`, `OutputFolder.Filled.quiet` — taking one more file, or none.
* `OutputFolder.Finished.bytesAt?_again` — doing it all again changes no file.
-/

namespace Wiring

/-! ### The last one -/

section LastWith

variable {α : Type} {p q : α → Prop} {list : List α} {a : α}

/-- The last element of a list that has a property. -/
def LastWith (p : α → Prop) (list : List α) (a : α) : Prop :=
  ∃ before after, list = before ++ a :: after ∧ p a ∧ ∀ other ∈ after, ¬ p other

theorem not_lastWith_nil : ¬ LastWith p [] a := by
  rintro ⟨before, after, h, -⟩
  simp at h

/-- One more element is the last one if it has the property. -/
theorem lastWith_append_singleton {new : α} :
    LastWith p (list ++ [new]) a ↔ (p new ∧ a = new) ∨ (¬ p new ∧ LastWith p list a) := by
  constructor
  · rintro ⟨before, after, heq, ha, hafter⟩
    rcases List.eq_nil_or_concat after with rfl | ⟨middle, last, rfl⟩
    · obtain ⟨-, hlast⟩ := List.append_inj' heq rfl
      obtain rfl := List.singleton_inj.mp hlast
      exact .inl ⟨ha, rfl⟩
    · rw [List.concat_eq_append, ← List.cons_append, ← List.append_assoc] at heq
      obtain ⟨hlist, hlast⟩ := List.append_inj' heq rfl
      obtain rfl := List.singleton_inj.mp hlast
      refine .inr ⟨hafter new (by simp), before, middle, hlist, ha, fun other hother => ?_⟩
      exact hafter other (by simp [hother])
  · rintro (⟨hnew, rfl⟩ | ⟨hnew, before, after, rfl, ha, hafter⟩)
    · exact ⟨list, [], rfl, hnew, by simp⟩
    · refine ⟨before, after ++ [new], by simp, ha, fun other hother => ?_⟩
      rcases List.mem_append.mp hother with hother | hother
      · exact hafter other hother
      · rw [List.mem_singleton.mp hother]
        exact hnew

theorem LastWith.mem (h : LastWith p list a) : a ∈ list := by
  obtain ⟨before, after, rfl, -⟩ := h
  simp

theorem LastWith.prop (h : LastWith p list a) : p a := by
  obtain ⟨-, -, -, ha, -⟩ := h
  exact ha

/-- If any element has the property, one of them is the last. -/
theorem exists_lastWith (h : ∃ a ∈ list, p a) : ∃ a, LastWith p list a := by
  induction list using List.reverseRecOn with
  | nil => simp at h
  | append_singleton list new ih =>
    by_cases hnew : p new
    · exact ⟨new, lastWith_append_singleton.mpr (.inl ⟨hnew, rfl⟩)⟩
    · obtain ⟨a, ha, hpa⟩ := h
      have hmem : a ∈ list := by
        rcases List.mem_append.mp ha with hmem | hmem
        · exact hmem
        · rw [List.mem_singleton.mp hmem] at hpa
          exact absurd hpa hnew
      obtain ⟨last, hlast⟩ := ih ⟨a, hmem, hpa⟩
      exact ⟨last, lastWith_append_singleton.mpr (.inr ⟨hnew, hlast⟩)⟩

/-- Without repetitions every element is the last one of its value. -/
theorem lastWith_of_nodup {β : Type} {f : α → β} (h : (list.map f).Nodup) (ha : a ∈ list) :
    LastWith (fun other => f other = f a) list a := by
  obtain ⟨before, after, rfl⟩ := List.append_of_mem ha
  refine ⟨before, after, rfl, rfl, fun other hother heq => ?_⟩
  rw [List.map_append, List.map_cons, List.nodup_append] at h
  exact (List.nodup_cons.mp h.2.1).1 (heq ▸ List.mem_map_of_mem hother)

theorem lastWith_congr (h : ∀ a ∈ list, p a ↔ q a) : LastWith p list a ↔ LastWith q list a := by
  induction list using List.reverseRecOn with
  | nil => simp only [not_lastWith_nil]
  | append_singleton list new ih =>
    rw [lastWith_append_singleton, lastWith_append_singleton, h new (by simp),
      ih fun other hother => h other (by simp [hother])]

end LastWith

/-- The name of the index is the name of an entry. -/
theorem Provenance.isName_fileName : Path.IsName Provenance.fileName :=
  Path.isName_of_length (by decide) (by decide)

namespace OutputFolder

open FileTree Disk

/-! ### Writing a text -/

variable {folder made done left : OutputFolder}

theorem makeFolders_ok {path : Path} (h : folder.makeFolders path = (made, .ok ())) :
    made = { folder with disk := made.disk } ∧
      Evolves (fun _ => False) folder.disk made.disk := by
  have hseries := evolves_makeFolders folder.disk path
  unfold makeFolders at h
  split at h
  · rename_i disk hmade
    obtain rfl := (Prod.mk.inj h).1
    rw [hmade] at hseries
    exact ⟨rfl, hseries⟩
  · cases h

theorem makeFolders_error {path : Path} {problem : Problem}
    (h : folder.makeFolders path = (made, .error problem)) :
    made = { folder with disk := made.disk } ∧
      Evolves (fun _ => False) folder.disk made.disk := by
  have hseries := evolves_makeFolders folder.disk path
  unfold makeFolders at h
  split at h
  · cases h
  · rename_i disk fault hmade
    obtain rfl := (Prod.mk.inj h).1
    rw [hmade] at hseries
    exact ⟨rfl, hseries⟩

theorem writeText_ok {path : Path} {name text : String} (hname : path.EndsIn name)
    (h : folder.writeText path text = (done, .ok ())) :
    done = { folder with disk := done.disk } ∧
      ∃ place, done.disk.locate path = .ok place ∧
        done.disk.tree.bytesAt? place = some text.toUTF8 ∧
        Evolves (· = place) folder.disk done.disk := by
  unfold writeText at h
  split at h
  · rename_i disk hwrite
    obtain rfl := (Prod.mk.inj h).1
    exact ⟨rfl, exists_of_writeFile hname hwrite⟩
  · cases h

theorem writeText_error {path : Path} {text : String} {problem : Problem}
    (h : folder.writeText path text = (left, .error problem)) : left = folder := by
  unfold writeText at h
  split at h
  · cases h
  · exact (Prod.mk.inj h).1.symm

/-- A text that was written below a folder is what the file of the path holds, and no other file
was written. -/
theorem writeBelow_ok {above : Option Path} {path : Path} {name text : String}
    (hname : path.EndsIn name) (h : folder.writeBelow above path text = (done, .ok ())) :
    done = { folder with disk := done.disk } ∧
      ∃ place, done.disk.locate path = .ok place ∧
        done.disk.tree.bytesAt? place = some text.toUTF8 ∧
        Evolves (· = place) folder.disk done.disk := by
  cases above with
  | none => exact writeText_ok hname h
  | some parent =>
    rw [writeBelow] at h
    split at h
    · cases h
    · rename_i made hmake
      obtain ⟨hmade, hfolders⟩ := makeFolders_ok hmake
      obtain ⟨hdone, place, hlocate, hbytes, hseries⟩ := writeText_ok hname h
      refine ⟨by rw [hdone, hmade], place, hlocate, hbytes, ?_⟩
      exact (Evolves.mono (fun _ hfalse => hfalse.elim) hfolders).trans hseries

/-- No file is written when writing fails. -/
theorem writeBelow_error {above : Option Path} {path : Path} {text : String} {problem : Problem}
    (h : folder.writeBelow above path text = (left, .error problem)) :
    left = { folder with disk := left.disk } ∧
      Evolves (fun _ => False) folder.disk left.disk := by
  cases above with
  | none =>
    obtain rfl := writeText_error h
    exact ⟨rfl, .refl⟩
  | some parent =>
    rw [writeBelow] at h
    split at h
    · rename_i made problem' hmake
      obtain rfl := (Prod.mk.inj h).1
      exact makeFolders_error hmake
    · rename_i made hmake
      obtain rfl := writeText_error h
      exact makeFolders_ok hmake

/-! ### Taking a file -/

theorem holds_iff {file : SourceFile} :
    folder.holds file = true ↔
      folder.disk.readBytes (folder.pathOf file) = .ok file.code.toUTF8 := by
  rw [← readText_eq_ok_iff]
  unfold holds
  cases folder.disk.readText (folder.pathOf file) <;> simp

/-- **A file that was taken** is there and holds its text, no other file was written, and the
index has it. -/
theorem emit_ok {file : SourceFile} {outcome : Outcome}
    (h : folder.emit file = (done, .ok outcome)) :
    done.root = folder.root ∧ done.index = folder.index.record file ∧
      ∃ place, done.disk.locate (folder.pathOf file) = .ok place ∧
        done.disk.tree.bytesAt? place = some file.code.toUTF8 ∧
        Evolves (· = place) folder.disk done.disk := by
  obtain ⟨stem, hstem⟩ := file.exists_endsIn folder.root
  unfold emit at h
  split at h
  · rename_i hholds
    obtain rfl := (Prod.mk.inj h).1
    obtain ⟨place, hplace, hbytes⟩ := readBytes_eq_ok_iff.mp (holds_iff.mp hholds)
    exact ⟨rfl, rfl, place, hplace, hbytes, .refl⟩
  · dsimp only at h
    split at h
    · cases h
    · rename_i written hwrite
      obtain rfl := (Prod.mk.inj h).1
      obtain ⟨hwritten, hrest⟩ := writeBelow_ok hstem hwrite
      have hindex : written.index = folder.index := by rw [hwritten]
      exact ⟨by rw [remember, hwritten], by rw [remember, hindex], hrest⟩

/-- **A file that was not taken** leaves every file and the index as they were. -/
theorem emit_error {file : SourceFile} {problem : Problem}
    (h : folder.emit file = (left, .error problem)) :
    left.root = folder.root ∧ left.index = folder.index ∧
      Evolves (fun _ => False) folder.disk left.disk := by
  unfold emit at h
  split at h
  · cases h
  · dsimp only at h
    split at h
    · rename_i written problem' hwrite
      obtain rfl := (Prod.mk.inj h).1
      obtain ⟨hleft, hseries⟩ := writeBelow_error hwrite
      exact ⟨by rw [hleft], by rw [hleft], hseries⟩
    · cases h

/-- A file is left unchanged exactly if it holds its text. -/
theorem emit_unchanged_iff {file : SourceFile} :
    (folder.emit file).2 = .ok .unchanged ↔
      folder.disk.readBytes (folder.pathOf file) = .ok file.code.toUTF8 := by
  rw [← holds_iff]
  unfold emit
  split
  · simp [*]
  · dsimp only
    split <;> simp [*]

/-- A file that is there can be taken. -/
theorem emit_of_located {file : SourceFile} {place : List String} {old : ByteArray}
    (hplace : folder.disk.locate (folder.pathOf file) = .ok place)
    (hold : folder.disk.tree.bytesAt? place = some old) :
    ∃ done outcome, folder.emit file = (done, .ok outcome) := by
  obtain ⟨stem, hstem⟩ := file.exists_endsIn folder.root
  obtain ⟨parent, hparent, hmake⟩ := makeFolders_parent hstem hplace
  obtain ⟨disk, hwrite⟩ := writeFile_of_locate hstem hplace hold file.code.toUTF8
  unfold emit
  split
  · exact ⟨_, _, rfl⟩
  · dsimp only [pathOf]
    rw [hparent]
    simp only [writeBelow, makeFolders, writeText, hmake, hwrite]
    exact ⟨_, _, rfl⟩

/-! ### Writing the index -/

/-- The path of the index. -/
def indexPath (folder : OutputFolder) : Path := folder.root.push Provenance.fileName

theorem indexPath_endsIn (folder : OutputFolder) :
    folder.indexPath.EndsIn Provenance.fileName :=
  Path.endsIn_push _ Provenance.isName_fileName

/-- The index that was written is what its file holds, and no other file was written. -/
theorem writeIndex_ok {path : Path} (h : folder.writeIndex = (done, .ok path)) :
    path = folder.indexPath ∧ done.root = folder.root ∧ done.index = folder.index ∧
      ∃ place, done.disk.locate folder.indexPath = .ok place ∧
        done.disk.tree.bytesAt? place = some folder.index.text.toUTF8 ∧
        Evolves (· = place) folder.disk done.disk := by
  unfold writeIndex at h
  dsimp only at h
  split at h
  · cases h
  · rename_i written hwrite
    obtain ⟨rfl, hpath⟩ := Prod.mk.inj h
    obtain ⟨hdone, hrest⟩ := writeBelow_ok folder.indexPath_endsIn hwrite
    exact ⟨(Except.ok.inj hpath).symm, by rw [hdone], by rw [hdone], hrest⟩

theorem writeIndex_error {problem : Problem} (h : folder.writeIndex = (left, .error problem)) :
    left.root = folder.root ∧ left.index = folder.index ∧
      Evolves (fun _ => False) folder.disk left.disk := by
  unfold writeIndex at h
  dsimp only at h
  split at h
  · rename_i written problem' hwrite
    obtain rfl := (Prod.mk.inj h).1
    obtain ⟨hleft, hseries⟩ := writeBelow_error hwrite
    exact ⟨by rw [hleft], by rw [hleft], hseries⟩
  · cases h

/-- The index can be written where it is. -/
theorem writeIndex_of_located {place : List String} {old : ByteArray}
    (hplace : folder.disk.locate folder.indexPath = .ok place)
    (hold : folder.disk.tree.bytesAt? place = some old) :
    ∃ done path, folder.writeIndex = (done, .ok path) := by
  have hmake := makeFolders_of_stands (stands_of_locate_push Provenance.isName_fileName hplace)
  obtain ⟨disk, hwrite⟩ := writeFile_of_locate folder.indexPath_endsIn hplace hold
    folder.index.text.toUTF8
  unfold indexPath at hwrite
  unfold writeIndex
  simp only [writeBelow, makeFolders, writeText, hmake, hwrite]
  exact ⟨_, _, rfl⟩

/-! ### Many files -/

/-- The path of a file in the folder leads to a place. -/
def LeadsTo (folder : OutputFolder) (place : List String) (file : SourceFile) : Prop :=
  folder.disk.locate (folder.pathOf file) = .ok place

/-- The place of the index. -/
def IndexAt (folder : OutputFolder) (place : List String) : Prop :=
  folder.disk.locate folder.indexPath = .ok place

/-- A place to which the path of a file leads is that of a file with the extension. -/
theorem LeadsTo.exists_eq {file : SourceFile} {place : List String}
    (h : folder.LeadsTo place file) : ∃ inside stem, place = inside ++ [stem ++ ".kt"] := by
  obtain ⟨stem, hstem⟩ := file.exists_endsIn folder.root
  obtain ⟨inside, hplace⟩ := exists_of_locate hstem h
  exact ⟨inside, stem, hplace⟩

theorem IndexAt.exists_eq {place : List String} (h : folder.IndexAt place) :
    ∃ inside, place = inside ++ [Provenance.fileName] :=
  exists_of_locate folder.indexPath_endsIn h

/-- The name of the index does not have the extension of generated files. -/
theorem fileName_ne (stem : String) : stem ++ ".kt" ≠ Provenance.fileName := by
  intro h
  have hlast := congrArg (fun name => name.toList.getLast?) h
  simp [Provenance.fileName, String.toList_append] at hlast

/-- No file belongs where the index belongs. -/
theorem LeadsTo.not_indexAt {file : SourceFile} {place : List String}
    (h : folder.LeadsTo place file) : ¬ folder.IndexAt place := by
  intro hindex
  obtain ⟨inside, stem, rfl⟩ := h.exists_eq
  obtain ⟨other, heq⟩ := hindex.exists_eq
  obtain ⟨-, hname⟩ := List.append_inj' heq rfl
  exact fileName_ne stem (List.singleton_inj.mp hname)

/-- A relative path that does not start at the root is followed from the place of the folder. -/
theorem LeadsTo.exists_walk {file : SourceFile} {place : List String}
    (hroot : file.relativePath.isAbsolute = false) (h : folder.LeadsTo place file) :
    ∃ above, walk folder.disk.tree (folder.disk.start folder.root) folder.root.hops = .ok above ∧
      walk folder.disk.tree above file.relativePath.hops = .ok place := by
  obtain ⟨stem, hstem⟩ := file.exists_endsIn folder.root
  have hsteps : Disk.steps (folder.pathOf file) =
      folder.root.hops ++ file.relativePath.hops := by
    rw [Disk.steps, pathOf, hstem.endsInSlash, Path.hops_push _ hroot]
    simp
  have hwalk := (locate_eq_ok_iff.mp h).2
  rwa [hsteps, walk_append_eq_ok_iff, start, pathOf, Path.isAbsolute_push _ hroot] at hwalk

/-- Without slashes the place is found below that of the folder by the names of the file. -/
theorem LeadsTo.exists_names {file : SourceFile} {place : List String} (hfile : file.Slashless)
    (h : folder.LeadsTo place file) :
    ∃ above, walk folder.disk.tree (folder.disk.start folder.root) folder.root.hops = .ok above ∧
      place = above ++ file.names := by
  obtain ⟨above, habove, hnames⟩ := h.exists_walk hfile.isAbsolute_relativePath
  rw [hfile.hops_relativePath] at hnames
  exact ⟨above, habove, eq_of_walk_down hnames⟩

/-- Without slashes, files with different relative paths belong at different places. -/
theorem LeadsTo.relativePath_eq {first second : SourceFile} {place : List String}
    (hfirst : first.Slashless) (hsecond : second.Slashless) (h : folder.LeadsTo place first)
    (h' : folder.LeadsTo place second) : first.relativePath = second.relativePath := by
  obtain ⟨above, habove, hplace⟩ := h.exists_names hfirst
  obtain ⟨other, hother, hplace'⟩ := h'.exists_names hsecond
  obtain rfl : above = other := Except.ok.inj (habove.symm.trans hother)
  have hnames : first.names = second.names :=
    List.append_cancel_left (hplace.symm.trans hplace')
  rw [SourceFile.relativePath_eq, SourceFile.relativePath_eq, hnames]

/-- Among files without slashes, the last one with a path is the last one whose path leads where
its path leads. -/
theorem lastWith_leadsTo {taken : List SourceFile} (hslashless : ∀ file ∈ taken, file.Slashless)
    {path : Path} {file : SourceFile} {place : List String} (hplace : folder.LeadsTo place file)
    (h : LastWith (fun file => file.relativePath = path) taken file) :
    LastWith (folder.LeadsTo place) taken file := by
  refine (lastWith_congr fun other hother => ?_).mp h
  rw [← h.prop]
  constructor
  · intro hsame
    unfold LeadsTo pathOf
    rw [hsame]
    exact hplace
  · intro hleads
    exact hleads.relativePath_eq (hslashless other hother) (hslashless file h.mem) hplace

section Later

variable {written : List String → Prop} (hroot : done.root = folder.root)
  (hseries : Evolves written folder.disk done.disk)
include hroot hseries

theorem LeadsTo.later {file : SourceFile} {place : List String} (h : folder.LeadsTo place file) :
    done.LeadsTo place file := by
  unfold LeadsTo pathOf at *
  rw [hroot]
  exact hseries.locate h

theorem IndexAt.later {place : List String} (h : folder.IndexAt place) : done.IndexAt place := by
  unfold IndexAt indexPath at *
  rw [hroot]
  exact hseries.locate h

/-- The path of a file that is there leads to the same place later on. -/
theorem leadsTo_later_iff {file : SourceFile} {place found : List String}
    (hfound : folder.LeadsTo found file) : done.LeadsTo place file ↔ folder.LeadsTo place file := by
  refine ⟨fun h => ?_, LeadsTo.later hroot hseries⟩
  have hlater : done.LeadsTo found file := LeadsTo.later hroot hseries hfound
  obtain rfl : found = place := Except.ok.inj (hlater.symm.trans h)
  exact hfound

end Later

/-- **What has become of a disk** after an output folder took some files, one after the other, and
wrote its index any number of times. -/
structure Filled (start : Disk) (root : Path) (taken : List SourceFile) (folder : OutputFolder) :
    Prop where
  /-- The folder is where it was. -/
  root : folder.root = root
  /-- The index has the files in the order in which they were taken. -/
  index : folder.index = taken.foldl Provenance.record []
  /-- Only these files and the index were written. -/
  evolves : Evolves
    (fun place => (∃ file ∈ taken, folder.LeadsTo place file) ∨ folder.IndexAt place)
    start folder.disk
  /-- Each of the files is there. -/
  located : ∀ file ∈ taken, ∃ place, folder.LeadsTo place file
  /-- A place holds the text of the last file whose path leads there. -/
  holds : ∀ place file, LastWith (folder.LeadsTo place) taken file →
    folder.disk.tree.bytesAt? place = some file.code.toUTF8

theorem filled_fresh (disk : Disk) (root : Path) : Filled disk root [] (fresh disk root) where
  root := rfl
  index := rfl
  evolves := .refl
  located _ h := absurd h List.not_mem_nil
  holds _ _ h := absurd h not_lastWith_nil

namespace Filled

variable {start : Disk} {root : Path} {taken : List SourceFile}

/-- A file that no path of a taken file leads to, other than the index, is as at the start. -/
theorem bytesAt?_start (h : Filled start root taken folder) {place : List String}
    (hfiles : ∀ file ∈ taken, ¬ folder.LeadsTo place file) (hindex : ¬ folder.IndexAt place) :
    folder.disk.tree.bytesAt? place = start.tree.bytesAt? place := by
  refine h.evolves.bytesAt? ?_
  rintro (⟨file, hmem, hplace⟩ | hplace)
  · exact hfiles file hmem hplace
  · exact hindex hplace

/-- The updates before and those after, none of which wrote another file than those that may be
written. -/
theorem evolves_later (h : Filled start root taken folder) {written : List String → Prop}
    (more : List SourceFile) (hroot : done.root = folder.root)
    (hseries : Evolves written folder.disk done.disk)
    (hwritten : ∀ place, written place →
      (∃ file ∈ taken ++ more, done.LeadsTo place file) ∨ done.IndexAt place) :
    Evolves (fun place => (∃ file ∈ taken ++ more, done.LeadsTo place file) ∨ done.IndexAt place)
      start done.disk := by
  refine (h.evolves.mono ?_).trans (Evolves.mono hwritten hseries)
  rintro place (⟨file, hmem, hplace⟩ | hplace)
  · exact .inl ⟨file, List.mem_append_left _ hmem, hplace.later hroot hseries⟩
  · exact .inr (hplace.later hroot hseries)

/-- The last taken file whose path leads to a place stays the last one, as long as no more files
are taken. -/
theorem lastWith_later (h : Filled start root taken folder) {written : List String → Prop}
    (hroot : done.root = folder.root) (hseries : Evolves written folder.disk done.disk)
    {place : List String} {file : SourceFile} :
    LastWith (done.LeadsTo place) taken file ↔ LastWith (folder.LeadsTo place) taken file := by
  refine lastWith_congr fun other hother => ?_
  obtain ⟨found, hfound⟩ := h.located other hother
  exact leadsTo_later_iff hroot hseries hfound

/-- Making folders and writing the index changes nothing. -/
theorem quiet (h : Filled start root taken folder) {written : List String → Prop}
    (hroot : done.root = folder.root) (hindex : done.index = folder.index)
    (hseries : Evolves written folder.disk done.disk)
    (hwritten : ∀ place, written place → done.IndexAt place) :
    Filled start root taken done where
  root := hroot.trans h.root
  index := hindex.trans h.index
  evolves := by
    have hlater := h.evolves_later [] hroot hseries fun place hplace =>
      .inr (hwritten place hplace)
    simpa using hlater
  located file hmem := by
    obtain ⟨place, hplace⟩ := h.located file hmem
    exact ⟨place, hplace.later hroot hseries⟩
  holds place file hlast := by
    have hfree : ¬ written place := fun hplace =>
      hlast.prop.not_indexAt (hwritten place hplace)
    rw [hseries.bytesAt? hfree]
    exact h.holds place file ((h.lastWith_later hroot hseries).mp hlast)

/-- One more file is taken. -/
theorem emit (h : Filled start root taken folder) {file : SourceFile} {outcome : Outcome}
    (hemit : folder.emit file = (done, .ok outcome)) :
    Filled start root (taken ++ [file]) done := by
  obtain ⟨hroot, hindex, found, hfound, hbytes, hseries⟩ := emit_ok hemit
  have hleads : done.LeadsTo found file := by
    unfold LeadsTo pathOf
    rw [hroot]
    exact hfound
  constructor
  · exact hroot.trans h.root
  · rw [hindex, h.index, List.foldl_append]
    rfl
  · refine h.evolves_later [file] hroot hseries fun place hplace => ?_
    rw [hplace]
    exact .inl ⟨file, by simp, hleads⟩
  · intro other hmem
    rcases List.mem_append.mp hmem with hmem | hmem
    · obtain ⟨place, hplace⟩ := h.located other hmem
      exact ⟨place, hplace.later hroot hseries⟩
    · rw [List.mem_singleton.mp hmem]
      exact ⟨found, hleads⟩
  · intro place last hlast
    rcases lastWith_append_singleton.mp hlast with ⟨hplace, rfl⟩ | ⟨hplace, hlast⟩
    · obtain rfl : found = place := Except.ok.inj (hleads.symm.trans hplace)
      exact hbytes
    · have hfree : place ≠ found := by
        rintro rfl
        exact hplace hleads
      rw [hseries.bytesAt? hfree]
      exact h.holds place last ((h.lastWith_later hroot hseries).mp hlast)

/-- Each of the files is a file. -/
theorem exists_bytesAt? (h : Filled start root taken folder) {file : SourceFile}
    (hmem : file ∈ taken) :
    ∃ place old, folder.LeadsTo place file ∧ folder.disk.tree.bytesAt? place = some old := by
  obtain ⟨place, hplace⟩ := h.located file hmem
  obtain ⟨last, hlast⟩ := exists_lastWith ⟨file, hmem, hplace⟩
  exact ⟨place, _, hplace, h.holds place last hlast⟩

/-- Files with different paths all hold their texts. -/
theorem readBytes_of_nodup (h : Filled start root taken folder)
    (hnodup : (taken.map SourceFile.relativePath).Nodup)
    (hslashless : ∀ file ∈ taken, file.Slashless) {file : SourceFile} (hmem : file ∈ taken) :
    folder.disk.readBytes (folder.pathOf file) = .ok file.code.toUTF8 := by
  obtain ⟨place, hplace⟩ := h.located file hmem
  have hlast := lastWith_leadsTo hslashless hplace (lastWith_of_nodup hnodup hmem)
  exact readBytes_eq_ok_iff.mpr ⟨place, hplace, h.holds place file hlast⟩

/-- Taking the same files again, one after the other, changes none of them, nor any other file but
perhaps the index. -/
theorem bytesAt?_again (h : Filled start root taken folder)
    (hagain : Filled folder.disk root taken done) {place : List String}
    (hindex : ¬ done.IndexAt place) :
    done.disk.tree.bytesAt? place = folder.disk.tree.bytesAt? place := by
  by_cases hfiles : ∃ file ∈ taken, done.LeadsTo place file
  · -- the last file whose path leads there is the same after both runs
    obtain ⟨last, hlast⟩ := exists_lastWith hfiles
    have hroot : done.root = folder.root := hagain.root.trans h.root.symm
    have hbefore := (h.lastWith_later hroot hagain.evolves).mp hlast
    rw [hagain.holds place last hlast, h.holds place last hbefore]
  · exact hagain.bytesAt?_start (fun file hmem hplace => hfiles ⟨file, hmem, hplace⟩) hindex

end Filled

/-! ### With the index written -/

/-- The folder is filled with the files, and the file of its index holds their index. -/
structure Finished (start : Disk) (root : Path) (taken : List SourceFile) (folder : OutputFolder) :
    Prop extends Filled start root taken folder where
  /-- The index is written. -/
  written : ∃ place, folder.IndexAt place ∧
    folder.disk.tree.bytesAt? place =
      some (Provenance.text (taken.foldl Provenance.record [])).toUTF8

section

variable {start : Disk} {root : Path} {taken : List SourceFile} {folder done : OutputFolder}

/-- A filled folder that writes its index is finished. -/
theorem Filled.writeIndex (h : Filled start root taken folder) {path : Path}
    (hwrite : folder.writeIndex = (done, .ok path)) : Finished start root taken done := by
  obtain ⟨-, hroot, hindex, place, hplace, hbytes, hseries⟩ := writeIndex_ok hwrite
  have hindexAt : done.IndexAt place := by
    unfold IndexAt indexPath
    rw [hroot]
    exact hplace
  have hfilled : Filled start root taken done := by
    refine h.quiet hroot hindex hseries ?_
    rintro place rfl
    exact hindexAt
  exact ⟨hfilled, place, hindexAt, by rw [hbytes, h.index]⟩

/-- Taking the same files again and writing the index again changes no file. -/
theorem Finished.bytesAt?_again (h : Finished start root taken folder)
    (hagain : Finished folder.disk root taken done) (place : List String) :
    done.disk.tree.bytesAt? place = folder.disk.tree.bytesAt? place := by
  by_cases hindex : done.IndexAt place
  · -- the index is where it was, and the text of the same index
    obtain ⟨before, hbefore, hbytes⟩ := h.written
    obtain ⟨after, hafter, hbytes'⟩ := hagain.written
    have hlater : done.IndexAt before :=
      hbefore.later (hagain.root.trans h.root.symm) hagain.evolves
    obtain rfl : before = place := Except.ok.inj (hlater.symm.trans hindex)
    obtain rfl : before = after := Except.ok.inj (hlater.symm.trans hafter)
    rw [hbytes, hbytes']
  · exact h.toFilled.bytesAt?_again hagain.toFilled hindex

end

end OutputFolder

end Wiring
