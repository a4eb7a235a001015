import Wiring.Generation
import Wiring.Proofs.OutputFolders

/-!
# Finding manifests among generated files

Generated files and the index of an output folder may lie in a folder of manifests.  Neither is
taken for a manifest, so after an output folder has written its files, the same manifests are
found in the same order, and they read as before.

## Main definitions

* `isForeign` — the name is neither that of a generated file nor that of an index.

## Main results

* `isForeign_of_isManifest` — manifests in a folder have foreign names.
* `OutputFolder.Filled.manifestsAt` — the same manifests are found.
* `OutputFolder.Filled.loadManifests` — they read as before.
-/

namespace Wiring

open Wiring.Path FileTree Disk

/-! ### Names of manifests -/

/-- The name is neither that of a generated file nor that of an index. -/
def isForeign (name : String) : Bool :=
  !".kt".toList.isSuffixOf name.toList && decide (name ≠ Provenance.fileName)

theorem isForeign_eq_false_iff {name : String} :
    isForeign name = false ↔ (∃ stem, name = stem ++ ".kt") ∨ name = Provenance.fileName := by
  have hsuffix : ".kt".toList.isSuffixOf name.toList = true ↔ ∃ stem, name = stem ++ ".kt" := by
    rw [List.isSuffixOf_iff_suffix]
    constructor
    · rintro ⟨stem, hstem⟩
      refine ⟨String.ofList stem, ?_⟩
      rw [← String.toList_inj, String.toList_append, String.toList_ofList, hstem]
    · rintro ⟨stem, rfl⟩
      rw [String.toList_append]
      exact List.suffix_append _ _
  rw [← hsuffix]
  unfold isForeign
  cases ".kt".toList.isSuffixOf name.toList <;> simp

/-- A name with the extension of manifests is not that of a generated file. -/
theorem ne_of_json {name stem : String} {before : List Char}
    (h : name.toList = before ++ '.' :: "json".toList) : name ≠ stem ++ ".kt" := by
  rintro rfl
  have hlast := congrArg List.getLast? h
  simp [String.toList_append] at hlast

/-- **A manifest in a folder has a foreign name**: what ends like a generated file is no JSON file,
and an index is left out by its name. -/
theorem isForeign_of_isManifest {folder : Path} {place : List String}
    (h : isManifest (pathBelow folder place) = true) : isForeign (place.getLastD "") = true := by
  rcases List.eq_nil_or_concat place with rfl | ⟨above, name, rfl⟩
  · decide
  rw [List.concat_eq_append, pathBelow, List.foldl_append, List.foldl_cons, List.foldl_nil] at h
  generalize above.foldl Path.push folder = path at h
  rw [List.concat_eq_append, List.getLastD_concat]
  obtain ⟨hjson, hindex⟩ := Bool.and_eq_true_iff.mp h
  by_contra hforeign
  rw [Bool.not_eq_true, isForeign_eq_false_iff] at hforeign
  rcases hforeign with ⟨stem, rfl⟩ | rfl
  · obtain ⟨before, hbefore⟩ := exists_push_text path (stem ++ ".kt")
    rw [← String.append_assoc] at hbefore
    obtain ⟨other, hother⟩ := exists_endsIn_of_append hbefore (by decide) (by decide)
    obtain ⟨found, start, hfound, htext⟩ := exists_of_extension? (of_decide_eq_true hjson)
    obtain rfl := Option.some.inj (hother.fileName?.symm.trans hfound)
    exact ne_of_json htext rfl
  · rw [(endsIn_push path Provenance.isName_fileName).fileName?] at hindex
    simp at hindex

/-- The manifests among files below a folder are those among the files with foreign names. -/
theorem filter_isManifest (folder : Path) (places : List (List String)) :
    (places.map (pathBelow folder)).filter isManifest =
      ((places.filter fun place => isForeign (place.getLastD "")).map (pathBelow folder)).filter
        isManifest := by
  rw [List.filter_map, List.filter_map, List.filter_filter]
  congr 1
  refine List.filter_congr fun place _ => ?_
  cases hmanifest : isManifest (pathBelow folder place) with
  | false => simp [hmanifest]
  | true =>
    rw [Function.comp_apply, hmanifest, isForeign_of_isManifest hmanifest]
    rfl

/-- The files below a folder are those of the tree that is there. -/
theorem filesBelow_eq {disk : Disk} {folder : Path} {found : FileTree}
    (h : disk.find folder = .ok found) :
    disk.filesBelow folder = (found.files.map Prod.fst).map (pathBelow folder) := by
  rw [filesBelow, h, List.map_map]
  rfl

/-- Folders that list the same files with foreign names have the same manifests. -/
theorem manifestsBelow_eq {disk other : Disk} {folder : Path} {found left : FileTree}
    (hfound : disk.find folder = .ok found) (hleft : other.find folder = .ok left)
    (hsame : left.keptPlaces isForeign = found.keptPlaces isForeign) :
    manifestsBelow other folder = manifestsBelow disk folder := by
  have hplaces : ∀ tree : FileTree,
      ((tree.files.map Prod.fst).map (pathBelow folder)).filter isManifest =
        ((tree.keptPlaces isForeign).map (pathBelow folder)).filter isManifest := by
    intro tree
    rw [filter_isManifest]
    rfl
  rw [manifestsBelow, manifestsBelow, filesBelow_eq hfound, filesBelow_eq hleft, manifestsAmong,
    manifestsAmong, hplaces, hplaces, hsame]

/-- The manifests that a path stands for are JSON files. -/
theorem isJson_of_manifestsAt {disk : Disk} {path : Path} {paths : List Path}
    (hpaths : manifestsAt disk path = .ok paths) :
    (disk.isFile path = true ∧ paths = [path] ∧ isJson path = true) ∨
      (disk.isFile path = false ∧ ∀ found ∈ paths, isManifest found = true) := by
  unfold manifestsAt at hpaths
  split at hpaths
  · rename_i hfile
    split at hpaths
    · rename_i hjson
      exact .inl ⟨hfile, (Except.ok.inj hpaths).symm, hjson⟩
    · cases hpaths
  · rename_i hfile
    refine .inr ⟨by simpa using hfile, fun found hmem => ?_⟩
    split at hpaths
    · split at hpaths
      · cases hpaths
      · rw [← Except.ok.inj hpaths] at hmem
        have hmem' := List.mem_mergeSort.mp hmem
        exact (List.mem_filter.mp hmem').2
    · cases hpaths

/-! ### The same manifests again -/

/-- The index of the folder is not among the manifests of a folder. -/
theorem OutputFolder.not_indexAt_of_isManifest {folder : OutputFolder} {path : Path}
    (hmanifest : isManifest path = true) {disk : Disk} {place : List String}
    (hplace : disk.locate path = .ok place) :
    ¬ folder.IndexAt place := by
  intro hindex
  obtain ⟨hjson, hname⟩ := Bool.and_eq_true_iff.mp hmanifest
  obtain ⟨name, before, hfound, -⟩ := exists_of_extension? (of_decide_eq_true hjson)
  obtain ⟨inside, rfl⟩ := exists_of_locate_name hfound hplace
  obtain ⟨other, heq⟩ := hindex.exists_eq
  obtain ⟨-, hlast⟩ := List.append_inj' heq rfl
  rw [hfound, List.singleton_inj.mp hlast] at hname
  simp at hname

namespace OutputFolder.Filled

variable {start : Disk} {root : Path} {taken : List SourceFile} {folder : OutputFolder}

/-- Nothing was written under a foreign name. -/
theorem isForeign_of_written {place : List String} {name : String}
    (h : (∃ file ∈ taken, folder.LeadsTo (place ++ [name]) file) ∨
      folder.IndexAt (place ++ [name])) : isForeign name = false := by
  rw [isForeign_eq_false_iff]
  rcases h with ⟨file, -, hplace⟩ | hplace
  · obtain ⟨inside, stem, heq⟩ := hplace.exists_eq
    obtain ⟨-, hname⟩ := List.append_inj' heq rfl
    exact .inl ⟨stem, List.singleton_inj.mp hname⟩
  · obtain ⟨inside, heq⟩ := hplace.exists_eq
    obtain ⟨-, hname⟩ := List.append_inj' heq rfl
    exact .inr (List.singleton_inj.mp hname)

/-- A folder still has the manifests it had. -/
theorem manifestsBelow (h : Filled start root taken folder) {path : Path}
    (hpath : start.isFolder path = true) :
    Wiring.manifestsBelow folder.disk path = Wiring.manifestsBelow start path := by
  obtain ⟨place, hplace, hsight⟩ := isFolder_iff.mp hpath
  obtain ⟨entries, hfound⟩ := sightAt?_eq_some_folder.mp hsight
  obtain ⟨left, hleft, hsame⟩ :=
    h.evolves.keptPlaces (fun _ _ => isForeign_of_written) hsight hfound
  exact manifestsBelow_eq (find_eq_ok_iff.mpr ⟨place, hplace, hfound⟩)
    (find_eq_ok_iff.mpr ⟨place, h.evolves.locate hplace, hleft⟩) hsame

/-- **The same manifests are found** as before. -/
theorem manifestsAt (h : Filled start root taken folder) {path : Path} {paths : List Path}
    (hpaths : Wiring.manifestsAt start path = .ok paths) :
    Wiring.manifestsAt folder.disk path = .ok paths := by
  unfold Wiring.manifestsAt at hpaths ⊢
  by_cases hfile : start.isFile path = true
  · rw [if_pos hfile] at hpaths
    rwa [if_pos (h.evolves.isFile hfile)]
  rw [if_neg hfile] at hpaths
  by_cases hfolder : start.isFolder path = true
  · have hlater := h.evolves.isFolder hfolder
    rw [if_pos hfolder] at hpaths
    rwa [isFile_eq_false hlater, if_neg (by decide), if_pos hlater, h.manifestsBelow hfolder]
  · rw [if_neg hfolder] at hpaths
    cases hpaths

/-- A file with the extension of manifests, other than the index, reads as before. -/
theorem readText_of_isJson (h : Filled start root taken folder) {path : Path} {text : String}
    (hjson : isJson path = true)
    (hindex : ∀ place, start.locate path = .ok place → ¬ folder.IndexAt place)
    (hread : start.readText path = .ok text) : folder.disk.readText path = .ok text := by
  rw [readText_eq_ok_iff, readBytes_eq_ok_iff] at hread ⊢
  obtain ⟨place, hplace, hbytes⟩ := hread
  refine ⟨place, h.evolves.locate hplace, ?_⟩
  rw [h.bytesAt?_start (fun file _ hfile => ?_) (hindex place hplace), hbytes]
  obtain ⟨name, before, hname, htext⟩ := exists_of_extension? (of_decide_eq_true hjson)
  obtain ⟨inside, rfl⟩ := exists_of_locate_name hname hplace
  obtain ⟨other, stem, heq⟩ := hfile.exists_eq
  obtain ⟨-, hlast⟩ := List.append_inj' heq rfl
  exact ne_of_json htext (List.singleton_inj.mp hlast)

theorem loadManifest (h : Filled start root taken folder) {path : Path} {manifest : Manifest}
    (hjson : isJson path = true)
    (hindex : ∀ place, start.locate path = .ok place → ¬ folder.IndexAt place)
    (hload : Wiring.loadManifest start path = .ok manifest) :
    Wiring.loadManifest folder.disk path = .ok manifest := by
  unfold Wiring.loadManifest at hload ⊢
  cases hread : start.readText path with
  | error fault => simp [hread] at hload
  | ok text =>
    rw [h.readText_of_isJson hjson hindex hread]
    rwa [hread] at hload

/-- **Manifests read as before.** -/
theorem loadManifests (h : Filled start root taken folder) {paths : List Path}
    {manifests : List Manifest} (hjson : ∀ path ∈ paths, isJson path = true)
    (hindex : ∀ path ∈ paths, ∀ place, start.locate path = .ok place → ¬ folder.IndexAt place)
    (hload : Wiring.loadManifests start paths = .ok manifests) :
    Wiring.loadManifests folder.disk paths = .ok manifests := by
  induction paths generalizing manifests with
  | nil => exact hload
  | cons path rest ih =>
    unfold Wiring.loadManifests at hload ⊢
    cases hfirst : Wiring.loadManifest start path with
    | error problem => simp [hfirst] at hload
    | ok manifest =>
      rw [hfirst] at hload
      rw [h.loadManifest (hjson path List.mem_cons_self) (hindex path List.mem_cons_self) hfirst]
      cases hrest : Wiring.loadManifests start rest with
      | error problem =>
        rw [hrest] at hload
        cases hload
      | ok others =>
        rw [hrest] at hload
        dsimp only
        rw [ih (fun other hother => hjson other (List.mem_cons_of_mem _ hother))
          (fun other hother => hindex other (List.mem_cons_of_mem _ hother)) hrest]
        exact hload

end OutputFolder.Filled

end Wiring
