import Wiring.Proofs.Assembly
import Wiring.Proofs.FolderPasses

/-!
# The files of different owners

Owners are told apart by their qualified names, but a file is named by the package and the simple
name of its owner.  So two owners may have to share a file: a class and a nested class of the same
simple name whose package is given, for instance.  Without such owners all files of a pass have
different paths, and no file is written over another.

## Main definitions

* `ownersOf` — the owners of some properties, in order of first appearance.
* `Owner.SharesFile` — the files of two owners belong at the same place.

## Main results

* `map_owner_injectorsOf` — there is one injector for each owner.
* `relativePaths_nodup_iff` — when all files of a pass have different paths.
* `not_relativePaths_nodup` — two owners that share a file.
-/

namespace Wiring

open SourceFile

/-- The owners of some properties in order of first appearance, each as its first property gives
it. -/
def ownersOf (properties : List Property) : List Owner :=
  (ownerNames properties).filterMap fun name =>
    (propertiesOf name properties).head?.bind Property.owner

/-- The files of two owners belong at the same place. -/
def Owner.SharesFile (first second : Owner) : Prop :=
  packageSegments first.package = packageSegments second.package ∧
    simpleName first.name = simpleName second.name

instance (first second : Owner) : Decidable (first.SharesFile second) :=
  inferInstanceAs (Decidable (_ ∧ _))

theorem map_owner_groups {properties : List Property} {groups : List OwnerGroup}
    (h : Grouped properties groups) : groups.map OwnerGroup.owner = ownersOf properties := by
  have howner : ∀ group ∈ groups,
      (propertiesOf group.owner.name properties).head?.bind Property.owner = some group.owner := by
    intro group hmem
    obtain ⟨first, rest, hproperties, hfirst⟩ := h.owners group hmem
    rw [← h.members group hmem, hproperties]
    exact hfirst
  rw [ownersOf, ← h.names, List.filterMap_map]
  refine Eq.symm ((List.filterMap_congr howner).trans ?_)
  exact congrFun List.filterMap_eq_map groups

/-- There is one injector for each owner, in order of first appearance. -/
theorem map_owner_injectorsOf {settings : Settings} {properties : List Property}
    {injectors : List Injector} (h : injectorsOf settings properties = .ok injectors) :
    injectors.map Injector.owner = ownersOf properties := by
  obtain ⟨groups, hgroups, hall⟩ := injectorsOf_eq_ok_iff.mp h
  rw [← map_owner_groups (grouped_groupByOwner hgroups)]
  clear h hgroups
  induction hall with
  | nil => rfl
  | cons hmade _ ih =>
    obtain ⟨fields, -, rfl⟩ := ofGroup_eq_ok_iff.mp hmade
    rw [List.map_cons, List.map_cons, ih]
    rfl

/-- The files are those of the injectors. -/
theorem exists_injectors_of_compile {settings : Settings} {properties : List Property}
    {files : List SourceFile} (h : compile settings properties = .ok files) :
    ∃ injectors, injectorsOf settings properties = .ok injectors ∧
      files = injectors.map (ofInjector settings) := by
  unfold compile at h
  cases hinjectors : injectorsOf settings properties with
  | error misuse => simp [hinjectors] at h
  | ok injectors =>
    rw [hinjectors] at h
    exact ⟨injectors, rfl, (Except.ok.inj h).symm⟩

/-- Files without slashes have the same path if they have the same names. -/
theorem relativePath_eq_iff {first second : SourceFile} (hfirst : first.Slashless)
    (hsecond : second.Slashless) :
    first.relativePath = second.relativePath ↔ first.names = second.names := by
  constructor
  · intro h
    exact (components_eq_iff hfirst hsecond).mp (congrArg Path.components h)
  · intro h
    rw [SourceFile.relativePath_eq, SourceFile.relativePath_eq, h]

/-- Two injectors have files with the same names exactly if their owners share a file. -/
theorem names_ofInjector_eq_iff {settings : Settings} {first second : Injector}
    (hfirst : first.className = simpleName first.owner.name ++ settings.naming.suffix)
    (hsecond : second.className = simpleName second.owner.name ++ settings.naming.suffix) :
    (ofInjector settings first).names = (ofInjector settings second).names ↔
      first.owner.SharesFile second.owner := by
  rw [names_eq_iff]
  change packageSegments first.owner.package = packageSegments second.owner.package ∧
    first.className = second.className ↔ _
  rw [hfirst, hsecond, Owner.SharesFile]
  refine and_congr_right fun _ => ⟨fun h => ?_, fun h => by rw [h]⟩
  have htext := congrArg String.toList h
  rw [String.toList_append, String.toList_append] at htext
  exact String.toList_inj.mp (List.append_cancel_right htext)

/-- Files with different paths are all there after a pass, each with its own text. -/
theorem readBytes_of_run {settings : Settings} {properties : List Property}
    {files : List SourceFile} (h : compile settings properties = .ok files)
    (hslashless : ∀ file ∈ files, file.Slashless)
    (hnodup : (files.map SourceFile.relativePath).Nodup) {disk : Disk} {root : Path}
    {folder : OutputFolder} {summary : Summary}
    (hrun : run settings (.properties properties) OutputFolder.sink (.fresh disk root) =
      (folder, .ok summary)) {file : SourceFile} (hmem : file ∈ files) :
    folder.disk.readBytes (root.push file.relativePath.text) = .ok file.code.toUTF8 := by
  have hfiles : filesOf settings (.properties properties) = .ok files := by
    rw [filesOf, PropertySource.discover]
    simp only [h]
  rw [run, hfiles] at hrun
  have hfilled := OutputFolder.filled_emitAll (OutputFolder.filled_fresh disk root) hrun
  rw [List.nil_append] at hfilled
  have hread := hfilled.readBytes_of_nodup hnodup hslashless hmem
  rwa [OutputFolder.pathOf, hfilled.root] at hread

/-- **When all files of a pass have different paths**: exactly when no two owners share a file.
Then a pass into an output folder leaves every file with its own text. -/
theorem relativePaths_nodup_iff (settings : Settings) (properties : List Property)
    (files : List SourceFile) (h : compile settings properties = .ok files)
    (hslashless : ∀ file ∈ files, file.Slashless) :
    files.length = (ownersOf properties).length ∧
    ((files.map SourceFile.relativePath).Nodup ↔
      (ownersOf properties).Pairwise fun first second => ¬ first.SharesFile second) ∧
    ((files.map SourceFile.relativePath).Nodup → ∀ disk root folder summary,
      run settings (.properties properties) OutputFolder.sink (.fresh disk root) =
        (folder, .ok summary) →
      ∀ file ∈ files, folder.disk.readBytes (root.push file.relativePath.text) =
        .ok file.code.toUTF8) := by
  refine ⟨?_, ?_, fun hnodup disk root folder summary hrun file hmem =>
    readBytes_of_run h hslashless hnodup hrun hmem⟩
  all_goals
    obtain ⟨injectors, hinjectors, rfl⟩ := exists_injectors_of_compile h
    rw [← map_owner_injectorsOf hinjectors]
  · rw [List.length_map, List.length_map]
  · rw [List.Nodup, List.map_map, List.pairwise_map, List.pairwise_map]
    refine List.Pairwise.iff_of_mem fun hfirst hsecond => not_congr ?_
    rw [Function.comp_apply, Function.comp_apply,
      relativePath_eq_iff (hslashless _ (List.mem_map_of_mem hfirst))
        (hslashless _ (List.mem_map_of_mem hsecond))]
    refine names_ofInjector_eq_iff ?_ ?_
    · rw [eq_make_of_mem hinjectors hfirst]
      rfl
    · rw [eq_make_of_mem hinjectors hsecond]
      rfl

/-- An integer property of a screen, whose package may be given. -/
def intOf (name owner : String) (package : Option String) : Property :=
  ⟨name, .ofName "kotlin.Int", .visible, some ⟨owner, package, .screen, none⟩, .plain⟩

/-- A class and a nested class of the same simple name have files of their own as long as the
class around the nested one counts as its package. -/
theorem relativePaths_nodup_nested :
    ∃ files, compile {} [intOf "id" "com.example.Main" none,
        intOf "count" "com.example.Outer.Main" none] = .ok files ∧
      (∀ file ∈ files, file.Slashless) ∧ (files.map SourceFile.relativePath).Nodup := by
  have hfiles : ∃ files, compile {} [intOf "id" "com.example.Main" none,
        intOf "count" "com.example.Outer.Main" none] = .ok files ∧
      ∀ file ∈ files, file.Slashless := ⟨_, rfl, by decide +kernel⟩
  obtain ⟨files, hcompile, hslashless⟩ := hfiles
  refine ⟨files, hcompile, hslashless, ?_⟩
  exact (relativePaths_nodup_iff {} _ files hcompile hslashless).2.1.mpr (by decide +kernel)

/-- With the package of the nested class given, both classes have the same file. -/
theorem not_relativePaths_nodup :
    ¬ ∀ settings properties files, compile settings properties = .ok files →
      (files.map SourceFile.relativePath).Nodup := by
  intro hall
  have hfiles : ∃ files, compile {} [intOf "id" "com.example.Main" none,
        intOf "count" "com.example.Outer.Main" (some "com.example")] = .ok files ∧
      ¬ (files.map SourceFile.relativePath).Nodup := ⟨_, rfl, by decide +kernel⟩
  obtain ⟨files, hcompile, hsame⟩ := hfiles
  exact hsame (hall {} _ files hcompile)

end Wiring
