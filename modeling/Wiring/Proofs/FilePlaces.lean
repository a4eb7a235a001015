import Wiring.Proofs.PathSteps
import Wiring.SourceFile

/-!
# Where generated files belong

The relative path of a generated file leads from folder to folder by the segments of its package
and ends in the name of its class.  Without slashes in package and class these are its steps one
by one, so the path tells files of different packages or classes apart; empty segments of a
package leave no trace in it.

## Main definitions

* `SourceFile.Slashless` — neither the package nor the class name has a slash.
* `SourceFile.names` — the folders of a file and its own name.

## Main results

* `SourceFile.hops_relativePath`, `SourceFile.components_relativePath` — the steps of the path.
* `SourceFile.components_eq_iff` — files with the same path.
* `SourceFile.exists_endsIn` — every relative path ends in a name with the extension `kt`, with or
  without slashes.
-/

namespace Wiring.SourceFile

open Wiring.Path

/-- Neither the package nor the class name has a slash. -/
def Slashless (file : SourceFile) : Prop :=
  '/' ∉ file.package.toList ∧ '/' ∉ file.className.toList

instance (file : SourceFile) : Decidable file.Slashless :=
  inferInstanceAs (Decidable ('/' ∉ file.package.toList ∧ '/' ∉ file.className.toList))

/-- The names of the folders of a file, and its own. -/
def names (file : SourceFile) : List String :=
  packageSegments file.package ++ [file.className ++ ".kt"]

/-- The segments of a package without slashes are names: they are not empty and have no dot. -/
theorem isName_of_mem_packageSegments {package segment : String}
    (hslash : '/' ∉ package.toList) (h : segment ∈ packageSegments package) : IsName segment := by
  obtain ⟨piece, hpiece, rfl⟩ := List.mem_map.mp h
  obtain ⟨hmem, hne⟩ := List.mem_filter.mp hpiece
  have hdot : '.' ∉ piece := Text.not_mem_of_mem_segments hmem
  rw [IsName, String.toList_ofList]
  refine ⟨fun hc => hslash (Text.mem_of_mem_segments hmem hc), hop?_eq_down ?_ ?_ ?_⟩
  · simpa using hne
  · rintro rfl
    simp at hdot
  · rintro rfl
    simp at hdot

theorem isName_className {className : String} (h : '/' ∉ className.toList) :
    IsName (className ++ ".kt") := by
  refine isName_of_length ?_ ?_
  · simpa [String.toList_append] using h
  · simp [String.toList_append]

theorem Slashless.isName {file : SourceFile} (h : file.Slashless) :
    ∀ name ∈ file.names, IsName name := by
  intro name hmem
  rcases List.mem_append.mp hmem with hmem | hmem
  · exact isName_of_mem_packageSegments h.1 hmem
  · rw [List.mem_singleton.mp hmem]
    exact isName_className h.2

/-- The relative path is that of the names, put together. -/
theorem relativePath_eq (file : SourceFile) : file.relativePath = ofPieces file.names := by
  rw [relativePath, names, ofPieces, ofPieces, List.foldl_append]
  rfl

namespace Slashless

variable {file : SourceFile}

theorem startsAtRoot (h : file.Slashless) :
    ∀ name ∈ file.names, Path.startsAtRoot name = false :=
  fun name hmem => (h.isName name hmem).startsAtRoot

theorem isAbsolute_relativePath (h : file.Slashless) : file.relativePath.isAbsolute = false := by
  rw [relativePath_eq, ofPieces, isAbsolute_foldl_push h.startsAtRoot]
  rfl

/-- The relative path goes from one name to the next. -/
theorem hops_relativePath (h : file.Slashless) :
    file.relativePath.hops = file.names.map .down := by
  rw [relativePath_eq, ofPieces, hops_foldl_push h.startsAtRoot, hops_names h.isName]
  rfl

/-- The components of the relative path are its names. -/
theorem components_relativePath (h : file.Slashless) :
    file.relativePath.components = file.names.map .entry := by
  have hmap : (file.names.map Hop.down).filterMap Hop.component? = file.names.map .entry := by
    rw [List.filterMap_map]
    exact congrFun (List.filterMap_eq_map (f := Component.entry)) file.names
  rw [components, h.isAbsolute_relativePath, h.hops_relativePath]
  cases hnames : file.names with
  | nil => rfl
  | cons name rest =>
    rw [hnames] at hmap
    exact hmap

end Slashless

/-- Two files have the same names if their packages have the same segments and their classes
the same name. -/
theorem names_eq_iff {first second : SourceFile} :
    first.names = second.names ↔
      packageSegments first.package = packageSegments second.package ∧
        first.className = second.className := by
  constructor
  · intro h
    obtain ⟨hsegments, hname⟩ := List.append_inj' h rfl
    refine ⟨hsegments, String.toList_inj.mp ?_⟩
    have htext := congrArg String.toList (List.singleton_inj.mp hname)
    rw [String.toList_append, String.toList_append] at htext
    exact List.append_cancel_right htext
  · rintro ⟨hsegments, hname⟩
    rw [names, names, hsegments, hname]

/-- Files with the same names have the same relative path, and the other way round without
slashes. -/
theorem components_eq_iff {first second : SourceFile} (hfirst : first.Slashless)
    (hsecond : second.Slashless) :
    first.relativePath.components = second.relativePath.components ↔
      first.names = second.names := by
  rw [hfirst.components_relativePath, hsecond.components_relativePath]
  exact List.map_inj_right fun _ _ h => Component.entry.inj h

/-- The relative path ends with the name of the class and the extension. -/
theorem exists_relativePath_text (file : SourceFile) :
    ∃ before, file.relativePath.text = before ++ ".kt" := by
  obtain ⟨before, hbefore⟩ :=
    exists_push_text (ofPieces (packageSegments file.package)) (file.className ++ ".kt")
  exact ⟨before ++ file.className, by rw [relativePath, hbefore, String.append_assoc]⟩

/-- A file below a folder ends in a name with the extension, whatever its package and class. -/
theorem exists_endsIn (file : SourceFile) (root : Path) :
    ∃ stem, (root.push file.relativePath.text).EndsIn (stem ++ ".kt") := by
  obtain ⟨before, hbefore⟩ := exists_push_text root file.relativePath.text
  obtain ⟨inside, hinside⟩ := file.exists_relativePath_text
  have htext : (root.push file.relativePath.text).text = before ++ inside ++ ".kt" := by
    rw [hbefore, hinside, String.append_assoc]
  exact exists_endsIn_of_append htext (by decide) (by decide)

end Wiring.SourceFile
