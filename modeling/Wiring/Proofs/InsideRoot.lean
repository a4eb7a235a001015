import Wiring.Proofs.OwnerFiles
import Wiring.Proofs.Ways
import Wiring.Proofs.Sessions

/-!
# Files inside the output folder

A path that does not start at the root and takes no step upwards leads to a place below the one it
starts from, so a file with such a relative path is written below the output folder.  The relative
path of a file is put together of the segments of its package and the name of its class, and it
stays inside exactly if each of these pieces does.  A piece that starts with a slash goes back to
the root, and two dots between slashes, which only the suffix of the classes can bring, lead
upwards.

## Main definitions

* `Path.Inside` — a path that leads to places below the one it starts from.
* `Owner.FileInside` — the pieces of the path of an owner's file stay inside.
* `OutputFolder.Below` — a place below an output folder.
* `OutputFolder.WritesBelow` — files are written below the output folder only.

## Main results

* `Path.inside_ofPieces` — a path stays inside exactly if each of its pieces does.
* `OutputFolder.writesBelow_calls` — calls with files whose paths stay inside write below the
  folder.
* `relativePaths_inside_iff` — **when all files of a pass stay inside the output folder**.
* `not_relativePaths_inside` — a package that starts with a slash.
-/

namespace Wiring

open FileTree Disk

/-! ### Paths that stay inside -/

namespace Path

/-- The path does not start at the root, and it takes no step upwards. -/
def Inside (path : Path) : Prop := path.isAbsolute = false ∧ Component.up ∉ path.components

instance (path : Path) : Decidable path.Inside := inferInstanceAs (Decidable (_ ∧ _))

theorem component?_eq_up {hop : Hop} : hop.component? = some .up ↔ hop = .up := by
  cases hop <;> simp [Hop.component?]

theorem up_mem_filterMap {hops : List Hop} :
    Component.up ∈ hops.filterMap Hop.component? ↔ Hop.up ∈ hops := by
  simp only [List.mem_filterMap, component?_eq_up, exists_eq_right]

/-- The steps upwards are those that are seen in the components. -/
theorem up_mem_components {path : Path} : Component.up ∈ path.components ↔ Hop.up ∈ path.hops := by
  unfold components
  split
  · rw [List.mem_cons, or_iff_right (by simp), up_mem_filterMap]
  · split
    · rename_i rest hhops
      rw [hhops, List.mem_cons, List.mem_cons, or_iff_right (by simp), or_iff_right (by simp),
        up_mem_filterMap]
    · exact up_mem_filterMap

theorem inside_iff {path : Path} : path.Inside ↔ path.isAbsolute = false ∧ Hop.up ∉ path.hops := by
  rw [Inside, up_mem_components]

/-- A path starts at the root again if a piece does that is put below it. -/
theorem isAbsolute_push_iff {path : Path} {piece : String} :
    (path.push piece).isAbsolute = true ↔ path.isAbsolute = true ∨ startsAtRoot piece = true := by
  cases hroot : startsAtRoot piece with
  | true =>
    rw [push, if_pos hroot]
    simp [isAbsolute, hroot]
  | false =>
    rw [isAbsolute_push path hroot]
    simp

theorem isAbsolute_foldl_push_iff {pieces : List String} {path : Path} :
    (pieces.foldl push path).isAbsolute = true ↔
      path.isAbsolute = true ∨ ∃ piece ∈ pieces, startsAtRoot piece = true := by
  induction pieces generalizing path with
  | nil => simp
  | cons piece rest ih =>
    rw [List.foldl_cons, ih, isAbsolute_push_iff, or_assoc]
    simp

/-- **A path of pieces stays inside exactly if each piece does.** -/
theorem inside_ofPieces {pieces : List String} :
    (ofPieces pieces).Inside ↔ ∀ piece ∈ pieces, Inside ⟨piece⟩ := by
  have habsolute : (ofPieces pieces).isAbsolute = false ↔
      ∀ piece ∈ pieces, startsAtRoot piece = false := by
    rw [← Bool.not_eq_true, ofPieces, isAbsolute_foldl_push_iff]
    simp [isAbsolute, startsAtRoot]
  simp only [inside_iff, habsolute]
  -- if no piece starts at the root, the steps of the path are those of its pieces in a row
  constructor
  · rintro ⟨hroot, hup⟩ piece hmem
    rw [ofPieces, hops_foldl_push hroot, List.mem_append, not_or] at hup
    exact ⟨hroot piece hmem, fun h => hup.2 (List.mem_flatMap.mpr ⟨piece, hmem, h⟩)⟩
  · intro hall
    have hroot : ∀ piece ∈ pieces, startsAtRoot piece = false := fun piece hmem =>
      (hall piece hmem).1
    refine ⟨hroot, ?_⟩
    rw [ofPieces, hops_foldl_push hroot]
    intro h
    rcases List.mem_append.mp h with h | h
    · cases h
    · obtain ⟨piece, hmem, hup⟩ := List.mem_flatMap.mp h
      exact (hall piece hmem).2 hup

/-- A step upwards is written with two dots. -/
theorem hop?_eq_up {piece : List Char} : hop? piece = some .up ↔ piece = ['.', '.'] := by
  constructor
  · intro h
    unfold hop? at h
    split at h <;> simp_all
  · rintro rfl
    rfl

theorem up_mem_hops {path : Path} :
    Hop.up ∈ path.hops ↔ ['.', '.'] ∈ Text.segments '/' path.text.toList := by
  simp only [hops, List.mem_filterMap, hop?_eq_up, exists_eq_right]

end Path

/-! ### The paths of generated files -/

/-- The pieces of the path of an owner's file stay inside: no segment of its package starts with a
slash, nor does the name of its class, and that name has no two dots in front of a slash. -/
@[mk_iff] structure Owner.FileInside (suffix : String) (owner : Owner) : Prop where
  /-- The segments of the package. -/
  segments : ∀ segment ∈ SourceFile.packageSegments owner.package, Path.startsAtRoot segment = false
  /-- The start of the name. -/
  start : Path.startsAtRoot (simpleName owner.name ++ suffix) = false
  /-- The name up to its last slash. -/
  noDots : ['.', '.'] ∉ (Text.segments '/' (simpleName owner.name ++ suffix).toList).dropLast

instance (suffix : String) (owner : Owner) : Decidable (owner.FileInside suffix) :=
  decidable_of_iff' _ (Owner.fileInside_iff suffix owner)

namespace SourceFile

/-- A segment of a package has no dots, so it only leaves if it starts with a slash. -/
theorem inside_segment_iff {package segment : String} (h : segment ∈ packageSegments package) :
    Path.Inside ⟨segment⟩ ↔ Path.startsAtRoot segment = false := by
  obtain ⟨piece, hpiece, rfl⟩ := List.mem_map.mp h
  have hdot : '.' ∉ piece := Text.not_mem_of_mem_segments (List.mem_filter.mp hpiece).1
  rw [Path.inside_iff, Path.up_mem_hops, String.toList_ofList]
  refine and_iff_left fun hdots => hdot ?_
  exact Text.mem_of_mem_segments hdots List.mem_cons_self

theorem startsAtRoot_extension (className : String) :
    Path.startsAtRoot (className ++ ".kt") = Path.startsAtRoot className := by
  by_cases hempty : className = ""
  · rw [hempty]
    decide
  · exact Path.startsAtRoot_append hempty

/-- The extension goes to the last piece of a name, which is a step to an entry then. -/
theorem inside_className_iff {className : String} :
    Path.Inside ⟨className ++ ".kt"⟩ ↔ Path.startsAtRoot className = false ∧
      ['.', '.'] ∉ (Text.segments '/' className.toList).dropLast := by
  have hslash : '/' ∉ ".kt".toList := by decide
  obtain ⟨pieces, stem, hpieces, happend⟩ :=
    Text.segments_append_of_not_mem className.toList hslash
  have hlast : ['.', '.'] ≠ stem ++ ".kt".toList := by
    intro h
    have hlength := congrArg List.length h
    rw [List.length_append] at hlength
    simp at hlength
  rw [Path.inside_iff, Path.isAbsolute, startsAtRoot_extension, Path.up_mem_hops,
    String.toList_append, happend, hpieces, List.dropLast_concat, List.mem_append,
    List.mem_singleton, or_iff_left hlast]

/-- The path of a file stays inside if the segments of its package and its name do. -/
theorem inside_relativePath_iff {file : SourceFile} :
    file.relativePath.Inside ↔
      (∀ segment ∈ packageSegments file.package, Path.startsAtRoot segment = false) ∧
        Path.startsAtRoot file.className = false ∧
          ['.', '.'] ∉ (Text.segments '/' file.className.toList).dropLast := by
  rw [relativePath_eq, Path.inside_ofPieces, names, List.forall_mem_append,
    List.forall_mem_singleton, inside_className_iff]
  exact and_congr_left fun _ => forall₂_congr fun segment hmem => inside_segment_iff hmem

/-- Without slashes every file stays inside. -/
theorem Slashless.inside {file : SourceFile} (h : file.Slashless) : file.relativePath.Inside := by
  rw [Path.inside_iff, h.hops_relativePath]
  exact ⟨h.isAbsolute_relativePath, by simp⟩

end SourceFile

/-! ### Places below an output folder -/

namespace OutputFolder

variable {folder next done : OutputFolder}

/-- The place lies below the one to which the path of the folder leads. -/
def Below (folder : OutputFolder) (place : List String) : Prop :=
  ∃ above, walk folder.disk.tree (folder.disk.start folder.root) folder.root.hops = .ok above ∧
    above <+: place

/-- A place below the folder stays below it, whatever is written. -/
theorem Below.later {written : List String → Prop} {place : List String}
    (h : folder.Below place) (hroot : done.root = folder.root)
    (hseries : Evolves written folder.disk done.disk) : done.Below place := by
  obtain ⟨above, hwalk, hbelow⟩ := h
  refine ⟨above, ?_, hbelow⟩
  rw [hroot, hseries.start]
  exact walk_mono hseries.grows hwalk

/-- A path that stays inside leads to a place below the folder. -/
theorem LeadsTo.below {file : SourceFile} {place : List String}
    (hinside : file.relativePath.Inside) (h : folder.LeadsTo place file) : folder.Below place := by
  obtain ⟨hroot, hup⟩ := Path.inside_iff.mp hinside
  obtain ⟨above, habove, hbelow⟩ := h.exists_walk hroot
  -- no step leads upwards, so the place of the folder stays at the front
  obtain ⟨below, harrival⟩ := exists_arrival_of_no_up above hup
  exact ⟨above, habove, below, by rw [eq_arrival_of_walk hbelow, harrival]⟩

/-- The index lies below the folder. -/
theorem IndexAt.below {place : List String} (h : folder.IndexAt place) : folder.Below place := by
  have hname := Provenance.isName_fileName
  have hhops : folder.indexPath.hops = folder.root.hops ++ [.down Provenance.fileName] := by
    rw [indexPath, Path.hops_push _ hname.startsAtRoot, hname.hops]
  obtain ⟨above, hwalk, -, -, rfl⟩ := (locate_endsIn folder.indexPath_endsIn hhops).mp h
  rw [start, indexPath, Path.isAbsolute_push _ hname.startsAtRoot] at hwalk
  exact ⟨above, hwalk, List.prefix_append above _⟩

/-! ### Writing below an output folder -/

/-- One output folder comes from another, and files were written below it only. -/
structure WritesBelow (before after : OutputFolder) : Prop where
  /-- The folder is where it was. -/
  root : after.root = before.root
  /-- What was written lies below it. -/
  evolves : Evolves after.Below before.disk after.disk

namespace WritesBelow

theorem refl (folder : OutputFolder) : folder.WritesBelow folder := ⟨rfl, .refl⟩

theorem trans (h : folder.WritesBelow next) (h' : next.WritesBelow done) :
    folder.WritesBelow done where
  root := h'.root.trans h.root
  -- what was below the folder in between is still below it in the end
  evolves := (h.evolves.mono fun _ hplace => hplace.later h'.root h'.evolves).trans h'.evolves

/-- Nothing but folders was made. -/
theorem of_quiet (hroot : done.root = folder.root)
    (hseries : Evolves (fun _ => False) folder.disk done.disk) : folder.WritesBelow done :=
  ⟨hroot, hseries.mono fun _ => False.elim⟩

/-- A file that does not lie below the folder is as it was. -/
theorem bytesAt? (h : folder.WritesBelow done) {place : List String}
    (hplace : ¬ done.Below place) :
    done.disk.tree.bytesAt? place = folder.disk.tree.bytesAt? place :=
  h.evolves.bytesAt? hplace

end WritesBelow

/-- Taking a file whose path stays inside, with success or not, writes below the folder only. -/
theorem writesBelow_emit (folder : OutputFolder) {file : SourceFile}
    (hinside : file.relativePath.Inside) : folder.WritesBelow (folder.emit file).1 := by
  rcases hemit : folder.emit file with ⟨done, problem | outcome⟩
  · obtain ⟨hroot, -, hseries⟩ := emit_error hemit
    exact .of_quiet hroot hseries
  · obtain ⟨hroot, -, found, hfound, -, hseries⟩ := emit_ok hemit
    have hleads : done.LeadsTo found file := by
      rwa [LeadsTo, pathOf, hroot]
    refine ⟨hroot, hseries.mono ?_⟩
    rintro place rfl
    exact hleads.below hinside

/-- Writing the index writes below the folder only. -/
theorem writesBelow_writeIndex (folder : OutputFolder) :
    folder.WritesBelow folder.writeIndex.1 := by
  rcases hwrite : folder.writeIndex with ⟨done, problem | path⟩
  · obtain ⟨hroot, -, hseries⟩ := writeIndex_error hwrite
    exact .of_quiet hroot hseries
  · obtain ⟨-, hroot, -, found, hfound, -, hseries⟩ := writeIndex_ok hwrite
    have hindex : done.IndexAt found := by
      rwa [IndexAt, indexPath, hroot]
    refine ⟨hroot, hseries.mono ?_⟩
    rintro place rfl
    exact hindex.below

/-- **Calls with files whose paths stay inside** write below the folder only, whichever of them
fail. -/
theorem writesBelow_calls {calls : List FolderCall}
    (hinside : ∀ file, .emit file ∈ calls → file.relativePath.Inside) (session : Session) :
    session.folder.WritesBelow (session.run calls).folder := by
  induction calls generalizing session with
  | nil => exact .refl session.folder
  | cons next rest ih =>
    -- a call that fails counts too: it may have made folders
    have hnext : session.folder.WritesBelow (session.call next).folder := by
      cases next with
      | emit file =>
        have hemit := writesBelow_emit session.folder (hinside file List.mem_cons_self)
        rcases session.call_emit_cases file with
          ⟨done, outcome, hdone, hcall⟩ | ⟨left, problem, hleft, hcall⟩
        · rw [hcall]
          rwa [hdone] at hemit
        · rw [hcall]
          rwa [hleft] at hemit
      | writeIndex => exact writesBelow_writeIndex session.folder
    exact hnext.trans (ih (fun file hmem => hinside file (List.mem_cons_of_mem _ hmem)) _)

/-- So does a pass with such files, which ends at the first failure. -/
theorem writesBelow_emitAll {files : List SourceFile}
    (hinside : ∀ file ∈ files, file.relativePath.Inside) (summary : Summary)
    (folder : OutputFolder) :
    folder.WritesBelow (emitAll sink summary files folder).1 := by
  induction files generalizing folder summary with
  | nil => exact .refl folder
  | cons file rest ih =>
    have hemit := writesBelow_emit folder (hinside file List.mem_cons_self)
    have hrest := fun other hother => hinside other (List.mem_cons_of_mem _ hother)
    rw [emitAll, sink_emit]
    split
    · rename_i next problem hnext
      rwa [hnext] at hemit
    · rename_i next outcome hnext
      rw [hnext] at hemit
      exact hemit.trans (ih hrest _ next)

end OutputFolder

/-! ### The files of a pass -/

/-- The path of the file of an injector stays inside exactly if that of its owner does. -/
theorem inside_ofInjector_iff {settings : Settings} {properties : List Property}
    {injectors : List Injector} (h : injectorsOf settings properties = .ok injectors)
    {injector : Injector} (hmem : injector ∈ injectors) :
    (SourceFile.ofInjector settings injector).relativePath.Inside ↔
      injector.owner.FileInside settings.naming.suffix := by
  have hclass : (SourceFile.ofInjector settings injector).className =
      simpleName injector.owner.name ++ settings.naming.suffix :=
    congrArg Injector.className (eq_make_of_mem h hmem)
  rw [SourceFile.inside_relativePath_iff, Owner.fileInside_iff, hclass]
  rfl

/-- **When the files of a pass stay inside the output folder**: exactly when no segment of the
package of an owner and no class name starts with a slash, and no class name has two dots in front
of a slash.  Then no pass, and no other series of calls with these files, writes a file that does
not lie below the output folder. -/
theorem relativePaths_inside_iff (settings : Settings) (properties : List Property)
    (files : List SourceFile) (h : compile settings properties = .ok files) :
    ((∀ file ∈ files, file.relativePath.Inside) ↔
      ∀ owner ∈ ownersOf properties, owner.FileInside settings.naming.suffix) ∧
    ((∀ file ∈ files, file.relativePath.Inside) →
      (∀ folder : OutputFolder,
        folder.WritesBelow (run settings (.properties properties) OutputFolder.sink folder).1) ∧
      ∀ (session : Session) (calls : List FolderCall),
        (∀ file, .emit file ∈ calls → file ∈ files) →
        session.folder.WritesBelow (session.run calls).folder) := by
  refine ⟨?_, fun hinside => ⟨fun folder => ?_, fun session calls hcalls => ?_⟩⟩
  · obtain ⟨injectors, hinjectors, rfl⟩ := exists_injectors_of_compile h
    rw [← map_owner_injectorsOf hinjectors, List.forall_mem_map, List.forall_mem_map]
    exact forall₂_congr fun injector hmem => inside_ofInjector_iff hinjectors hmem
  · have hfiles : filesOf settings (.properties properties) = .ok files := by
      rw [filesOf, PropertySource.discover]
      simp only [h]
    rw [run, hfiles]
    exact OutputFolder.writesBelow_emitAll hinside .empty folder
  · exact OutputFolder.writesBelow_calls (fun file hmem => hinside file (hcalls file hmem)) session

/-- The file of an ordinary screen stays inside, so passes write below their output folders. -/
theorem relativePaths_inside_screen :
    ∃ files, compile {} [intOf "id" "com.example.Main" none] = .ok files ∧
      (∀ file ∈ files, file.relativePath.Inside) ∧
      ∀ folder : OutputFolder, folder.WritesBelow
        (run {} (.properties [intOf "id" "com.example.Main" none]) OutputFolder.sink folder).1 := by
  have hfiles : ∃ files, compile {} [intOf "id" "com.example.Main" none] = .ok files :=
    ⟨_, rfl⟩
  obtain ⟨files, hcompile⟩ := hfiles
  have hspec := relativePaths_inside_iff {} _ files hcompile
  have hinside := hspec.1.mpr (by decide +kernel)
  exact ⟨files, hcompile, hinside, (hspec.2 hinside).1⟩

/-- The folder `out` of an empty disk. -/
def emptyFolder : OutputFolder := .fresh ⟨.folder [], []⟩ ⟨"out"⟩

/-- A screen whose package starts with a slash. -/
def rootedScreen : List Property := [intOf "id" "com.example.Main" (some "/com/example")]

/-- The folder after a pass with the screen. -/
def strayPass : OutputFolder :=
  (run {} (.properties rootedScreen) OutputFolder.sink emptyFolder).1

/-- A package that starts with a slash leads to the root of the disk, out of every output folder: a
pass into the folder `out` writes a file that does not lie below it. -/
theorem not_relativePaths_inside :
    (¬ ∀ settings properties files, compile settings properties = .ok files →
      ∀ file ∈ files, file.relativePath.Inside) ∧
    ¬ emptyFolder.WritesBelow strayPass := by
  constructor
  · intro hall
    have hfiles : ∃ file, compile {} rootedScreen = .ok [file] ∧ ¬ file.relativePath.Inside :=
      ⟨_, rfl, by decide +kernel⟩
    obtain ⟨file, hcompile, hout⟩ := hfiles
    exact hout (hall {} _ [file] hcompile file List.mem_cons_self)
  · intro hwrites
    have hwritten : (strayPass.disk.tree.bytesAt?
        ["com", "example", "Main$$ARouter$$Autowired.kt"]).isSome = true := by
      decide +kernel
    -- the folder itself was not even made, so nothing lies below it
    have hmissing : (walk strayPass.disk.tree (strayPass.disk.start strayPass.root)
        strayPass.root.hops).toOption = none := by
      decide +kernel
    have hstray : ¬ strayPass.Below ["com", "example", "Main$$ARouter$$Autowired.kt"] := by
      rintro ⟨above, hwalk, -⟩
      rw [hwalk] at hmissing
      cases hmissing
    rw [hwrites.bytesAt? hstray] at hwritten
    cases hwritten

end Wiring
