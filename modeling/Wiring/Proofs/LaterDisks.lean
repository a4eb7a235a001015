import Wiring.Proofs.Writability

/-!
# A file on a later disk

What is done for other files may make folders and write files elsewhere.  It does not change
whether a file can be taken, nor the path with which there is a problem if it cannot.

What other files can change is that folders have been made before the file is looked at.  That
makes a difference only when the path of the output folder goes up again from a folder that is not
there: until that folder is made, nothing is found behind it.  With any other output folder the
file comes to the same outcome, or leads to the same problem.

## Main definitions

* `Disk.Apart` — a later disk on which nothing concerns a file.
* `Disk.Steady` — the path of an output folder does not go up from a missing folder.
* `OutputFolder.Alike` — results that differ at most in what is left to other files.

## Main results

* `Disk.Apart.writable_iff` — the same files can be taken.
* `OutputFolder.emit_alike`, `OutputFolder.emit_eq_of_steady` — the result on a later disk.
-/

namespace Wiring

open FileTree Wiring.Path

namespace Disk

variable {root : Path} {file : SourceFile} {before after : Disk}

/-- Nothing that happened between two disks concerns the file: no file on the way to it and none at
its place is new or has new bytes, and no folder is at its place but one that its own way needs. -/
structure Apart (root : Path) (file : SourceFile) (before after : Disk) : Prop where
  /-- The current folder is the same. -/
  current : after.current = before.current
  /-- Nothing was taken away. -/
  grows : Grows before.tree after.tree
  /-- No file on the way is new. -/
  way : ∀ other, OnWay (before.start root) (file.wayBelow root) other →
    after.tree.bytesAt? other = before.tree.bytesAt? other
  /-- The file is as it was. -/
  place : after.tree.bytesAt? (before.placeOf root file) =
    before.tree.bytesAt? (before.placeOf root file)
  /-- No folder was made at its place but one on the way. -/
  folder : after.tree.sightAt? (before.placeOf root file) = some .folder →
    Occupied before root file
  /-- If the way does not start in a folder, nothing happened. -/
  still : before.tree.sightAt? (before.start root) ≠ some .folder → after = before

namespace Apart

theorem start (h : Apart root file before after) (path : Path) :
    after.start path = before.start path := by
  rw [Disk.start, Disk.start, h.current]

theorem placeOf (h : Apart root file before after) :
    after.placeOf root file = before.placeOf root file := by
  rw [Disk.placeOf, Disk.placeOf, h.start]

theorem start_iff (h : Apart root file before after) :
    after.tree.sightAt? (after.start root) = some .folder ↔
      before.tree.sightAt? (before.start root) = some .folder := by
  rw [h.start]
  constructor
  · intro hafter
    by_contra hbefore
    rw [h.still hbefore] at hafter
    exact hbefore hafter
  · exact h.grows.folders _

theorem clear_iff (h : Apart root file before after) :
    Clear after.tree (after.start root) (file.wayBelow root) ↔
      Clear before.tree (before.start root) (file.wayBelow root) := by
  rw [h.start]
  exact forall_congr' fun other => imp_congr_right fun hother => by rw [h.way other hother]

theorem occupied_iff (h : Apart root file before after) :
    Occupied after root file ↔ Occupied before root file := by
  rw [Occupied, h.placeOf, h.start]
  constructor
  · rintro (hafter | hway)
    · exact h.folder hafter
    · exact .inr hway
  · exact Or.imp_left (h.grows.folders _)

/-- **The same files can be taken.** -/
theorem writable_iff (h : Apart root file before after) :
    Writable after root file ↔ Writable before root file := by
  simp only [writable_iff_and, h.start_iff, h.clear_iff, h.occupied_iff]

end Apart

/-- **The path of the output folder is steady**: it does not go up again from a folder that is not
there. -/
def Steady (disk : Disk) (root : Path) : Prop :=
  ∀ front back, root.hops = front ++ .up :: back →
    walk disk.tree (disk.start root) front ≠ .error .notFound

/-- A path that never goes up is steady on every disk. -/
theorem steady_of_no_up (disk : Disk) (h : Hop.up ∉ root.hops) : Steady disk root := by
  intro front back hhops
  exact absurd (hhops ▸ List.mem_append_right front List.mem_cons_self) h

section

variable (h : Steady before root) {front back : List Hop} {name : String}
  (hway : file.wayBelow root = front ++ .down name :: back)
  (hwalk : walk before.tree (before.start root) front = .ok (arrival (before.start root) front))
  (hfolder : before.tree.sightAt? (arrival (before.start root) front) = some .folder)
  (hnone : before.tree.sightAt? (arrival (before.start root) front ++ [name]) = none)
include h hway hwalk hfolder hnone

/-- Behind an entry that is missing a steady way does not go up. -/
theorem Steady.up_not_mem : Hop.up ∉ back := by
  intro hup
  obtain ⟨first, last, rfl⟩ := List.append_of_mem hup
  have hfail : walk before.tree (before.start root) (front ++ .down name :: first) =
      .error .notFound :=
    (walk_append_of_ok hwalk _).trans (walk_cons_of_none hfolder hnone first)
  have hnames : Hop.up ∉ (SourceFile.packageSegments file.package).map Hop.down := by simp
  have hsplit : root.hops ++ (SourceFile.packageSegments file.package).map .down =
      (front ++ .down name :: first) ++ .up :: last := by
    rw [← SourceFile.wayBelow, hway, List.append_assoc, List.cons_append]
  -- the step upwards is one of the path of the folder
  rcases List.append_eq_append_iff.mp hsplit with ⟨middle, -, hrest⟩ | ⟨middle, hroot, hrest⟩
  · exact hnames (hrest ▸ List.mem_append_right middle List.mem_cons_self)
  · cases middle with
    | nil =>
      rw [List.nil_append] at hrest
      exact hnames (hrest ▸ List.mem_cons_self)
    | cons hop middle =>
      obtain ⟨rfl, -⟩ := List.cons.inj hrest
      exact h _ _ hroot hfail

/-- On a steady way nothing stands behind an entry that is missing. -/
theorem Steady.sightAt?_eq_none {other : List Hop} (hother : other <+: back) (below : List String) :
    before.tree.sightAt? (arrival (arrival (before.start root) front ++ [name]) other ++ below) =
      none := by
  have hup : Hop.up ∉ other :=
    fun hmem => h.up_not_mem hway hwalk hfolder hnone (hother.subset hmem)
  obtain ⟨inside, hinside⟩ := exists_arrival_of_no_up
    (arrival (before.start root) front ++ [name]) hup
  rw [hinside, List.append_assoc]
  exact sightAt?_append_of_none hnone (inside ++ below)

end

/-- On a steady way without files one gets to the place of a file that is there. -/
theorem Steady.walk_of_clear (h : Steady before root)
    (hstart : before.tree.sightAt? (before.start root) = some .folder)
    (hclear : Clear before.tree (before.start root) (file.wayBelow root))
    (hplace : before.tree.sightAt? (before.placeOf root file) ≠ none) :
    walk before.tree (before.start root) (file.wayBelow root) =
        .ok (arrival (before.start root) (file.wayBelow root)) ∧
      before.tree.sightAt? (arrival (before.start root) (file.wayBelow root)) = some .folder := by
  cases course hstart (file.wayBelow root) with
  | free hwalk hfolder => exact ⟨hwalk, hfolder⟩
  | blocked content hhops hwalk hfile => exact absurd hclear (not_clear_of_file hhops hfile)
  | missing hhops hwalk hfolder hnone =>
    refine absurd ?_ hplace
    rw [Disk.placeOf, hhops, arrival_append, arrival_cons, landing]
    exact h.sightAt?_eq_none hhops hwalk hfolder hnone List.prefix_rfl _

/-- On a steady way that is not clear one gets to a file. -/
theorem Steady.exists_of_not_clear (h : Steady before root)
    (hstart : before.tree.sightAt? (before.start root) = some .folder)
    (hfull : ¬ Clear before.tree (before.start root) (file.wayBelow root)) :
    ∃ front back content, file.wayBelow root = front ++ back ∧
      walk before.tree (before.start root) front = .ok (arrival (before.start root) front) ∧
      before.tree.sightAt? (arrival (before.start root) front) = some (.file content) := by
  cases course hstart (file.wayBelow root) with
  | free hwalk hfolder => exact absurd (clear_of_walk hwalk hfolder) hfull
  | blocked content hhops hwalk hfile => exact ⟨_, _, content, hhops, hwalk, hfile⟩
  | @missing front back name hhops hwalk hfolder hnone =>
    refine absurd (fun other hother => ?_) hfull
    rw [hhops] at hother
    rcases onWay_append_iff.mp hother with hfront | hback
    · exact clear_of_walk hwalk hfolder other hfront
    · rcases onWay_cons_iff.mp hback with rfl | ⟨more, hmore, rfl⟩
      · exact clear_of_walk hwalk hfolder _ (onWay_arrival _ front)
      · have hsight := h.sightAt?_eq_none hhops hwalk hfolder hnone hmore []
        rw [List.append_nil] at hsight
        rw [landing, bytesAt?, Option.map_eq_none_iff.mp hsight]
        rfl

end Disk

/-! ### Taking the file -/

namespace OutputFolder

open Disk

variable {folder later : OutputFolder} {file : SourceFile}

/-- **Results that differ at most in what is left to other files**: both times the file was taken,
or both times there was a problem with the same path. -/
inductive Alike : Except Problem Outcome → Except Problem Outcome → Prop where
  /-- Taken both times. -/
  | taken (first second : Outcome) : Alike (.ok first) (.ok second)
  /-- A problem both times. -/
  | failed (path : Path) (first second : DiskFault) :
      Alike (.error (.disk path first)) (.error (.disk path second))

theorem Alike.symm {first second : Except Problem Outcome} (h : Alike first second) :
    Alike second first := by
  cases h with
  | taken => exact .taken _ _
  | failed => exact .failed _ _ _

theorem Alike.trans {first second third : Except Problem Outcome} (h : Alike first second)
    (h' : Alike second third) : Alike first third := by
  cases h with
  | taken => cases h'; exact .taken _ _
  | failed => cases h'; exact .failed _ _ _

/-- Every problem of taking a file is one of the disk. -/
theorem alike_self (folder : OutputFolder) {file : SourceFile} (hfile : file.Slashless) :
    Alike (folder.emit file).2 (folder.emit file).2 := by
  obtain ⟨parent, hparent, -⟩ := exists_fronts hfile folder
  cases hholds : folder.holds file with
  | true =>
    rw [emit, hholds, if_pos rfl]
    exact .taken _ _
  | false =>
    rw [emit_of_not_holds hparent hholds]
    split
    · exact .failed _ _ _
    · split
      · exact .failed _ _ _
      · exact .taken _ _

/-- What taking a file comes to depends on the disk alone. -/
theorem emit_snd_congr (hfile : file.Slashless) (hroot : later.root = folder.root)
    (hdisk : later.disk = folder.disk) : (later.emit file).2 = (folder.emit file).2 := by
  have hpath : later.pathOf file = folder.pathOf file := by rw [pathOf, pathOf, hroot]
  have hholds : later.holds file = folder.holds file := by
    rw [Bool.eq_iff_iff, holds_iff, holds_iff, hdisk, hpath]
  obtain ⟨parent, hparent, -⟩ := exists_fronts hfile folder
  have hparent' : (later.pathOf file).parent? = some parent := by rw [hpath, hparent]
  cases hold : folder.holds file with
  | true => simp [emit, hholds, hold]
  | false =>
    rw [emit_of_not_holds hparent hold, emit_of_not_holds hparent' (hholds.trans hold), hdisk,
      hpath]
    split
    · rfl
    · split <;> rfl

section Later

variable (hfile : file.Slashless) (hroot : later.root = folder.root)
  (hlater : Apart folder.root file folder.disk later.disk)
include hfile hroot hlater

/-- **On a later disk** the same files are taken, and problems are with the same paths. -/
theorem emit_alike : Alike (folder.emit file).2 (later.emit file).2 := by
  have hpath : later.pathOf file = folder.pathOf file := by rw [pathOf, pathOf, hroot]
  by_cases hstart : folder.disk.tree.sightAt? (folder.disk.start folder.root) = some .folder
  case neg =>
    rw [emit_snd_congr hfile hroot (hlater.still hstart)]
    exact alike_self folder hfile
  have hstart' := hlater.start_iff.mpr hstart
  by_cases hclear : Clear folder.disk.tree (folder.disk.start folder.root)
    (file.wayBelow folder.root)
  case neg =>
    obtain ⟨parent, hparent, -⟩ := exists_fronts hfile folder
    have hparent' : (later.pathOf file).parent? = some parent := by rw [hpath, hparent]
    have hfull := mt hlater.clear_iff.mp hclear
    rw [← hroot] at hstart' hfull
    obtain ⟨first, hfirst⟩ := emit_of_not_clear hfile hparent hstart hclear
    obtain ⟨second, hsecond⟩ := emit_of_not_clear hfile hparent' hstart' hfull
    rw [hfirst, hsecond]
    exact .failed parent first second
  have hclear' := hlater.clear_iff.mpr hclear
  by_cases hold : Occupied folder.disk folder.root file
  case neg =>
    have hfree : Writable folder.disk folder.root file := ⟨hstart, hclear, hold⟩
    have hfree' := hlater.writable_iff.mpr hfree
    rw [← hroot] at hfree'
    obtain ⟨done, first, hfirst⟩ := emit_of_writable hfile hfree
    obtain ⟨done', second, hsecond⟩ := emit_of_writable hfile hfree'
    rw [hfirst, hsecond]
    exact .taken first second
  have hold' := hlater.occupied_iff.mpr hold
  rw [← hroot] at hstart' hclear' hold'
  rw [emit_of_occupied hfile hstart hclear hold, emit_of_occupied hfile hstart' hclear' hold',
    hpath]
  exact .failed _ _ _

/-- A file that holds its text still does so on a later disk, and on a steady way the other way
round as well. -/
theorem holds_later (hsteady : Steady folder.disk folder.root)
    (hfree : Writable folder.disk folder.root file) : later.holds file = folder.holds file := by
  rw [Bool.eq_iff_iff, holds_iff, holds_iff, readBytes_eq_ok_iff, readBytes_eq_ok_iff]
  constructor
  · rintro ⟨place, hlocate, hbytes⟩
    rw [pathOf, hroot] at hlocate
    obtain ⟨rfl, -, -⟩ := locate_pathOf hfile hlocate
    rw [hlater.placeOf, hlater.place] at hbytes
    have hthere : folder.disk.tree.sightAt? (folder.disk.placeOf folder.root file) ≠ none := by
      simp [bytesAt?_eq_some.mp hbytes]
    obtain ⟨hwalk, hfolder⟩ := hsteady.walk_of_clear hfree.start hfree.clear hthere
    refine ⟨_, (locate_endsIn (hfile.endsIn_push _) (hfile.hops_push _)).mpr
      ⟨_, ?_, hfolder, hthere, rfl⟩, hbytes⟩
    rwa [start_push hfile]
  · rintro ⟨place, hlocate, hbytes⟩
    obtain ⟨rfl, -, -⟩ := locate_pathOf hfile hlocate
    refine ⟨_, ?_, hlater.place.trans hbytes⟩
    rw [pathOf, hroot]
    exact locate_mono hlater.grows hlater.current hlocate

/-- **With a steady folder** a file comes to the same outcome on a later disk, or leads to the same
problem. -/
theorem emit_eq_of_steady (hsteady : Steady folder.disk folder.root) :
    (later.emit file).2 = (folder.emit file).2 := by
  have hpath : later.pathOf file = folder.pathOf file := by rw [pathOf, pathOf, hroot]
  by_cases hstart : folder.disk.tree.sightAt? (folder.disk.start folder.root) = some .folder
  case neg => exact emit_snd_congr hfile hroot (hlater.still hstart)
  have hstart' := hlater.start_iff.mpr hstart
  by_cases hclear : Clear folder.disk.tree (folder.disk.start folder.root)
    (file.wayBelow folder.root)
  case neg =>
    -- the file in the way is still there, and one gets as far as before
    obtain ⟨parent, hparent, -⟩ := exists_fronts hfile folder
    have hparent' : (later.pathOf file).parent? = some parent := by rw [hpath, hparent]
    obtain ⟨front, back, content, hway, hwalk, hblock⟩ := hsteady.exists_of_not_clear hstart hclear
    obtain ⟨other, hblock'⟩ := hlater.grows.files _ _ hblock
    have hwalk' := walk_mono hlater.grows hwalk
    rw [← hlater.start] at hwalk' hblock'
    rw [emit_of_blocked hfile hparent hstart hway hwalk hblock]
    rw [← hroot] at hstart' hway hwalk' hblock'
    rw [emit_of_blocked hfile hparent' hstart' hway hwalk' hblock']
  have hclear' := hlater.clear_iff.mpr hclear
  by_cases hold : Occupied folder.disk folder.root file
  case neg =>
    have hfree : Writable folder.disk folder.root file := ⟨hstart, hclear, hold⟩
    have hfree' := hlater.writable_iff.mpr hfree
    have hholds := holds_later hfile hroot hlater hsteady hfree
    rw [← hroot] at hfree'
    obtain ⟨done, first, hfirst⟩ := emit_of_writable hfile hfree
    obtain ⟨done', second, hsecond⟩ := emit_of_writable hfile hfree'
    have hunchanged : first = .unchanged ↔ second = .unchanged := by
      have hiff : (folder.emit file).2 = .ok .unchanged ↔ (later.emit file).2 = .ok .unchanged := by
        rw [emit_unchanged_iff, emit_unchanged_iff, ← holds_iff, ← holds_iff, hholds]
      rwa [hfirst, hsecond, Except.ok.injEq, Except.ok.injEq] at hiff
    rw [hfirst, hsecond]
    cases first <;> cases second <;> simp_all
  have hold' := hlater.occupied_iff.mpr hold
  rw [← hroot] at hstart' hclear' hold'
  rw [emit_of_occupied hfile hstart hclear hold, emit_of_occupied hfile hstart' hclear' hold',
    hpath]

end Later

end OutputFolder

end Wiring
