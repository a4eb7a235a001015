import Wiring.Pass
import Wiring.Proofs.OutputFolders

/-!
# Passes into an output folder

A pass hands its files to an output folder one after the other.  If all are taken, the folder is
filled with them; files that are there already are always taken, and files that hold their text
are left alone.

## Main definitions

* `OutputFolder.Located` — the path of a file leads to a file.

## Main results

* `OutputFolder.filled_emitAll` — a pass fills the output folder with its files.
* `OutputFolder.emitAll_of_located` — files that are there are all taken.
* `OutputFolder.emitAll_of_held` — files that hold their text are all left alone.
-/

namespace Wiring

open FileTree Disk

namespace OutputFolder

theorem sink_emit (folder : OutputFolder) (file : SourceFile) :
    sink.emit folder file = folder.emit file := by
  rw [sink]

/-- Files that are all taken fill the folder. -/
theorem filled_emitAll {start : Disk} {root : Path} {taken files : List SourceFile}
    {folder done : OutputFolder} {summary after : Summary}
    (h : Filled start root taken folder)
    (hemit : emitAll sink summary files folder = (done, .ok after)) :
    Filled start root (taken ++ files) done := by
  induction files generalizing taken folder summary with
  | nil =>
    obtain rfl := (Prod.mk.inj hemit).1
    rwa [List.append_nil]
  | cons file rest ih =>
    rw [emitAll, sink_emit] at hemit
    split at hemit
    · cases hemit
    · rename_i next outcome hnext
      have hrest := ih (h.emit hnext) hemit
      rwa [List.append_assoc] at hrest

/-- The path of the file leads to a file. -/
def Located (folder : OutputFolder) (file : SourceFile) : Prop :=
  ∃ place old, folder.LeadsTo place file ∧ folder.disk.tree.bytesAt? place = some old

/-- A file that is there stays there. -/
theorem Located.later {folder done : OutputFolder} {written : List String → Prop}
    {file : SourceFile} (hroot : done.root = folder.root)
    (hseries : Evolves written folder.disk done.disk) (h : folder.Located file) :
    done.Located file := by
  obtain ⟨place, old, hplace, hold⟩ := h
  obtain ⟨new, hnew⟩ := hseries.exists_bytesAt? hold
  exact ⟨place, new, hplace.later hroot hseries, hnew⟩

/-- **Files that are there are all taken.** -/
theorem emitAll_of_located {files : List SourceFile} {folder : OutputFolder} (summary : Summary)
    (h : ∀ file ∈ files, folder.Located file) :
    ∃ done after, emitAll sink summary files folder = (done, .ok after) := by
  induction files generalizing folder summary with
  | nil => exact ⟨folder, summary, rfl⟩
  | cons file rest ih =>
    obtain ⟨place, old, hplace, hold⟩ := h file List.mem_cons_self
    obtain ⟨next, outcome, hnext⟩ := emit_of_located hplace hold
    obtain ⟨hroot, -, found, -, -, hseries⟩ := emit_ok hnext
    rw [emitAll, sink_emit, hnext]
    exact ih _ fun other hother =>
      (h other (List.mem_cons_of_mem _ hother)).later hroot hseries

/-- **Files that hold their text are all left alone.** -/
theorem emitAll_of_held {files : List SourceFile} {folder : OutputFolder} (summary : Summary)
    (h : ∀ file ∈ files,
      folder.disk.readBytes (folder.pathOf file) = .ok file.code.toUTF8) :
    (emitAll sink summary files folder).2 =
      .ok { summary with
        unchanged := summary.unchanged ++ files.map SourceFile.relativePath } := by
  induction files generalizing folder summary with
  | nil => simp [emitAll]
  | cons file rest ih =>
    have hholds : folder.holds file = true := holds_iff.mpr (h file List.mem_cons_self)
    have hemit : folder.emit file = (folder.remember file, .ok .unchanged) := by
      rw [emit, if_pos hholds]
    have hrest : ∀ other ∈ rest, (folder.remember file).disk.readBytes
        ((folder.remember file).pathOf other) = .ok other.code.toUTF8 :=
      fun other hother => h other (List.mem_cons_of_mem _ hother)
    rw [emitAll, sink_emit, hemit]
    dsimp only
    rw [ih _ hrest]
    simp [Summary.add]

end OutputFolder

end Wiring
