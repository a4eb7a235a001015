import Wiring.Json.Printer
import Wiring.Problem
import Wiring.SourceFile

/-!
# Emission

Where generated files end up.  An output folder leaves a file alone that already holds the text
it should hold, and remembers for each file it has taken which source file it was generated
from.  That index can be written into the folder.

## Main definitions

* `Outcome` — written or unchanged.
* `Sink` — anything that takes generated files.
* `Sink.collecting` — the sink that keeps them in a list.
* `Provenance` — the index.
* `OutputFolder` — an output folder on a disk.
* `OutputFolder.emit`, `OutputFolder.writeIndex` — its two operations.
-/

namespace Wiring

/-- What taking a file came to. -/
inductive Outcome where
  /-- The file was written. -/
  | written
  /-- The file already held the text. -/
  | unchanged
  deriving Repr, DecidableEq, Inhabited

/-- What takes generated files one after the other. -/
structure Sink (σ : Type) where
  /-- Takes a file. -/
  emit : σ → SourceFile → σ × Except Problem Outcome

/-- The sink that keeps files in a list. -/
def Sink.collecting : Sink (List SourceFile) where
  emit files file := (files ++ [file], .ok .written)

/-! ### The index -/

/-- The source files of generated files by their relative paths, in the order of the paths. -/
abbrev Provenance := List (String × Option String)

/-- The name of the file that holds the index. -/
def Provenance.fileName : String := ".autowire-provenance.json"

/-- The path of a file in the index. -/
def Provenance.key (path : Path) : String :=
  path.text.map fun c => if c = '\\' then '/' else c

/-- Remembers the source of a file. -/
def Provenance.record (index : Provenance) (file : SourceFile) : Provenance :=
  Json.setMember (key file.relativePath) file.source index

/-- The index as the text of a file. -/
def Provenance.text (index : Provenance) : String :=
  (Json.Value.object (index.map fun (key, source) => (key, .ofString? source))).pretty ++ "\n"

/-! ### Output folders -/

/-- An output folder on a disk. -/
structure OutputFolder where
  /-- The path of the folder, which need not be there yet. -/
  root : Path
  /-- The index of the files it has taken. -/
  index : Provenance
  /-- The disk. -/
  disk : Disk
  deriving Inhabited

namespace OutputFolder

/-- The output folder at a path that has taken no file. -/
def fresh (disk : Disk) (root : Path) : OutputFolder := ⟨root, [], disk⟩

/-- The path of a file in the folder. -/
def pathOf (folder : OutputFolder) (file : SourceFile) : Path :=
  folder.root.push file.relativePath.text

/-- The file already holds the text. -/
def holds (folder : OutputFolder) (file : SourceFile) : Bool :=
  match folder.disk.readText (folder.pathOf file) with
  | .ok text => text = file.code
  | .error _ => false

/-- Remembers a file. -/
def remember (folder : OutputFolder) (file : SourceFile) : OutputFolder :=
  { folder with index := folder.index.record file }

/-- Makes a folder and all missing folders above it. -/
def makeFolders (folder : OutputFolder) (path : Path) : OutputFolder × Except Problem Unit :=
  match folder.disk.makeFolders path with
  | (disk, .ok ()) => ({ folder with disk }, .ok ())
  | (disk, .error fault) => ({ folder with disk }, .error (.disk path fault))

/-- Writes a text to a file. -/
def writeText (folder : OutputFolder) (path : Path) (text : String) :
    OutputFolder × Except Problem Unit :=
  match folder.disk.writeFile path text.toUTF8 with
  | .ok disk => ({ folder with disk }, .ok ())
  | .error fault => (folder, .error (.disk path fault))

/-- Makes a folder and then writes a text to a file. -/
def writeBelow (folder : OutputFolder) (above : Option Path) (path : Path) (text : String) :
    OutputFolder × Except Problem Unit :=
  match above with
  | none => folder.writeText path text
  | some parent =>
      match folder.makeFolders parent with
      | (made, .error problem) => (made, .error problem)
      | (made, .ok ()) => made.writeText path text

/-- Takes a file.  It is remembered once it holds its text. -/
def emit (folder : OutputFolder) (file : SourceFile) : OutputFolder × Except Problem Outcome :=
  if folder.holds file then (folder.remember file, .ok .unchanged)
  else
    let path := folder.pathOf file
    match folder.writeBelow path.parent? path file.code with
    | (left, .error problem) => (left, .error problem)
    | (done, .ok ()) => (done.remember file, .ok .written)

/-- Writes the index into the folder; the answer is its path. -/
def writeIndex (folder : OutputFolder) : OutputFolder × Except Problem Path :=
  let path := folder.root.push Provenance.fileName
  match folder.writeBelow (some folder.root) path folder.index.text with
  | (left, .error problem) => (left, .error problem)
  | (done, .ok ()) => (done, .ok path)

/-- Output folders take files. -/
def sink : Sink OutputFolder := ⟨emit⟩

end OutputFolder

end Wiring
