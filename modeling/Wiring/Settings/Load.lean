import Wiring.Problem
import Wiring.Settings.Environment

/-!
# Loading settings

Built-in settings, then a settings file, then the environment; each layer overrides the one
before.  The file is looked for in the current folder and in the folders above it; it need not
be there.

## Main definitions

* `Settings.defaultFile` — the file that is read if none is named.
* `Settings.findFile?` — the settings file.
* `Settings.load` — the settings of a disk and an environment.
-/

namespace Wiring.Settings

/-- The file that is read if none is named. -/
def defaultFile : Path := ⟨"autowire.toml"⟩

/-- A folder and all folders above it, by their places. -/
def upwards (place : List String) : List (List String) :=
  (List.range (place.length + 1)).reverse.map place.take

/-- The place of a folder as a path from the root. -/
def absolute (place : List String) : Path := place.foldl Path.push ⟨"/"⟩

/-- The file at a path, looked for upwards from the current folder: its path from the root and
its place on the disk. -/
def findFile? (disk : Disk) (path : Path) : Option Path :=
  if path.isAbsolute then if disk.isFile path then some path else none
  else
    ((upwards disk.current).map fun place => (absolute place).push path.text).find? disk.isFile

/-- Two lists without what they have in common at their start. -/
def withoutCommon {α : Type} [DecidableEq α] : List α → List α → List α × List α
  | a :: as, b :: bs => if a = b then withoutCommon as bs else (a :: as, b :: bs)
  | as, bs => (as, bs)

/-- The text of components. -/
def componentText : Path.Component → String
  | .root => "/"
  | .here => "."
  | .up => ".."
  | .entry name => name

/-- The path as seen from a folder, if that is shorter than the path from the root. -/
def shown (current : List String) (path : Path) : Path :=
  let (rest, base) := withoutCommon path.components (absolute current).components
  let relative := base.map (fun _ => Path.Component.up) ++ rest
  if relative.length < path.components.length then .ofPieces (relative.map componentText) else path

/-- The layer of the settings file; empty if there is none. -/
def fileLayer (disk : Disk) (path : Path) : Except Problem Layer :=
  match findFile? disk path with
  | none => .ok []
  | some file =>
      let place := shown disk.current file
      match disk.readText file with
      | .error _ => .error (.settingsFile place)
      | .ok text =>
          match Toml.parse text with
          | none => .error (.settingsFile place)
          | some members => .ok (ofTable (.file place) members)

/-- The settings of a disk and an environment.  The settings file is the named one, or else the
default one. -/
def load (disk : Disk) (environment : List (String × String)) (path : Option Path) :
    Except Problem Settings :=
  match fileLayer disk (path.getD defaultFile) with
  | .error problem => .error problem
  | .ok layer =>
      match ofLayer (merge layer (ofEnvironment environment)) with
      | .error fault => .error (.setting fault)
      | .ok settings => .ok settings

end Wiring.Settings
