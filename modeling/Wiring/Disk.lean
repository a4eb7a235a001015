import Wiring.FileTree
import Wiring.Path

/-!
# Disks

A file tree with a current folder, and what can be done to it by path.  An operation that
fails leaves the tree as it was.

## Main definitions

* `Disk` — a tree and the place of the current folder.
* `DiskFault` — why an operation fails.
* `Disk.locate` — the place a path leads to.
* `Disk.readBytes`, `Disk.readText`, `Disk.writeFile`, `Disk.makeFolder`, `Disk.makeFolders` —
  the operations.
* `Disk.filesBelow` — all files below a folder, by path.
-/

namespace Wiring

/-- Why an operation on a disk fails. -/
inductive DiskFault where
  /-- Nothing stands where the path leads. -/
  | notFound
  /-- Something stands where a new folder should be made. -/
  | alreadyExists
  /-- The path goes on below a file. -/
  | notFolder
  /-- A folder stands where a file is needed. -/
  | isFolder
  /-- A file that should hold text is not UTF-8. -/
  | notText
  deriving Repr, DecidableEq, Inhabited

/-- The wording of a fault. -/
def DiskFault.message : DiskFault → String
  | notFound => "No such file or directory (os error 2)"
  | alreadyExists => "File exists (os error 17)"
  | notFolder => "Not a directory (os error 20)"
  | isFolder => "Is a directory (os error 21)"
  | notText => "stream did not contain valid UTF-8"

/-- A file tree with a current folder. -/
structure Disk where
  /-- The tree. -/
  tree : FileTree
  /-- The place of the current folder. -/
  current : List String
  deriving Inhabited

namespace Disk

/-! ### Finding places -/

/-- Takes one step from a place, which must be a folder. -/
def step (tree : FileTree) (place : List String) (hop : Path.Hop) :
    Except DiskFault (List String) :=
  match tree.get? place with
  | none => .error .notFound
  | some (.file _) => .error .notFolder
  | some (.folder entries) =>
      match hop with
      | .here => .ok place
      | .up => .ok place.dropLast
      | .down name =>
          match entries.lookup name with
          | none => .error .notFound
          | some _ => .ok (place ++ [name])

/-- Takes steps one after the other. -/
def walk (tree : FileTree) (place : List String) : List Path.Hop → Except DiskFault (List String)
  | [] => .ok place
  | hop :: rest =>
      match step tree place hop with
      | .error fault => .error fault
      | .ok next => walk tree next rest

/-- The place where following a path starts. -/
def start (disk : Disk) (path : Path) : List String :=
  if path.isAbsolute then [] else disk.current

/-- The steps of a path; a slash at its end asks for a folder. -/
def steps (path : Path) : List Path.Hop :=
  path.hops ++ if Path.endsInSlash path.text then [.here] else []

/-- The place a path leads to. -/
def locate (disk : Disk) (path : Path) : Except DiskFault (List String) :=
  if path.text = "" then .error .notFound
  else walk disk.tree (disk.start path) (steps path)

/-- What a path leads to. -/
def find (disk : Disk) (path : Path) : Except DiskFault FileTree :=
  match disk.locate path with
  | .error fault => .error fault
  | .ok place =>
      match disk.tree.get? place with
      | none => .error .notFound
      | some found => .ok found

/-- The path leads to a file. -/
def isFile (disk : Disk) (path : Path) : Bool :=
  match disk.find path with
  | .ok found => !found.isFolder
  | .error _ => false

/-- The path leads to a folder. -/
def isFolder (disk : Disk) (path : Path) : Bool :=
  match disk.find path with
  | .ok found => found.isFolder
  | .error _ => false

/-- Where the last step of a path leads, whether or not something stands there.  Before the
last step the way must be there. -/
inductive Target where
  /-- An entry of a folder. -/
  | entry (folder : List String) (name : String)
  /-- A folder that stands. -/
  | standing (place : List String)
  deriving Repr, DecidableEq, Inhabited

/-- Where the last step of a path leads. -/
def target (disk : Disk) (path : Path) : Except DiskFault Target :=
  if path.text = "" then .error .notFound
  else
    match path.hops.getLast? with
    | none => .ok (.standing (disk.start path))
    | some hop =>
        match walk disk.tree (disk.start path) path.hops.dropLast with
        | .error fault => .error fault
        | .ok folder =>
            match hop, disk.tree.get? folder with
            | _, none => .error .notFound
            | _, some (.file _) => .error .notFolder
            | .down name, some (.folder _) => .ok (.entry folder name)
            | .here, some (.folder _) => .ok (.standing folder)
            | .up, some (.folder _) => .ok (.standing folder.dropLast)

/-! ### Operations -/

/-- The bytes of a file. -/
def readBytes (disk : Disk) (path : Path) : Except DiskFault ByteArray :=
  match disk.find path with
  | .error fault => .error fault
  | .ok (.folder _) => .error .isFolder
  | .ok (.file content) => .ok content

/-- The text of a file. -/
def readText (disk : Disk) (path : Path) : Except DiskFault String :=
  match disk.readBytes path with
  | .error fault => .error fault
  | .ok content =>
      match String.fromUTF8? content with
      | none => .error .notText
      | some text => .ok text

/-- Puts a tree at a place. -/
def set (disk : Disk) (place : List String) (tree : FileTree) : Disk :=
  { disk with tree := disk.tree.put place tree }

/-- Writes a file, which need not be there yet.  A path that ends in a slash names no new
file. -/
def writeFile (disk : Disk) (path : Path) (content : ByteArray) : Except DiskFault Disk :=
  match disk.target path with
  | .error fault => .error fault
  | .ok (.standing _) => .error .isFolder
  | .ok (.entry folder name) =>
      match disk.tree.get? (folder ++ [name]), Path.endsInSlash path.text with
      | some (.folder _), _ => .error .isFolder
      | some (.file _), true => .error .notFolder
      | none, true => .error .isFolder
      | _, false => .ok (disk.set (folder ++ [name]) (.file content))

/-- Makes a folder. -/
def makeFolder (disk : Disk) (path : Path) : Except DiskFault Disk :=
  match disk.target path with
  | .error fault => .error fault
  | .ok (.standing _) => .error .alreadyExists
  | .ok (.entry folder name) =>
      match disk.tree.get? (folder ++ [name]) with
      | some _ => .error .alreadyExists
      | none => .ok (disk.set (folder ++ [name]) (.folder []))

/-- Makes the first folder of a list of paths, each one above the one before it, after those
above it that are missing.  A folder that is there already is as good as one made. -/
def makeFoldersUp (disk : Disk) : List Path → Disk × Except DiskFault Unit
  | [] => (disk, .ok ())
  | path :: above =>
      match disk.makeFolder path with
      | .ok made => (made, .ok ())
      | .error .notFound =>
          match makeFoldersUp disk above with
          | (made, .error fault) => (made, .error fault)
          | (made, .ok ()) =>
              match made.makeFolder path with
              | .ok done => (done, .ok ())
              | .error fault => (made, if made.isFolder path then .ok () else .error fault)
      | .error fault => (disk, if disk.isFolder path then .ok () else .error fault)

/-- Makes a folder and all missing folders above it.  Folders that were made before a fault
stay. -/
def makeFolders (disk : Disk) (path : Path) : Disk × Except DiskFault Unit :=
  disk.makeFoldersUp path.ancestors

/-! ### Listing -/

/-- The path of a place below a folder. -/
def pathBelow (folder : Path) (place : List String) : Path := place.foldl Path.push folder

/-- All files below a folder, by path. -/
def filesBelow (disk : Disk) (folder : Path) : List Path :=
  match disk.find folder with
  | .ok found => found.files.map fun (place, _) => pathBelow folder place
  | .error _ => []

end Disk

end Wiring
