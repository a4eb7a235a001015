import Wiring.Generation

/-!
# The command line

The thin layer around the command: it takes a picture of the files that the command may look
at, runs the command on it, and carries over to the real disk what has changed.

## Main definitions

* `Shell.picture` — the files the command may look at.
* `Shell.carryOver` — writing what has changed.
* `main` — the program.
-/

namespace Wiring.Shell

/-- The path of a place on the real disk. -/
def realPath (place : List String) : String := (Settings.absolute place).text

/-- The bytes of a real file; none can be had from one that is closed to the program. -/
def bytesOf (path : String) : IO ByteArray := do
  try IO.FS.readBinFile path catch _ => pure .empty

/-- Whether a real path leads to a folder; `none` if it leads nowhere. -/
def folderAt (path : String) : IO (Option Bool) := do
  try
    let found ← IO.FS.realPath path
    return some (← found.isDir)
  catch _ => return none

/-- The generated files and manifests are looked into; of all others the names are enough. -/
def isLookedInto (name : String) : Bool := name.endsWith ".json" || name.endsWith ".kt"

/-- The tree below a real folder.  Links are left out. -/
partial def treeBelow (path : String) : IO FileTree := do
  let mut entries : List (String × FileTree) := []
  try
    let found ← IO.FS.realPath path
    for entry in (← found.readDir) do
      let below := path ++ "/" ++ entry.fileName
      match (← entry.path.symlinkMetadata).type with
      | .dir => entries := (entry.fileName, ← treeBelow below) :: entries
      | .file =>
          let content ← if isLookedInto entry.fileName then bytesOf below else pure .empty
          entries := (entry.fileName, .file content) :: entries
      | _ => pure ()
  catch _ => pure ()
  return .folder entries

/-- The picture with what really stands at a place, if its folder is in the picture. -/
def withPlace (tree : FileTree) (place : List String) : IO FileTree := do
  if (tree.get? place).isSome then return tree
  match ← folderAt (realPath place) with
  | none => return tree
  | some true => return tree.put place (.folder [])
  | some false => return tree.put place (.file (← bytesOf (realPath place)))

/-- The picture with everything on the way to a place. -/
def withWay (tree : FileTree) (place : List String) : IO FileTree :=
  (Settings.upwards place).reverse.foldlM withPlace tree

/-- The picture with everything on the way of a path, and with what lies below its end. -/
def withPath (deep : Bool) (disk : Disk) (path : Path) : IO Disk := do
  let mut place := disk.start path
  let mut tree ← withWay disk.tree place
  for hop in path.hops do
    match hop with
    | .here => pure ()
    | .up => place := place.dropLast
    | .down name => place := place ++ [name]
    tree ← withPlace tree place
  if deep then
    if let some (.folder _) := tree.get? place then
      tree := tree.put place (← treeBelow (realPath place))
  return { disk with tree }

/-- The paths at which a settings file is looked for. -/
def settingsPaths (disk : Disk) (path : Path) : List Path :=
  if path.isAbsolute then [path]
  else (Settings.upwards disk.current).map fun place => (Settings.absolute place).push path.text

/-- A picture of the files the command may look at. -/
def picture (arguments : Arguments) : IO Disk := do
  let here := (← IO.currentDir).toString
  let current := (Text.segments '/' here.toList).filterMap fun piece =>
    if piece.isEmpty then none else some (String.ofList piece)
  let mut disk : Disk := ⟨.folder [], current⟩
  disk := { disk with tree := ← withWay disk.tree current }
  let settings : Path := ⟨arguments.config.getD Settings.defaultFile.text⟩
  disk ← (settingsPaths disk settings).foldlM (withPath false) disk
  disk ← withPath true disk ⟨arguments.out.getD Arguments.defaultOut⟩
  match arguments.file with
  | none => return disk
  | some file => withPath true disk ⟨file⟩

/-- Writes the folders and files that are new or have changed. -/
def carryOver (before after : Disk) : IO Unit := do
  for place in after.tree.folders do
    if (before.tree.get? place).isNone then IO.FS.createDirAll (realPath place)
  for (place, content) in after.tree.files do
    let old := (before.tree.get? place).bind FileTree.content?
    if old.map ByteArray.data != some content.data then
      IO.FS.writeBinFile (realPath place) content

/-- The names and values of the environment. -/
def environment : IO (List (String × String)) := do
  let block ← bytesOf "/proc/self/environ"
  let text := (String.fromUTF8? block).getD ""
  return (Text.segments '\x00' text.toList).filterMap fun entry =>
    match entry.span (· ≠ '=') with
    | (name, _ :: value) => some (String.ofList name, String.ofList value)
    | (_, []) => none

/-- All bytes of a stream. -/
partial def readAll (stream : IO.FS.Stream) (read : ByteArray) : IO ByteArray := do
  let more ← stream.read 65536
  if more.isEmpty then return read else readAll stream (read ++ more)

/-- Carries out a command line that has been read. -/
def carryOut (arguments : Arguments) : IO UInt32 := do
  let errors ← IO.getStderr
  let started ← IO.monoNanosNow
  let before ← picture arguments
  let input ← if arguments.stdin then readAll (← IO.getStdin) .empty else pure .empty
  let (after, ending) := generate ⟨before, ← environment, input⟩ arguments
  carryOver before after
  IO.print ending.output
  let elapsed := durationText (((← IO.monoNanosNow) - started) / 1000)
  IO.eprint (ending.messages (← errors.isTty) elapsed)
  return ending.exitCode.toUInt32

end Wiring.Shell

/-- The program. -/
def main (arguments : List String) : IO UInt32 := do
  match Wiring.Arguments.parse arguments with
  | .error fault =>
      IO.eprintln fault.message
      return fault.exitCode.toUInt32
  | .ok parsed => Wiring.Shell.carryOut parsed
