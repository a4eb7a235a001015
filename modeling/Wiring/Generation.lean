import Wiring.Arguments
import Wiring.Pass
import Wiring.Settings.Load

/-!
# The generate command

The command on a disk, with an environment and a standard input.  A manifest from the standard
input gives files that are printed; a manifest file or a folder of manifests gives files in an
output folder.

## Main definitions

* `World` — what the command works on.
* `Ending` — how the command ends.
* `manifestsBelow` — the manifests in a folder.
* `generatePath`, `generateInput` — the two ways of the command.
* `generate` — the command.
* `Ending.exitCode`, `Ending.output`, `Ending.messages` — what is seen of the ending.
-/

namespace Wiring

/-- What the command works on. -/
structure World where
  /-- The disk. -/
  disk : Disk
  /-- The names and values of the environment. -/
  environment : List (String × String)
  /-- The standard input. -/
  input : ByteArray
  deriving Inhabited

/-- How the command ends. -/
inductive Ending where
  /-- Generated files are printed. -/
  | printed (files : List SourceFile) (json : Bool)
  /-- Generated files are in an output folder. -/
  | emitted (out : Path) (summary : Summary)
  /-- There is no manifest to work on. -/
  | refused (message : String)
  /-- A problem ended the pass. -/
  | failed (problem : Problem)
  deriving Inhabited

/-! ### Finding manifests -/

/-- The path names a JSON file. -/
def isJson (path : Path) : Bool := path.extension? = some "json"

/-- The file is a manifest: a JSON file other than the index of an output folder. -/
def isManifest (path : Path) : Bool := isJson path && path.fileName? ≠ some Provenance.fileName

/-- Manifests among files, in the order of their paths. -/
def manifestsAmong (files : List Path) : List Path := (files.filter isManifest).mergeSort Path.le

/-- The manifests in a folder and all folders below, in the order of their paths. -/
def manifestsBelow (disk : Disk) (folder : Path) : List Path :=
  manifestsAmong (disk.filesBelow folder)

/-- The manifests that a path stands for; `none` with a message if there are none. -/
def manifestsAt (disk : Disk) (path : Path) : Except String (List Path) :=
  if disk.isFile path then
    if isJson path then .ok [path]
    else .error ("Error: " ++ path.text ++ " is not a .json manifest")
  else if disk.isFolder path then
    match manifestsBelow disk path with
    | [] => .error ("No .json manifests found in " ++ path.text)
    | found => .ok found
  else .error ("Error: " ++ path.text ++ " does not exist")

/-- Reads a manifest. -/
def loadManifest (disk : Disk) (path : Path) : Except Problem Manifest :=
  match disk.readText path with
  | .error fault => .error (.disk path fault)
  | .ok text =>
      match Manifest.parse text path.text with
      | .error fault => .error (.ofDiscovery fault)
      | .ok manifest => .ok manifest

/-- Reads manifests one after the other. -/
def loadManifests (disk : Disk) : List Path → Except Problem (List Manifest)
  | [] => .ok []
  | path :: rest =>
      match loadManifest disk path with
      | .error problem => .error problem
      | .ok manifest => (loadManifests disk rest).map (manifest :: ·)

/-! ### The command -/

/-- A pass over manifests into an output folder, and the index after it. -/
def emitInto (settings : Settings) (manifests : List Manifest) (out : Path) (disk : Disk) :
    Disk × Except Problem Summary :=
  match run settings (.manifests manifests) OutputFolder.sink (.fresh disk out) with
  | (folder, .error problem) => (folder.disk, .error problem)
  | (folder, .ok summary) =>
      match folder.writeIndex with
      | (done, .error problem) => (done.disk, .error problem)
      | (done, .ok _) => (done.disk, .ok summary)

/-- Generates files from a manifest file or a folder of manifests. -/
def generatePath (settings : Settings) (path out : Path) (disk : Disk) : Disk × Ending :=
  match manifestsAt disk path with
  | .error message => (disk, .refused message)
  | .ok paths =>
      match loadManifests disk paths with
      | .error problem => (disk, .failed problem)
      | .ok manifests =>
          match emitInto settings manifests out disk with
          | (left, .error problem) => (left, .failed problem)
          | (done, .ok summary) => (done, .emitted out summary)

/-- What messages call the standard input. -/
def inputName : String := "<stdin>"

/-- Generates files from the manifest in the standard input. -/
def generateInput (settings : Settings) (input : ByteArray) (json : Bool) : Ending :=
  match String.fromUTF8? input with
  | none => .failed (.disk ⟨inputName⟩ .notText)
  | some text =>
      match Manifest.parse text inputName with
      | .error fault => .failed (.ofDiscovery fault)
      | .ok manifest =>
          match run settings (.manifests [manifest]) Sink.collecting [] with
          | (_, .error problem) => .failed problem
          | (files, .ok _) => .printed files json

/-- The command. -/
def generate (world : World) (arguments : Arguments) : Disk × Ending :=
  match Settings.load world.disk world.environment (arguments.config.map Path.mk) with
  | .error problem => (world.disk, .failed problem)
  | .ok settings =>
      match arguments.stdin, arguments.file with
      | true, _ => (world.disk, generateInput settings world.input arguments.json)
      | false, some file =>
          let out := arguments.out.getD Arguments.defaultOut
          generatePath settings ⟨file⟩ ⟨out⟩ world.disk
      | false, none =>
          (world.disk, .refused "Error: provide a manifest/directory or use --stdin")

/-! ### What is seen of the ending -/

/-- A number of microseconds as a time: seconds with two decimals, milliseconds with one, or
whole microseconds, by its size. -/
def durationText (micros : Nat) : String :=
  let places (value scale : Nat) : String :=
    let digits := toString (value % scale)
    toString (value / scale) ++ "." ++
      String.ofList (List.replicate ((toString scale).length - 1 - digits.length) '0') ++ digits
  if micros < 1000 then toString micros ++ "μs"
  else if micros < 1000000 then places ((micros + 50) / 100) 10 ++ "ms"
  else places ((micros + 5000) / 10000) 100 ++ "s"

namespace Ending

/-- The exit code. -/
def exitCode : Ending → Nat
  | printed _ _ => 0
  | emitted _ _ => 0
  | refused _ => 1
  | failed _ => 1

/-- The standard output. -/
def output : Ending → String
  | printed files true => (Json.Value.array (files.map SourceFile.toJson)).compact ++ "\n"
  | printed files false => String.join (files.map SourceFile.code)
  | _ => ""

/-- The line for a written file. -/
def writtenLine (out : Path) (color : Bool) (path : Path) : String :=
  let mark := if color then "\x1b[32m✓\x1b[0m" else "✓"
  "  " ++ mark ++ " " ++ (out.push path.text).text ++ "\n"

/-- The line that sums up. -/
def summaryLine (summary : Summary) (color : Bool) (elapsed : String) : String :=
  let written := summary.written.length
  let unchanged := summary.unchanged.length
  let noun := if written = 1 then "injector" else "injectors"
  let rest := if 0 < unchanged then " (" ++ toString unchanged ++ " unchanged)" else ""
  let text := "✨ Generated " ++ toString written ++ " " ++ noun ++ rest ++ " in " ++ elapsed
  "\n" ++ (if color then "\x1b[1m" ++ text ++ "\x1b[0m" else text) ++ "\n"

/-- The messages; `elapsed` is the time the command took. -/
def messages (color : Bool) (elapsed : String) : Ending → String
  | printed _ _ => ""
  | emitted out summary =>
      String.join (summary.written.map (writtenLine out color)) ++
        summaryLine summary color elapsed
  | refused message => message ++ "\n"
  | failed problem => problem.report color

end Ending

end Wiring
