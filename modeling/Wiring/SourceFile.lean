import Wiring.Json.Value
import Wiring.Kotlin.Writer
import Wiring.Path

/-!
# Generated source files

One file for each injector, in the folders of its package.

## Main definitions

* `SourceFile` — a generated file.
* `SourceFile.ofInjector` — the file of an injector.
* `SourceFile.relativePath` — where it belongs.
* `compile` — the files for a list of properties.
-/

namespace Wiring

/-- A generated source file. -/
structure SourceFile where
  /-- The package of the class. -/
  package : String
  /-- The simple name of the class. -/
  className : String
  /-- The text of the file. -/
  code : String
  /-- The file that declares the owner, if known. -/
  source : Option String
  /-- The lines at which the fields start. -/
  marks : List FieldMark
  deriving Repr, DecidableEq, Inhabited

namespace SourceFile

/-- The file of an injector. -/
def ofInjector (settings : Settings) (injector : Injector) : SourceFile :=
  let (code, marks) := (Kotlin.writeInjector settings injector).finish
  { package := injector.owner.package
    className := injector.className
    code
    source := injector.owner.sourceFile
    marks }

/-- The segments of a package. -/
def packageSegments (package : String) : List String :=
  ((Text.segments '.' package.toList).filter fun segment => segment ≠ []).map String.ofList

/-- Where a file belongs: a folder for each segment of the package, then the class. -/
def relativePath (file : SourceFile) : Path :=
  (Path.ofPieces (packageSegments file.package)).push (file.className ++ ".kt")

/-- A mark as JSON. -/
def markToJson (mark : FieldMark) : Json.Value :=
  .object [("gen_line", .nat mark.line), ("field", .string mark.field)]

/-- A file as JSON. -/
def toJson (file : SourceFile) : Json.Value :=
  .object [("package", .string file.package), ("class_name", .string file.className),
    ("code", .string file.code), ("origin", .ofString? file.source),
    ("mappings", .array (file.marks.map markToJson))]

end SourceFile

/-- The files for a list of properties, one for each owner.  The first misuse of the marker
ends it, so there are either all files or none. -/
def compile (settings : Settings) (properties : List Property) : Except Misuse (List SourceFile) :=
  match injectorsOf settings properties with
  | .error misuse => .error misuse
  | .ok injectors => .ok (injectors.map (SourceFile.ofInjector settings))

end Wiring
