import Wiring.Category
import Wiring.Disk
import Wiring.Manifest
import Wiring.Misuse
import Wiring.Settings.Layer

/-!
# Problems

Everything that can end a generation pass, with its wording and its report.  A misuse of the
marker gets a block of its own, all other problems one line, whatever its message says.

## Main definitions

* `Problem` — the problems.
* `Problem.misuse?` — the misuse among them.
* `Problem.message` — what is wrong, in one sentence.
* `Problem.lineReport`, `Problem.report` — the text for a reader, with or without colours.
-/

namespace Wiring

/-- What ends a generation pass.  The index of an output folder is always written as JSON, so no
problem says that it cannot be; and a symbol that can be read lacks nothing but a declared type, so
that is the only reason there is for an invalid one. -/
inductive Problem where
  /-- The marker is misused. -/
  | misuse (fault : Misuse)
  /-- No strategy fills a field of this category. -/
  | noStrategy (category : Category) (field : String)
  /-- A manifest, or the arguments of a marker in it, cannot be read; `place` says where. -/
  | unreadable (place : String) (fault : Json.Fault)
  /-- A marked property without a declared type. -/
  | untyped (origin symbol : String)
  /-- An operation on a file or folder fails. -/
  | disk (path : Path) (fault : DiskFault)
  /-- A setting is of the wrong type. -/
  | setting (fault : Settings.TypeFault)
  /-- A settings file is no TOML. -/
  | settingsFile (path : Path)
  deriving Inhabited

namespace Problem

/-- A fault of discovery as a problem. -/
def ofDiscovery : DiscoveryFault → Problem
  | .unreadable place fault => .unreadable place fault
  | .untyped origin symbol => .untyped origin symbol

/-- The misuse of the marker, if the problem is one. -/
def misuse? : Problem → Option Misuse
  | .misuse fault => some fault
  | _ => none

/-- What is wrong, in one sentence. -/
def message : Problem → String
  | .misuse fault => fault.message
  | noStrategy category field =>
      "internal error: no injection strategy for category " ++ category.title ++ " (field '" ++
        field ++ "')"
  | unreadable place fault => "invalid symbol manifest " ++ place ++ ": " ++ fault.message
  | untyped origin symbol =>
      "invalid symbol '" ++ symbol ++ "' in " ++ origin ++ ": property has no declared type"
  | disk path fault => "I/O error on " ++ path.text ++ ": " ++ fault.message
  | setting fault => "configuration error: " ++ fault.report
  | settingsFile path => "configuration error: TOML parse error in " ++ path.text ++ " TOML file"

/-- The report of a message on one line. -/
def lineReport (message : String) (color : Bool) : String :=
  if color then "\x1b[1;31merror\x1b[0m: \x1b[1m" ++ message ++ "\x1b[0m\n"
  else "error: " ++ message ++ "\n"

/-- The text for a reader. -/
def report (problem : Problem) (color : Bool) : String :=
  match problem with
  | .misuse fault => fault.report color
  | other => lineReport other.message color

end Problem

end Wiring
