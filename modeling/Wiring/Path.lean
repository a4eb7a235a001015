import Wiring.Text.Segments

/-!
# Paths

A path is text with slashes.  Pieces are put together one after the other; a piece that starts
with a slash replaces all before it.

## Main definitions

* `Path`, `Path.push`, `Path.ofPieces` — paths and how they are put together.
* `Path.hops` — the steps that following a path takes.
* `Path.components` — a path without the parts that lead nowhere, the key of its order.
* `Path.parent?`, `Path.ancestors` — the paths above.
* `Path.fileName?`, `Path.extension?` — its last component.
-/

namespace Wiring

/-- A path as text. -/
structure Path where
  /-- The text. -/
  text : String
  deriving Repr, DecidableEq, Inhabited

namespace Path

/-- A text starts with a slash. -/
def startsAtRoot (text : String) : Bool := text.toList.head? = some '/'

/-- A text ends with a slash. -/
def endsInSlash (text : String) : Bool := text.toList.getLast? = some '/'

/-- The path starts at the root. -/
def isAbsolute (path : Path) : Bool := startsAtRoot path.text

/-- The path of a folder and a piece below it. -/
def push (path : Path) (piece : String) : Path :=
  if startsAtRoot piece then ⟨piece⟩
  else if path.text = "" || endsInSlash path.text then ⟨path.text ++ piece⟩
  else ⟨path.text ++ "/" ++ piece⟩

/-- Pieces put together. -/
def ofPieces (pieces : List String) : Path := pieces.foldl push ⟨""⟩

/-! ### Following a path -/

/-- One step of following a path. -/
inductive Hop where
  /-- To the folder itself. -/
  | here
  /-- To the folder above. -/
  | up
  /-- To an entry. -/
  | down (name : String)
  deriving Repr, DecidableEq, Inhabited

/-- The step of a piece; an empty piece is none. -/
def hop? : List Char → Option Hop
  | [] => none
  | ['.'] => some .here
  | ['.', '.'] => some .up
  | name => some (.down (String.ofList name))

/-- The steps that following a path takes. -/
def hops (path : Path) : List Hop := (Text.segments '/' path.text.toList).filterMap hop?

/-! ### Components -/

/-- A component of a path.  The order of the constructors is the order of components. -/
inductive Component where
  /-- The root, at the start of an absolute path. -/
  | root
  /-- The folder itself, at the start of a relative path. -/
  | here
  /-- The folder above. -/
  | up
  /-- An entry. -/
  | entry (name : String)
  deriving Repr, DecidableEq, Inhabited

/-- The component of a step after the first one. -/
def Hop.component? : Hop → Option Component
  | here => none
  | up => some .up
  | down name => some (.entry name)

/-- The components of a path.  Repeated slashes, and single dots but for a first one, leave no
trace. -/
def components (path : Path) : List Component :=
  if path.isAbsolute then .root :: path.hops.filterMap Hop.component?
  else
    match path.hops with
    | .here :: rest => .here :: rest.filterMap Hop.component?
    | hops => hops.filterMap Hop.component?

/-- The place of a component among components of other kinds. -/
def Component.rank : Component → Nat
  | root => 0
  | here => 1
  | up => 2
  | entry _ => 3

/-- One component comes before another. -/
def Component.before : Component → Component → Bool
  | entry a, entry b => a < b
  | a, b => a.rank < b.rank

/-- One list of components comes before another or is the same. -/
def notAfter : List Component → List Component → Bool
  | [], _ => true
  | _ :: _, [] => false
  | a :: as, b :: bs => a.before b || (a = b && notAfter as bs)

/-- The order of paths: component by component. -/
def le (a b : Path) : Bool := notAfter a.components b.components

/-! ### The paths above -/

/-- The piece leads nowhere. -/
def isIdle (piece : List Char) : Bool := piece = [] || piece = ['.']

/-- The path of a first piece and the pieces after it, the last one first. -/
def ofReversed (first : List Char) (reversed : List (List Char)) : Path :=
  match first, reversed with
  | [], [] => ⟨"/"⟩
  | _, _ => ⟨String.ofList (Text.joined '/' (first :: reversed.reverse))⟩

/-- The path without its last component; a path with one component has the empty path above
it, the root has none. -/
def parent? (path : Path) : Option Path :=
  match Text.segments '/' path.text.toList with
  | [] => none
  | first :: rest =>
      match rest.reverse.dropWhile isIdle with
      | [] => if first = [] then none else some ⟨""⟩
      | _ :: above => some (ofReversed first (above.dropWhile isIdle))

/-- The path and at most `count` paths above it. -/
def ancestorsWithin : Nat → Path → List Path
  | 0, path => [path]
  | count + 1, path =>
      match path.parent? with
      | none => [path]
      | some above => path :: ancestorsWithin count above

/-- The path and all paths above it but the empty one, from the path upwards. -/
def ancestors (path : Path) : List Path :=
  (ancestorsWithin path.text.length path).filter fun above => above.text ≠ ""

/-! ### The last component -/

/-- The name of the entry the path ends at. -/
def fileName? (path : Path) : Option String :=
  match path.components.getLast? with
  | some (.entry name) => some name
  | _ => none

/-- What follows the last dot of the name; a dot at its start does not count. -/
def extension? (path : Path) : Option String :=
  path.fileName?.bind fun name =>
    match Text.splitLast? '.' name.toList with
    | some ([], _) => none
    | some (_, after) => some (String.ofList after)
    | none => none

end Path

end Wiring
