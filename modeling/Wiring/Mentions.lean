import Wiring.NameSet
import Wiring.Statement.Traversal

/-!
# What a unit mentions

A walk over the statements of a unit records every qualified name that the written unit will
mention, and which runtime helpers it uses.  From the recorded names follow the names that
may be written short and the names that have to be imported.

A simple name can stand for one type only.  Types of the unit's own package claim their
simple names first, then types of the packages that every file sees, then all others; within
each group the order of the names decides.  Every type that does not get its simple name is
written in full.

## Main definitions

* `Mentions` — recorded names and used helpers.
* `Mentions.note`, `Mentions.noteType` — recording.
* `typeVisitor`, `runtimeVisitor` — the two walks that record.
* `Mentions.ofStatements` — one walk of both over a list of statements.
* `isImplicit` — a name is seen without an import.
* `Mentions.simpleNames`, `Mentions.imports` — the short names and the imports.
-/

namespace Wiring

/-- The packages that every file sees without an import. -/
def defaultImports : List String :=
  ["kotlin", "kotlin.annotation", "kotlin.collections", "kotlin.comparisons", "kotlin.io",
   "kotlin.ranges", "kotlin.sequences", "kotlin.text", "java.lang"]

/-- A file of the package sees the name without an import. -/
def isImplicit (name package : String) : Bool :=
  packageOf name = package || defaultImports.contains (packageOf name)

/-- What the statements of a unit mention. -/
structure Mentions where
  /-- The dotted names of the types and runtime symbols. -/
  types : NameSet
  /-- Some statement asks the service registry. -/
  usesRegistry : Bool
  /-- Some statement may write to the log. -/
  usesLog : Bool
  /-- Some statement describes a type by the generic token. -/
  usesTypeWrapper : Bool

namespace Mentions

/-- Nothing is mentioned. -/
def none : Mentions := ⟨∅, false, false, false⟩

instance : Inhabited Mentions := ⟨none⟩

/-- Records a name, unless it has no dot. -/
def note (mentions : Mentions) (name : String) : Mentions :=
  if isDotted name then { mentions with types := mentions.types.insert name } else mentions

/-- Records all names in a type. -/
def noteType (mentions : Mentions) (type : DeclaredType) : Mentions :=
  type.names.foldl note mentions

/-- Records the use of the registry. -/
def noteRegistry (symbols : Symbols) (mentions : Mentions) : Mentions :=
  { mentions with usesRegistry := true }.note symbols.registry

/-- Records the use of the log. -/
def noteLog (symbols : Symbols) (mentions : Mentions) : Mentions :=
  { mentions with usesLog := true }.note symbols.logFacility

/-- Records the runtime helpers of an expression. -/
def noteHelpers (symbols : Symbols) (mentions : Mentions) : Expression → Mentions
  | .serviceByType _ => mentions.noteRegistry symbols
  | .serviceByName _ _ _ => mentions.noteRegistry symbols
  | .deserialize _ _ => { mentions with usesTypeWrapper := true }.note symbols.typeWrapper
  | _ => mentions

end Mentions

/-- Records the declared types of statements and expressions. -/
def typeVisitor : Visitor Mentions where
  enter statement mentions :=
    let bound :=
      match statement with
      | .bindTarget owner _ => mentions.noteType owner
      | _ => mentions
    (true, (statement.expressions.filterMap Expression.type?).foldl Mentions.noteType bound)
  leave _ mentions := mentions

/-- Records the runtime helpers of statements and expressions. -/
def runtimeVisitor (symbols : Symbols) : Visitor Mentions where
  enter statement mentions :=
    let own :=
      match statement with
      | .resolveDeserializer => (mentions.noteRegistry symbols).note symbols.serializationService
      | .log _ => mentions.noteLog symbols
      | .require _ (.diagnostic _) => mentions.noteLog symbols
      | _ => mentions
    (true, statement.expressions.foldl (Mentions.noteHelpers symbols) own)
  leave _ mentions := mentions

namespace Mentions

/-- The walks of the given visitors, one after the other, over a list of statements. -/
def ofStatements (visitors : List (Visitor Mentions)) (mentions : Mentions)
    (statements : List Statement) : Mentions :=
  visitInTurn visitors statements mentions

/-- Gives the simple name of `name` to it, unless it is taken. -/
def claim (claimed : List String) (name : String) : List String :=
  if claimed.any fun other => simpleName other = simpleName name then claimed
  else claimed ++ [name]

/-- The recorded names in the order in which they claim their simple names: names of the
package, names that are seen everywhere, all others. -/
def claimants (mentions : Mentions) (package : String) : List String :=
  let types := mentions.types.toList
  types.filter (fun name => packageOf name = package) ++
    types.filter (fun name => packageOf name ≠ package && isImplicit name package) ++
      types.filter (fun name => !isImplicit name package)

/-- The names that a unit of the package writes by their simple name. -/
def simpleNames (mentions : Mentions) (package : String) : NameSet :=
  NameSet.ofList ((mentions.claimants package).foldl claim [])

/-- The names that a unit of the package imports: those written short that are not seen
without an import. -/
def imports (mentions : Mentions) (package : String) : NameSet :=
  (mentions.simpleNames package).filter fun name => !isImplicit name package

end Mentions

/-- The two walks that record what a unit mentions. -/
def standardVisitors (symbols : Symbols) : List (Visitor Mentions) :=
  [typeVisitor, runtimeVisitor symbols]

end Wiring
