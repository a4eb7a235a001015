import Wiring.DeclaredType

/-!
# Owning classes

The class that declares an injected property, and the role it plays in the application.  Only
screens and screen fragments receive arguments when they are opened.

## Main definitions

* `Role` — the role of an owning class.
* `BundleSource` — where an owner's arguments come from.
* `Owner` — an owning class.
* `Owner.package` — the package the class lives in.
-/

namespace Wiring

/-- The role of an owning class. -/
inductive Role where
  /-- A screen, opened with the extras of an intent. -/
  | screen
  /-- A part of a screen, with an argument bundle of its own. -/
  | fragment
  /-- A class that only uses services. -/
  | serviceConsumer
  /-- Nothing is known about the class. -/
  | unknown
  deriving Repr, DecidableEq, Inhabited

/-- Where an owner's arguments come from. -/
inductive BundleSource where
  /-- The extras of the intent that opened a screen. -/
  | intentExtras
  /-- The argument bundle of a fragment. -/
  | arguments
  deriving Repr, DecidableEq, Inhabited

/-- The name of a role in messages. -/
def Role.title : Role → String
  | .screen => "Screen"
  | .fragment => "ScreenFragment"
  | .serviceConsumer => "ServiceConsumer"
  | .unknown => "Unknown"

/-- The argument source of a role; roles other than screen and fragment have none. -/
def Role.source? : Role → Option BundleSource
  | .screen => some .intentExtras
  | .fragment => some .arguments
  | .serviceConsumer => none
  | .unknown => none

/-- The class that declares an injected property. -/
structure Owner where
  /-- The qualified name. -/
  name : String
  /-- The package, where it is not the part of the name before the last dot. -/
  givenPackage : Option String
  /-- The role of the class. -/
  role : Role
  /-- The file the class was declared in, if known. -/
  sourceFile : Option String
  deriving Repr, DecidableEq, Inhabited

namespace Owner

/-- The package the class lives in: the given one, else the part of the name before the last
dot. -/
def package (owner : Owner) : String := owner.givenPackage.getD (packageOf owner.name)

/-- The owner as a type, for casts. -/
def asType (owner : Owner) : DeclaredType := .ofName owner.name

end Owner

end Wiring
