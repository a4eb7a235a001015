import Wiring.Owner

/-!
# Injected properties

A property that carries the marker, with everything about it that generation needs: its
declared type, its visibility, its owner and what the marker asks for.

## Main definitions

* `Visibility` — the visibility of a property.
* `Request` — what the marker on a property asks for.
* `Property` — a marked property.
* `Property.bundleKey` — the key the property's value is stored under.
-/

namespace Wiring

/-- The visibility of a property. -/
inductive Visibility where
  /-- Seen everywhere. -/
  | visible
  /-- Seen in subclasses. -/
  | protectedOnly
  /-- Seen in the same module. -/
  | internalOnly
  /-- Seen in the class only. -/
  | privateOnly
  deriving Repr, DecidableEq, Inhabited

/-- What the marker on a property asks for. -/
structure Request where
  /-- The service path or bundle key; the empty text counts as not given. -/
  name : Option String
  /-- The property must not stay null. -/
  required : Bool
  /-- A description for readers. -/
  description : Option String
  deriving Repr, DecidableEq, Inhabited

/-- The request of a marker without arguments. -/
def Request.plain : Request := ⟨none, false, none⟩

/-- The explicit key, if one is given and not empty. -/
def Request.key? (request : Request) : Option String :=
  request.name.filter fun name => name ≠ ""

/-- A marked property. -/
structure Property where
  /-- The name of the property. -/
  name : String
  /-- The declared type. -/
  type : DeclaredType
  /-- The visibility. -/
  visibility : Visibility
  /-- The declaring class; none outside a class body. -/
  owner : Option Owner
  /-- What the marker asks for. -/
  request : Request
  deriving Repr, Inhabited

/-- The key the property's value is stored under: the explicit one, else its name. -/
def Property.bundleKey (property : Property) : String :=
  property.request.key?.getD property.name

end Wiring
