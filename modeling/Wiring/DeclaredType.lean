import Wiring.Name

/-!
# Declared types

The type a property is declared with, already resolved: its qualified name, whether it admits
null, its type arguments and the names of all its supertypes.

## Main definitions

* `DeclaredType` — a resolved type.
* `DeclaredType.isSubtypeOf` — being, or having as a supertype, a named type.
* `DeclaredType.nonNull` — the type with null taken away at the top.
* `DeclaredType.names` — all qualified names in the type.
-/

namespace Wiring

/-- A resolved type. -/
structure DeclaredType where
  /-- The qualified name. -/
  name : String
  /-- The type admits null. -/
  nullable : Bool
  /-- The type arguments, in order. -/
  arguments : List DeclaredType
  /-- The qualified names of all supertypes. -/
  supertypes : List String
  deriving Repr, Inhabited

namespace DeclaredType

/-- The type of this name, without null, arguments or supertypes. -/
def ofName (name : String) : DeclaredType := ⟨name, false, [], []⟩

/-- The type is the named one, or has it among its supertypes. -/
def isSubtypeOf (t : DeclaredType) (name : String) : Bool :=
  t.name = name || t.supertypes.contains name

/-- The type with null taken away at the top; its arguments keep theirs. -/
def nonNull (t : DeclaredType) : DeclaredType := ⟨t.name, false, t.arguments, t.supertypes⟩

mutual

/-- The qualified names in the type, its arguments at every depth included. -/
def names : DeclaredType → List String
  | ⟨name, _, arguments, _⟩ => name :: namesAll arguments

/-- The qualified names in a list of types. -/
def namesAll : List DeclaredType → List String
  | [] => []
  | t :: rest => t.names ++ namesAll rest

end

theorem isSubtypeOf_iff {t : DeclaredType} {name : String} :
    t.isSubtypeOf name = true ↔ t.name = name ∨ name ∈ t.supertypes := by
  simp [isSubtypeOf]

@[simp] theorem nonNull_name (t : DeclaredType) : t.nonNull.name = t.name := rfl

@[simp] theorem nonNull_nullable (t : DeclaredType) : t.nonNull.nullable = false := rfl

@[simp] theorem nonNull_arguments (t : DeclaredType) : t.nonNull.arguments = t.arguments := rfl

@[simp] theorem names_nonNull (t : DeclaredType) : t.nonNull.names = t.names := by
  cases t; simp [nonNull, names]

end DeclaredType

end Wiring
