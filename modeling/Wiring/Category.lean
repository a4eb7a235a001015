import Wiring.DeclaredType
import Wiring.Settings

/-!
# Categories of types

Every declared type falls into one of thirteen categories, which decide how a property of
that type is filled.  The first of these that applies is taken: provided by the registry,
primitive, string, serializable, parcelable, any other object.

## Main definitions

* `Getter` — the typed reads of a bundle.
* `Category` — the categories.
* `Category.getter?` — the typed read of a primitive category.
* `Category.ofType` — the category of a declared type.
-/

namespace Wiring

/-- The typed reads of a bundle. -/
inductive Getter where
  /-- Reads a boolean. -/
  | boolean
  /-- Reads a byte. -/
  | byte
  /-- Reads a short. -/
  | short
  /-- Reads an int. -/
  | int
  /-- Reads a long. -/
  | long
  /-- Reads a character. -/
  | char
  /-- Reads a float. -/
  | float
  /-- Reads a double. -/
  | double
  /-- Reads a string. -/
  | string
  deriving Repr, DecidableEq, Inhabited

/-- The categories of declared types. -/
inductive Category where
  /-- Booleans. -/
  | bool
  /-- Bytes. -/
  | byte
  /-- Shorts. -/
  | short
  /-- Ints. -/
  | int
  /-- Longs. -/
  | long
  /-- Characters. -/
  | char
  /-- Floats. -/
  | float
  /-- Doubles. -/
  | double
  /-- Strings. -/
  | str
  /-- Serializable objects. -/
  | serializable
  /-- Parcelable objects. -/
  | parcelable
  /-- Services of the registry. -/
  | provider
  /-- All other objects. -/
  | object
  deriving Repr, DecidableEq, Inhabited

namespace Category

/-- The name of a category in messages. -/
def title : Category → String
  | bool => "Bool"
  | byte => "Byte"
  | short => "Short"
  | int => "Int"
  | long => "Long"
  | char => "Char"
  | float => "Float"
  | double => "Double"
  | str => "Str"
  | serializable => "Serializable"
  | parcelable => "Parcelable"
  | provider => "Provider"
  | object => "Object"

/-- The typed read of a primitive category; the other categories have none. -/
def getter? : Category → Option Getter
  | bool => some .boolean
  | byte => some .byte
  | short => some .short
  | int => some .int
  | long => some .long
  | char => some .char
  | float => some .float
  | double => some .double
  | _ => none

/-- The category is one of the eight primitive ones. -/
def isPrimitive (category : Category) : Bool := category.getter?.isSome

/-- The names of the primitive types and their categories. -/
def primitives : List (String × Category) :=
  [("kotlin.Boolean", bool), ("kotlin.Byte", byte), ("kotlin.Short", short),
   ("kotlin.Int", int), ("kotlin.Long", long), ("kotlin.Char", char),
   ("kotlin.Float", float), ("kotlin.Double", double),
   ("java.lang.Boolean", bool), ("java.lang.Byte", byte), ("java.lang.Short", short),
   ("java.lang.Integer", int), ("java.lang.Long", long), ("java.lang.Character", char),
   ("java.lang.Float", float), ("java.lang.Double", double)]

/-- The names of the string types. -/
def strings : List String := ["kotlin.String", "java.lang.String"]

/-- The category that the name of a type alone decides, if any. -/
def ofName? (name : String) : Option Category :=
  match primitives.lookup name with
  | some category => some category
  | none => if name ∈ strings then some str else none

/-- The category of a declared type. -/
def ofType (symbols : Symbols) (t : DeclaredType) : Category :=
  if t.isSubtypeOf symbols.providerCapability then provider
  else
    match ofName? t.name with
    | some category => category
    | none =>
        if t.isSubtypeOf symbols.serializable then serializable
        else if t.isSubtypeOf symbols.parcelable then parcelable
        else object

end Category

end Wiring
