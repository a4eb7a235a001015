import Wiring.DeclaredType
import Wiring.NameSet

/-!
# How types are spelled

A type is spelled by its simple name if the unit lists it as short, and in full otherwise.
Type arguments follow between angle brackets, and a question mark says that null is admitted.

## Main definitions

* `spellName` — a qualified name.
* `spellType` — a type with its arguments.
-/

namespace Wiring.Kotlin

/-- How a qualified name is spelled when the names in `short` are spelled short. -/
def spellName (short : NameSet) (name : String) : String :=
  if name ∈ short then simpleName name else name

/-- Texts with a comma and a blank between neighbours. -/
def commaSeparated : List String → String
  | [] => ""
  | [text] => text
  | text :: rest => text ++ ", " ++ commaSeparated rest

mutual

/-- How a type is spelled when the names in `short` are spelled short. -/
def spellType (short : NameSet) : DeclaredType → String
  | ⟨name, nullable, arguments, _⟩ =>
      spellName short name ++
        (if arguments.isEmpty then ""
          else "<" ++ commaSeparated (spellTypes short arguments) ++ ">") ++
        (if nullable then "?" else "")

/-- How a list of types is spelled. -/
def spellTypes (short : NameSet) : List DeclaredType → List String
  | [] => []
  | type :: rest => spellType short type :: spellTypes short rest

end

end Wiring.Kotlin
