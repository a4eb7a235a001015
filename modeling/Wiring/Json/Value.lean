import Wiring.Decimal.Format

/-!
# JSON values

## Main definitions

* `Json.Number` — a whole number or a float.
* `Json.Value` — a JSON value; an object keeps its members in order.
* `Json.Value.depth` — how deep its arrays and objects lie inside one another.
* `Json.setMember` — the members of an object in key order, the last of equal keys kept.
-/

namespace Wiring.Json

/-- A JSON number: whole when it was written as one and is small enough, else a float. -/
inductive Number where
  /-- A whole number. -/
  | integer (n : Int)
  /-- A float. -/
  | float (x : Float)
  deriving Repr, Inhabited

/-- A JSON value. -/
inductive Value where
  /-- The null value. -/
  | null
  /-- A truth value. -/
  | bool (b : Bool)
  /-- A number. -/
  | number (n : Number)
  /-- A string. -/
  | string (s : String)
  /-- An array. -/
  | array (items : List Value)
  /-- An object. -/
  | object (members : List (String × Value))
  deriving Repr, Inhabited

/-- Floats are written without an exponent from 0.00001 up to 16 digits before the point, and
whole ones end in `.0`. -/
def floatFormat : DecimalFormat := ⟨some (-5), some 15, true⟩

/-- A number as text. -/
def Number.text : Number → String
  | .integer n => toString n
  | .float x => floatFormat.writeFloat x

/-- Sets the member of a key in a list of members with increasing keys. -/
def setMember {α : Type} (key : String) (value : α) : List (String × α) → List (String × α)
  | [] => [(key, value)]
  | (other, old) :: rest =>
      if key < other then (key, value) :: (other, old) :: rest
      else if key = other then (key, value) :: rest
      else (other, old) :: setMember key value rest

namespace Value

/-- The value of a key of an object. -/
def member? (key : String) : Value → Option Value
  | object members => members.lookup key
  | _ => none

/-- A list of strings as a value. -/
def strings (texts : List String) : Value := array (texts.map string)

/-- A string, or null when there is none. -/
def ofString? : Option String → Value
  | some s => string s
  | none => null

/-- A natural number as a value. -/
def nat (n : Nat) : Value := number (.integer n)

mutual

/-- How many arrays and objects lie inside one another at most. -/
def depth : Value → Nat
  | null => 0
  | bool _ => 0
  | number _ => 0
  | string _ => 0
  | array items => depthAll items + 1
  | object members => depthMembers members + 1

/-- The greatest depth in a list of items. -/
def depthAll : List Value → Nat
  | [] => 0
  | value :: rest => max value.depth (depthAll rest)

/-- The greatest depth in a list of members. -/
def depthMembers : List (String × Value) → Nat
  | [] => 0
  | (_, value) :: rest => max value.depth (depthMembers rest)

end

end Value

end Wiring.Json
