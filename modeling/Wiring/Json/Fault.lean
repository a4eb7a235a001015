import Wiring.Json.Value
import Wiring.Text.Quoted

/-!
# What can be wrong with a JSON document

Text that is not JSON has a syntax fault; JSON of the wrong shape has a shape fault.  Both are
causes, and their wording stands in one place.

## Main definitions

* `Json.SyntaxFault` — text that is not JSON.
* `Json.Found`, `Json.Expected` — what stood in a place and what should have.
* `Json.Fault` — all faults of a document.
* `Json.Fault.message`, `Json.Fault.kind` — wording and kind.
-/

namespace Wiring.Json

/-- Text that is not JSON. -/
inductive SyntaxFault where
  /-- The text ends where a value should be. -/
  | endInValue
  /-- The text ends inside an object. -/
  | endInObject
  /-- The text ends inside an array. -/
  | endInArray
  /-- The text ends inside a string. -/
  | endInString
  /-- A character starts no value. -/
  | expectedValue
  /-- No colon after a key. -/
  | expectedColon
  /-- Neither comma nor bracket after an item. -/
  | expectedItemEnd
  /-- Neither comma nor brace after a member. -/
  | expectedMemberEnd
  /-- A word that is not `true`, `false` or `null`. -/
  | expectedWord
  /-- A key that is not a string. -/
  | keyNotString
  /-- A comma before a closing bracket or brace. -/
  | trailingComma
  /-- Something after the document, or after the last field of a record. -/
  | trailingCharacters
  /-- Digits that form no number. -/
  | invalidNumber
  /-- A number too large for a float. -/
  | numberOutOfRange
  /-- A backslash before a character that cannot follow it. -/
  | invalidEscape
  /-- A control character inside a string. -/
  | controlCharacter
  /-- A surrogate that does not follow or is not followed by its partner. -/
  | loneSurrogate
  /-- A leading surrogate without another escape after it. -/
  | missingSurrogate
  /-- Too many arrays and objects inside one another. -/
  | tooDeep
  deriving Repr, DecidableEq, Inhabited

/-- The wording of a syntax fault. -/
def SyntaxFault.message : SyntaxFault → String
  | endInValue => "EOF while parsing a value"
  | endInObject => "EOF while parsing an object"
  | endInArray => "EOF while parsing a list"
  | endInString => "EOF while parsing a string"
  | expectedValue => "expected value"
  | expectedColon => "expected `:`"
  | expectedItemEnd => "expected `,` or `]`"
  | expectedMemberEnd => "expected `,` or `\x7d`"
  | expectedWord => "expected ident"
  | keyNotString => "key must be a string"
  | trailingComma => "trailing comma"
  | trailingCharacters => "trailing characters"
  | invalidNumber => "invalid number"
  | numberOutOfRange => "number out of range"
  | invalidEscape => "invalid escape"
  | controlCharacter => "control character (\\u0000-\\u001F) found while parsing a string"
  | loneSurrogate => "lone leading surrogate in hex escape"
  | missingSurrogate => "unexpected end of hex escape"
  | tooDeep => "recursion limit exceeded"

/-- The text ended too early. -/
def SyntaxFault.isEnd : SyntaxFault → Bool
  | endInValue | endInObject | endInArray | endInString => true
  | _ => false

/-- What stands in a place. -/
inductive Found where
  /-- The null value. -/
  | null
  /-- A truth value. -/
  | bool (b : Bool)
  /-- A number. -/
  | number (n : Number)
  /-- A string. -/
  | string (s : String)
  /-- An array. -/
  | array
  /-- An object. -/
  | object
  deriving Repr, Inhabited

/-- The wording of what stands in a place. -/
def Found.text : Found → String
  | null => "null"
  | bool b => if b then "boolean `true`" else "boolean `false`"
  | number (.integer n) => "integer `" ++ toString n ++ "`"
  | number (.float x) => "floating point `" ++ (Number.float x).text ++ "`"
  | string s => "string " ++ Text.quoted s
  | array => "sequence"
  | object => "map"

/-- What should stand in a place. -/
inductive Expected where
  /-- A string. -/
  | string
  /-- A truth value. -/
  | boolean
  /-- An array. -/
  | array
  /-- Nothing but null. -/
  | unit
  /-- The name of a choice, alone or as the only key of an object. -/
  | choice
  /-- A record of this name. -/
  | record (name : String)
  deriving Repr, DecidableEq, Inhabited

/-- The wording of what should stand in a place. -/
def Expected.text : Expected → String
  | string => "a string"
  | boolean => "a boolean"
  | array => "a sequence"
  | unit => "unit"
  | choice => "string or map"
  | record name => "struct " ++ name

/-- What is wrong with a document. -/
inductive Fault where
  /-- The text is not JSON. -/
  | badSyntax (fault : SyntaxFault)
  /-- A value of the wrong type. -/
  | invalidType (found : Found) (expected : Expected)
  /-- An object that should have one member only. -/
  | notSingleMember
  /-- Too few items for a record written as an array. -/
  | tooFewItems (length : Nat) (record : String) (fields : Nat)
  /-- Too many items in an array. -/
  | tooManyItems (length : Nat)
  /-- A record without a field it needs. -/
  | missingField (field : String)
  /-- A record with a field twice. -/
  | duplicateField (field : String)
  /-- A name that is none of the choices. -/
  | unknownChoice (name : String) (choices : List String)
  deriving Repr, Inhabited

/-- Names between backticks, with a comma and a blank between neighbours. -/
def tickedNames : List String → String
  | [] => ""
  | [name] => "`" ++ name ++ "`"
  | name :: rest => "`" ++ name ++ "`, " ++ tickedNames rest

/-- The wording of a fault. -/
def Fault.message : Fault → String
  | badSyntax fault => fault.message
  | invalidType found expected => "invalid type: " ++ found.text ++ ", expected " ++ expected.text
  | notSingleMember => "invalid value: map, expected map with a single key"
  | tooFewItems length record fields =>
      "invalid length " ++ toString length ++ ", expected struct " ++ record ++ " with " ++
        toString fields ++ (if fields = 1 then " element" else " elements")
  | tooManyItems length =>
      "invalid length " ++ toString length ++ ", expected fewer elements in array"
  | missingField field => "missing field `" ++ field ++ "`"
  | duplicateField field => "duplicate field `" ++ field ++ "`"
  | unknownChoice name choices =>
      "unknown variant `" ++ name ++ "`, expected one of " ++ tickedNames choices

/-- The kinds of faults. -/
inductive FaultKind where
  /-- The text is not JSON. -/
  | badSyntax
  /-- The text ended too early. -/
  | ended
  /-- JSON of the wrong shape. -/
  | shape
  deriving Repr, DecidableEq, Inhabited

/-- The kind of a fault. -/
def Fault.kind : Fault → FaultKind
  | badSyntax fault => if fault.isEnd then .ended else .badSyntax
  | _ => .shape

end Wiring.Json
