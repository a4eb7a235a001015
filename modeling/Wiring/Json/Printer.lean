import Wiring.Json.Value

/-!
# Writing JSON

JSON text comes in two layouts: on one line without blanks, and with every member of an array
or object on a line of its own.

## Main definitions

* `Json.escapeChar`, `Json.quote` — string literals.
* `Json.Value.compact` — one line.
* `Json.Value.pretty` — one line for each member.
-/

namespace Wiring.Json

/-- A control character by its code point, in four hexadecimal digits. -/
def controlEscape (c : Char) : List Char :=
  let digits := Nat.toDigits 16 c.toNat
  ['\\', 'u'] ++ List.replicate (4 - digits.length) '0' ++ digits

/-- How a string literal spells one character. -/
def escapeChar (c : Char) : List Char :=
  if c = '"' then ['\\', '"']
  else if c = '\\' then ['\\', '\\']
  else if c = '\n' then ['\\', 'n']
  else if c = '\r' then ['\\', 'r']
  else if c = '\t' then ['\\', 't']
  else if c = '\x08' then ['\\', 'b']
  else if c = '\x0c' then ['\\', 'f']
  else if c.toNat < 32 then controlEscape c
  else [c]

/-- The string literal of a text. -/
def quote (text : String) : String :=
  String.ofList ('"' :: text.toList.flatMap escapeChar ++ ['"'])

/-- Texts with `separator` between neighbours. -/
def separated (separator : String) : List String → String
  | [] => ""
  | [text] => text
  | text :: rest => text ++ separator ++ separated separator rest

namespace Value

mutual

/-- The value on one line without blanks. -/
def compact : Value → String
  | null => "null"
  | bool b => if b then "true" else "false"
  | number n => n.text
  | string s => quote s
  | array items => "[" ++ separated "," (compactAll items) ++ "]"
  | object members => "\x7b" ++ separated "," (compactMembers members) ++ "\x7d"

/-- The items of an array on one line. -/
def compactAll : List Value → List String
  | [] => []
  | value :: rest => compact value :: compactAll rest

/-- The members of an object on one line. -/
def compactMembers : List (String × Value) → List String
  | [] => []
  | (key, value) :: rest => (quote key ++ ":" ++ compact value) :: compactMembers rest

end

/-- The start of a line at a depth. -/
def lineStart (depth : Nat) : String := "\n" ++ String.ofList (List.replicate (2 * depth) ' ')

/-- A bracketed list with every member on a line of its own; an empty one stays closed. -/
def block (depth : Nat) (opening closing : String) : List String → String
  | [] => opening ++ closing
  | texts =>
      opening ++ lineStart (depth + 1) ++ separated ("," ++ lineStart (depth + 1)) texts ++
        lineStart depth ++ closing

mutual

/-- The value at a depth, with a line for each member. -/
def prettyAt (depth : Nat) : Value → String
  | array items => block depth "[" "]" (prettyAll (depth + 1) items)
  | object members => block depth "\x7b" "\x7d" (prettyMembers (depth + 1) members)
  | null => "null"
  | bool b => if b then "true" else "false"
  | number n => n.text
  | string s => quote s

/-- The items of an array at a depth. -/
def prettyAll (depth : Nat) : List Value → List String
  | [] => []
  | value :: rest => prettyAt depth value :: prettyAll depth rest

/-- The members of an object at a depth. -/
def prettyMembers (depth : Nat) : List (String × Value) → List String
  | [] => []
  | (key, value) :: rest =>
      (quote key ++ ": " ++ prettyAt depth value) :: prettyMembers depth rest

end

/-- The value with a line for each member. -/
def pretty (value : Value) : String := prettyAt 0 value

end Value

end Wiring.Json
