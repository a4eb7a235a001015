import Wiring.Text.Letter

/-!
# Kotlin identifiers

A name is written as it is when it is a plain identifier: a letter or underscore followed by
letters, digits and underscores, and no hard keyword.  Any other name is put between backticks.

## Main definitions

* `hardKeywords` — the words that are never identifiers.
* `isPlainName` — a letter or underscore, then letters, digits and underscores.
* `identifier` — how a name is written.
* `readIdentifier?` — the identifier at the start of some characters, and what follows it.
-/

namespace Wiring.Kotlin

/-- The words that are never identifiers. -/
def hardKeywords : List String :=
  ["as", "break", "class", "continue", "do", "else", "false", "for", "fun", "if", "in",
   "interface", "is", "null", "object", "package", "return", "super", "this", "throw", "true",
   "try", "typealias", "typeof", "val", "var", "when", "while"]

/-- The character may start a plain identifier. -/
def startsName (c : Char) : Bool := Text.isLetter c || c = '_'

/-- The character may stand inside a plain identifier. -/
def continuesName (c : Char) : Bool := Text.isLetterOrDigit c || c = '_'

/-- A letter or underscore, then letters, digits and underscores. -/
def isPlainName : List Char → Bool
  | [] => false
  | c :: rest => startsName c && rest.all continuesName

/-- The name needs no backticks. -/
def isPlain (name : String) : Bool := isPlainName name.toList && !hardKeywords.contains name

/-- How a name is written. -/
def identifier (name : String) : String :=
  if isPlain name then name else "`" ++ name ++ "`"

/-- The identifier at the start of some characters, and what follows it: what stands between
two backticks, or else the longest run of letters, digits and underscores. -/
def readIdentifier? : List Char → Option (List Char × List Char)
  | '\x60' :: rest =>
      match rest.span (· ≠ '\x60') with
      | (name, '\x60' :: after) => some (name, after)
      | _ => none
  | cs =>
      match cs.span continuesName with
      | ([], _) => none
      | (name, after) => some (name, after)

end Wiring.Kotlin
