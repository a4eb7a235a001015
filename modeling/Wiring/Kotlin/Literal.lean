/-!
# Kotlin string literals

A text between quotation marks.  Quotation marks, backslashes, dollar signs (which would start
a template), line feeds, carriage returns and tabs are written with a backslash; every other
character stands for itself.

## Main definitions

* `escapeChar` — how a literal spells one character.
* `stringLiteral` — the literal of a text.
* `readLiteral?` — the text of a literal at the start of some characters, and what follows it.
-/

namespace Wiring.Kotlin

/-- How a literal spells one character. -/
def escapeChar (c : Char) : List Char :=
  if c = '"' then ['\\', '"']
  else if c = '\\' then ['\\', '\\']
  else if c = '$' then ['\\', '$']
  else if c = '\n' then ['\\', 'n']
  else if c = '\r' then ['\\', 'r']
  else if c = '\t' then ['\\', 't']
  else [c]

/-- The literal of a text. -/
def stringLiteral (text : String) : String :=
  String.ofList ('"' :: text.toList.flatMap escapeChar ++ ['"'])

/-- The character after a backslash and the one it stands for. -/
def unescapeChar? : Char → Option Char
  | '"' => some '"'
  | '\\' => some '\\'
  | '$' => some '$'
  | 'n' => some '\n'
  | 'r' => some '\r'
  | 't' => some '\t'
  | _ => none

/-- Reads on inside a literal, up to the first quotation mark without a backslash. -/
def readInside? : List Char → Option (List Char × List Char)
  | [] => none
  | '"' :: rest => some ([], rest)
  | '\\' :: c :: rest => do
      let plain ← unescapeChar? c
      let (text, rest) ← readInside? rest
      some (plain :: text, rest)
  | c :: rest => do
      let (text, rest) ← readInside? rest
      some (c :: text, rest)

/-- The text of the literal at the start of some characters, and what follows the literal. -/
def readLiteral? : List Char → Option (List Char × List Char)
  | '"' :: rest => readInside? rest
  | _ => none

end Wiring.Kotlin
