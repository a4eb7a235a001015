import Wiring.Text.Printable

/-!
# Quoted text in messages

A message that shows a piece of input puts it between quotation marks.  Quotation marks,
backslashes and the four common control characters get a backslash escape, any other
character that does not show itself is written by its code point.

## Main definitions

* `quoteChar` — how one character is written between quotation marks.
* `quoted` — a whole text between quotation marks.
-/

namespace Wiring.Text

/-- The code point in hexadecimal, without leading zeros. -/
def codePoint (c : Char) : List Char := Nat.toDigits 16 c.toNat

/-- How one character is written inside a quoted text. -/
def quoteChar (c : Char) : List Char :=
  if c = '"' then ['\\', '"']
  else if c = '\\' then ['\\', '\\']
  else if c = '\n' then ['\\', 'n']
  else if c = '\r' then ['\\', 'r']
  else if c = '\t' then ['\\', 't']
  else if c.toNat = 0 then ['\\', '0']
  else if isPrintable c then [c]
  else ['\\', 'u', '\x7b'] ++ codePoint c ++ ['\x7d']

/-- A text between quotation marks. -/
def quoted (text : String) : String :=
  String.ofList ('"' :: text.toList.flatMap quoteChar ++ ['"'])

end Wiring.Text
