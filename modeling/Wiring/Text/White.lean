import Wiring.Text.Ranges

/-!
# White space

The characters with the Unicode property `White_Space`.

## Main definitions

* `isWhite` — the character is white space.
* `trimmed` — a text without white space at both ends.
-/

namespace Wiring.Text

/-- The code points of white space. -/
def whiteRanges : Ranges :=
  [(0x09, 0x0D), (0x20, 0x20), (0x85, 0x85), (0xA0, 0xA0), (0x1680, 0x1680), (0x2000, 0x200A),
   (0x2028, 0x2029), (0x202F, 0x202F), (0x205F, 0x205F), (0x3000, 0x3000)]

/-- The character is white space. -/
def isWhite (c : Char) : Bool := whiteRanges.has c

/-- The text without white space at both ends. -/
def trimmed (cs : List Char) : List Char :=
  ((cs.dropWhile isWhite).reverse.dropWhile isWhite).reverse

end Wiring.Text
