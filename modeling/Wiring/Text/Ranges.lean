/-!
# Sets of characters as ranges of code points

A property of characters that a standard fixes by enumeration is kept as a table of
closed ranges of code points.

## Main definitions

* `Ranges` — a table of closed ranges.
* `Ranges.has` — membership of a character.
-/

namespace Wiring.Text

/-- Closed ranges of code points, from the smallest to the largest. -/
abbrev Ranges := List (Nat × Nat)

/-- The character lies in one of the ranges. -/
def Ranges.has (ranges : Ranges) (c : Char) : Bool :=
  ranges.any fun range => range.1 ≤ c.toNat && c.toNat ≤ range.2

end Wiring.Text
