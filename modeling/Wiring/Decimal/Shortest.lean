/-!
# The shortest decimal that reads back as a given float

A finite 64-bit float stands for all real numbers that round to it: an interval around its
value, closed when the significand is even.  Among the decimals `d * 10 ^ k` in that
interval the shortest ones have the fewest digits in `d`; of those, the one nearest to the
value is chosen.  All arithmetic is exact, on natural numbers.

## Main definitions

* `Binary` — sign, significand and exponent of a finite float.
* `Binary.ofBits?` — the reading of the 64 bits; infinities and NaN have none.
* `Decimal` — a decimal `digits * 10 ^ exponent`.
* `Binary.shortest` — the shortest decimal that reads back.
-/

namespace Wiring

/-- A finite float `± significand * 2 ^ exponent`. -/
structure Binary where
  /-- The sign bit is set. -/
  negative : Bool
  /-- The significand as a whole number. -/
  significand : Nat
  /-- The power of two that scales the significand. -/
  exponent : Int
  /-- The next smaller float is only half as far away as the next larger one. -/
  atPowerOfTwo : Bool
  deriving Repr, DecidableEq

/-- A nonnegative decimal `digits * 10 ^ exponent`. -/
structure Decimal where
  /-- The digits as one whole number. -/
  digits : Nat
  /-- The power of ten that scales the digits. -/
  exponent : Int
  deriving Repr, DecidableEq

namespace Binary

/-- The reading of the 64 bits of a float; `none` for infinities and NaN. -/
def ofBits? (bits : UInt64) : Option Binary :=
  let n := bits.toNat
  let fraction : Nat := n % Nat.pow 2 52
  let biased : Nat := n / Nat.pow 2 52 % Nat.pow 2 11
  let negative : Bool := n / Nat.pow 2 63 = 1
  if biased = 2047 then none
  else if biased = 0 then some ⟨negative, fraction, -1074, false⟩
  else some ⟨negative, Nat.pow 2 52 + fraction, (biased : Int) - 1075, fraction = 0 && biased ≠ 1⟩

/-- The interval of a float as fractions over one denominator: lower end, value, upper
end, denominator. -/
structure Window where
  /-- Numerator of the lower end. -/
  low : Nat
  /-- Numerator of the value. -/
  value : Nat
  /-- Numerator of the upper end. -/
  high : Nat
  /-- The common denominator. -/
  unit : Nat
  /-- The ends belong to the interval. -/
  closed : Bool

/-- The interval of reals that round to a float. -/
def window (b : Binary) : Window :=
  let scaled : Nat × Nat :=
    if 2 ≤ b.exponent then (Nat.pow 2 (b.exponent - 2).toNat, 1)
    else (1, Nat.pow 2 (2 - b.exponent).toNat)
  let below := if b.atPowerOfTwo then 1 else 2
  { low := (4 * b.significand - below) * scaled.1
    value := 4 * b.significand * scaled.1
    high := (4 * b.significand + 2) * scaled.1
    unit := scaled.2
    closed := b.significand % 2 = 0 }

/-- The number of decimal digits before the point of `num / den`, or minus the number of
zeros directly after it when it is below one tenth. -/
def magnitude (num den : Nat) : Int :=
  if den ≤ num then (Nat.toDigits 10 (num / den)).length
  else
    -- `num / den < 1`: the whole part of `den / num` has at most one digit too many
    let zeros := (Nat.toDigits 10 (den / num)).length - 1
    if den ≤ num * Nat.pow 10 zeros then 1 - (zeros : Int) else - (zeros : Int)

/-- The decimal `d * 10 ^ k` lies in the interval, for a nonzero `d`. -/
def Window.has (w : Window) (d : Nat) (k : Int) : Bool :=
  let lhs := d * w.unit * Nat.pow 10 k.toNat
  let ten := Nat.pow 10 (-k).toNat
  0 < d &&
    if w.closed then w.low * ten ≤ lhs && lhs ≤ w.high * ten
    else w.low * ten < lhs && lhs < w.high * ten

/-- The best decimal on the grid of multiples of `10 ^ k`, if one lies in the interval: of
the two neighbours of the value the nearer, and on a tie the one with even digits. -/
def Window.onGrid? (w : Window) (k : Int) : Option Nat :=
  let num := w.value * Nat.pow 10 (-k).toNat
  let den := w.unit * Nat.pow 10 k.toNat
  let down := num / den
  let rest := num % den
  let downIn := w.has down k
  let upIn := w.has (down + 1) k
  if downIn && upIn then
    some (if 2 * rest < den then down
      else if den < 2 * rest then down + 1
      else if down % 2 = 0 then down else down + 1)
  else if downIn then some down
  else if upIn then some (down + 1)
  else none

/-- The first grid with a decimal in the interval, from coarse to fine. -/
def Window.firstGrid (w : Window) (k : Int) : Nat → Decimal
  | 0 => ⟨w.value * Nat.pow 10 (-k).toNat / (w.unit * Nat.pow 10 k.toNat), k⟩
  | more + 1 =>
      match w.onGrid? k with
      | some d => ⟨d, k⟩
      | none => w.firstGrid (k - 1) more

/-- Drops zeros at the end of the digits; the value stays. -/
def trimZeros (d : Nat) (k : Int) : Nat → Decimal
  | 0 => ⟨d, k⟩
  | more + 1 => if d % 10 = 0 then trimZeros (d / 10) (k + 1) more else ⟨d, k⟩

/-- The shortest decimal that reads back as the float, for a nonzero one.  Seventeen
digits always suffice. -/
def shortest (b : Binary) : Decimal :=
  if b.significand = 0 then ⟨0, 0⟩
  else
    let w := b.window
    let found := w.firstGrid (magnitude w.value w.unit - 1) 17
    trimZeros found.digits found.exponent 17

end Binary

end Wiring
