import Wiring.Decimal.Shortest

/-!
# Writing a decimal

The digits of a decimal are fixed by its value; where the point stands and when an exponent
is written is a choice of the format.  A `DecimalFormat` records that choice.

## Main definitions

* `DecimalFormat` — the choices of a format.
* `DecimalFormat.write` — a nonnegative decimal in a format.
* `DecimalFormat.writeFloat` — a float in a format, by its shortest digits.
-/

namespace Wiring

/-- The choices of a format for decimals.  The *leading power* of a decimal is the power of
ten of its first digit. -/
structure DecimalFormat where
  /-- The smallest leading power written without an exponent; `none` if there is no bound. -/
  positionalFrom : Option Int
  /-- The largest leading power written without an exponent; `none` if there is no bound. -/
  positionalTo : Option Int
  /-- A whole number ends in `.0`. -/
  wholePoint : Bool
  deriving Repr, DecidableEq

namespace DecimalFormat

/-- The decimal with this leading power is written without an exponent. -/
def isPositional (f : DecimalFormat) (leading : Int) : Bool :=
  f.positionalFrom.all (· ≤ leading) && f.positionalTo.all (leading ≤ ·)

/-- A nonnegative decimal in the format. -/
def write (f : DecimalFormat) (d : Decimal) : String :=
  let digits := Nat.toDigits 10 d.digits
  let leading : Int := d.exponent + digits.length - 1
  let chars :=
    if f.isPositional leading then
      if 0 ≤ d.exponent then
        digits ++ List.replicate d.exponent.toNat '0' ++ (if f.wholePoint then ['.', '0'] else [])
      else if 0 ≤ leading then
        digits.take (leading.toNat + 1) ++ '.' :: digits.drop (leading.toNat + 1)
      else
        ['0', '.'] ++ List.replicate (-leading - 1).toNat '0' ++ digits
    else
      digits.take 1 ++ (if digits.length = 1 then [] else '.' :: digits.drop 1) ++
        'e' :: (if 0 ≤ leading then '+' else '-') :: Nat.toDigits 10 leading.natAbs
  String.ofList chars

/-- A float in the format; infinities and NaN have fixed names. -/
def writeFloat (f : DecimalFormat) (x : Float) : String :=
  match Binary.ofBits? x.toBits with
  | some b => (if b.negative then "-" else "") ++ f.write b.shortest
  | none => if x.isNaN then "NaN" else if x < 0 then "-inf" else "inf"

end DecimalFormat

end Wiring
