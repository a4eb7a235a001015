import Wiring.Json.Fault

/-!
# Numbers and strings in JSON text

The two kinds of JSON values with an inner structure.  Either can be read for its value or
merely passed over.  Passing over checks the shape alone: it does not mind a number that is too
large for a float, nor a surrogate without its partner, and where the text ends inside a number
it finds a bad number instead of an early end.

## Main definitions

* `Json.Stop` — where reading stopped, as seen by a reader and by one who passes over.
* `Json.NumberText`, `Json.scanNumber` — the parts of a number.
* `Json.NumberText.value` — its value.
* `Json.Piece`, `Json.scanString`, `Json.joinPieces` — the parts of a string and its text.
-/

namespace Wiring.Json

/-- Where reading stopped, as three readers see it. -/
structure Stop where
  /-- For one who wants the value. -/
  wanted : SyntaxFault
  /-- For one who passes over the value. -/
  passedOver : SyntaxFault
  /-- For one who wants the name of a choice, who looks at the first character only. -/
  chosen : SyntaxFault
  deriving Repr, DecidableEq, Inhabited

/-- A stop that all readers see alike. -/
def Stop.plain (fault : SyntaxFault) : Stop := ⟨fault, fault, fault⟩

/-- A stop inside a value that starts no name of a choice. -/
def Stop.inside (wanted passedOver : SyntaxFault) : Stop := ⟨wanted, passedOver, .expectedValue⟩

/-! ### Numbers -/

/-- The parts of a number as written. -/
structure NumberText where
  /-- A minus sign stands before it. -/
  negative : Bool
  /-- The digits before the point. -/
  whole : List Char
  /-- The digits after the point, if there is one. -/
  fraction : List Char
  /-- Sign and digits of the exponent, if there is one. -/
  exponent : Option (Bool × List Char)
  deriving Repr, DecidableEq, Inhabited

/-- A character stands where a digit was needed, or the text has ended there. -/
def numberStop : List Char → Stop
  | [] => .inside .endInValue .invalidNumber
  | _ => .inside .invalidNumber .invalidNumber

/-- At least one digit, and what follows. -/
def scanDigits (cs : List Char) : Except Stop (List Char × List Char) :=
  match cs.span Char.isDigit with
  | ([], rest) => .error (numberStop rest)
  | (digits, rest) => .ok (digits, rest)

/-- The digits before the point: a single zero, or digits that do not start with one. -/
def scanWhole : List Char → Except Stop (List Char × List Char)
  | '0' :: rest =>
      match rest with
      | c :: _ =>
          if c.isDigit then .error (.inside .invalidNumber .invalidNumber) else .ok (['0'], rest)
      | [] => .ok (['0'], rest)
  | cs => scanDigits cs

/-- The digits after the point; none without a point. -/
def scanFraction : List Char → Except Stop (List Char × List Char)
  | '.' :: rest => scanDigits rest
  | cs => .ok ([], cs)

/-- Sign and digits of an exponent after its mark. -/
def scanSigned (cs : List Char) : Except Stop ((Bool × List Char) × List Char) :=
  let (negative, rest) :=
    match cs with
    | '+' :: rest => (false, rest)
    | '-' :: rest => (true, rest)
    | rest => (false, rest)
  match scanDigits rest with
  | .ok (digits, after) => .ok ((negative, digits), after)
  | .error stop => .error stop

/-- The exponent, if its mark is there. -/
def scanExponent : List Char → Except Stop (Option (Bool × List Char) × List Char)
  | c :: rest =>
      if c = 'e' || c = 'E' then
        match scanSigned rest with
        | .ok (exponent, after) => .ok (some exponent, after)
        | .error stop => .error stop
      else .ok (none, c :: rest)
  | [] => .ok (none, [])

/-- A number without its minus sign, and what follows it. -/
def scanNumber (negative : Bool) (cs : List Char) : Except Stop (NumberText × List Char) := do
  let (whole, rest) ← scanWhole cs
  let (fraction, rest) ← scanFraction rest
  let (exponent, rest) ← scanExponent rest
  .ok (⟨negative, whole, fraction, exponent⟩, rest)

/-- The value of a digit. -/
def digitValue (c : Char) : Nat := c.toNat - '0'.toNat

/-- The value of a list of digits. -/
def digitsValue (digits : List Char) : Nat :=
  digits.foldl (fun n c => 10 * n + digitValue c) 0

/-- Appends digits to a significand while it stays below 2 ^ 64; the digits that do not fit are
left over. -/
def absorb (significand : Nat) : List Char → Nat × List Char
  | [] => (significand, [])
  | c :: rest =>
      let next := significand * 10 + digitValue c
      if next < Nat.pow 2 64 then absorb next rest else (significand, c :: rest)

/-- Ten to a power of at most 308, as the nearest float. -/
def powerOfTen (n : Nat) : Float := Float.ofScientific 1 false n

/-- A float scaled by a power of ten, in one step if the power is a float; `none` when it is too
large.  A very small power is taken in several steps, the first two of which bring every
significand below 2 ^ 64 to zero. -/
def scale? (x : Float) (exponent : Int) : Option Float :=
  if 0 ≤ exponent then
    if exponent ≤ 308 then
      let scaled := x * powerOfTen exponent.toNat
      if scaled.isInf then none else some scaled
    else if x == 0 then some x else none
  else if -308 ≤ exponent then some (x / powerOfTen exponent.natAbs)
  else if -616 ≤ exponent then some (x / powerOfTen 308 / powerOfTen (exponent + 308).natAbs)
  else some (x / powerOfTen 308 / powerOfTen 308)

namespace NumberText

/-- The exponent as written; one beyond 32 bits is cut to a bound that no float reaches. -/
def writtenExponent (t : NumberText) : Int :=
  match t.exponent with
  | none => 0
  | some (negative, digits) =>
      let size : Int := min (digitsValue digits) (Int.pow 2 31)
      if negative then -size else size

/-- The number as a float: as many digits as fit into 64 bits, scaled by one power of ten. -/
def float? (t : NumberText) : Option Float :=
  let (whole, leftWhole) := absorb 0 t.whole
  let (significand, leftFraction) := absorb whole t.fraction
  let exponent : Int := leftWhole.length - (t.fraction.length - leftFraction.length : Int)
  (scale? significand.toUInt64.toFloat (exponent + t.writtenExponent)).map fun x =>
    if t.negative then -x else x

/-- The number was written without point and exponent. -/
def isWhole (t : NumberText) : Bool := t.fraction.isEmpty && t.exponent.isNone

/-- The value.  A number written without point and exponent is whole if it fits into 64 bits,
with sign if it is negative; minus zero is a float. -/
def value (t : NumberText) : Except SyntaxFault Number :=
  let n := digitsValue t.whole
  if t.isWhole && !t.negative && n < Nat.pow 2 64 then .ok (.integer n)
  else if t.isWhole && t.negative && 0 < n && n ≤ Nat.pow 2 63 then .ok (.integer (-n))
  else
    match t.float? with
    | some x => .ok (.float x)
    | none => .error .numberOutOfRange

end NumberText

/-! ### Strings -/

/-- A part of a string. -/
inductive Piece where
  /-- A character, as it is or behind a backslash. -/
  | char (c : Char)
  /-- A unit of UTF-16 by its number. -/
  | unit (n : Nat)
  deriving Repr, DecidableEq, Inhabited

/-- How the parts of a string ended. -/
inductive StringEnd where
  /-- With a quotation mark; the rest of the text follows. -/
  | closed (rest : List Char)
  /-- Somewhere else. -/
  | stopped (fault : SyntaxFault)
  /-- In the digits of a unit. -/
  | badUnit (fault : SyntaxFault)
  deriving Repr, DecidableEq, Inhabited

/-- The value of a hexadecimal digit. -/
def hexValue? (c : Char) : Option Nat :=
  if '0' ≤ c && c ≤ '9' then some (c.toNat - '0'.toNat)
  else if 'a' ≤ c && c ≤ 'f' then some (c.toNat - 'a'.toNat + 10)
  else if 'A' ≤ c && c ≤ 'F' then some (c.toNat - 'A'.toNat + 10)
  else none

/-- The value of four hexadecimal digits. -/
def hexUnit? (a b c d : Char) : Option Nat := do
  some (4096 * (← hexValue? a) + 256 * (← hexValue? b) + 16 * (← hexValue? c) + (← hexValue? d))

/-- The character that a backslash before `c` stands for. -/
def unescape? : Char → Option Char
  | '"' => some '"'
  | '\\' => some '\\'
  | '/' => some '/'
  | 'b' => some '\x08'
  | 'f' => some '\x0c'
  | 'n' => some '\n'
  | 'r' => some '\r'
  | 't' => some '\t'
  | _ => none

/-- The fault of a unit cut short: four bytes that are no digits, or the end of the text. -/
def shortUnit (cs : List Char) : SyntaxFault :=
  if 4 ≤ (String.ofList cs).utf8ByteSize then .invalidEscape else .endInString

/-- The parts of a string after its opening mark, and how they ended. -/
def scanString : List Char → List Piece × StringEnd
  | [] => ([], .stopped .endInString)
  | '"' :: rest => ([], .closed rest)
  | '\\' :: 'u' :: a :: b :: c :: d :: rest =>
      match hexUnit? a b c d with
      | some n =>
          let (pieces, ending) := scanString rest
          (.unit n :: pieces, ending)
      | none => ([], .badUnit .invalidEscape)
  | '\\' :: 'u' :: rest => ([], .badUnit (shortUnit rest))
  | '\\' :: c :: rest =>
      match unescape? c with
      | some plain =>
          let (pieces, ending) := scanString rest
          (.char plain :: pieces, ending)
      | none => ([], .stopped .invalidEscape)
  | ['\\'] => ([], .stopped .endInString)
  | c :: rest =>
      if c.toNat < 32 then ([], .stopped .controlCharacter)
      else
        let (pieces, ending) := scanString rest
        (.char c :: pieces, ending)

/-- The first fault of a leading surrogate at the end of the parts. -/
def StringEnd.afterSurrogate : StringEnd → SyntaxFault
  | .badUnit fault => fault
  | .stopped .endInString => .endInString
  | _ => .missingSurrogate

/-- The unit is a leading surrogate. -/
def isLeading (n : Nat) : Bool := 0xD800 ≤ n && n < 0xDC00

/-- The unit is a trailing surrogate. -/
def isTrailing (n : Nat) : Bool := 0xDC00 ≤ n && n < 0xE000

/-- The character of two surrogates. -/
def pairedChar (leading trailing : Nat) : Char :=
  Char.ofNat (0x10000 + 1024 * (leading - 0xD800) + (trailing - 0xDC00))

/-- The text of the parts of a string: surrogates must come in pairs. -/
def joinPieces (ending : StringEnd) : List Piece → Except SyntaxFault (List Char)
  | [] =>
      match ending with
      | .closed _ => .ok []
      | .stopped fault => .error fault
      | .badUnit fault => .error fault
  | .char c :: rest => (joinPieces ending rest).map (c :: ·)
  | [.unit n] =>
      if isTrailing n then .error .loneSurrogate
      else if isLeading n then .error ending.afterSurrogate
      else (joinPieces ending []).map (Char.ofNat n :: ·)
  | .unit n :: .unit m :: rest =>
      if isTrailing n then .error .loneSurrogate
      else if isLeading n then
        if isTrailing m then (joinPieces ending rest).map (pairedChar n m :: ·)
        else .error .loneSurrogate
      else (joinPieces ending (.unit m :: rest)).map (Char.ofNat n :: ·)
  | .unit n :: .char c :: rest =>
      if isTrailing n then .error .loneSurrogate
      else if isLeading n then .error .missingSurrogate
      else (joinPieces ending (.char c :: rest)).map (Char.ofNat n :: ·)

/-- A string after its opening mark: its text or the first fault in it, and either what follows
the string or the fault that one who passes over it meets. -/
def readString (cs : List Char) : Except SyntaxFault String × Except SyntaxFault (List Char) :=
  let (pieces, ending) := scanString cs
  ((joinPieces ending pieces).map String.ofList,
    match ending with
    | .closed rest => .ok rest
    | .stopped fault => .error fault
    | .badUnit fault => .error fault)

end Wiring.Json
