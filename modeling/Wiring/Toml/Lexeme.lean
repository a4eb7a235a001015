import Wiring.Toml.Value

/-!
# Strings, keys and numbers in TOML text

Every reader here takes a text and answers with what it read and the rest of the text, or with
nothing if the text is no TOML at that spot.

## Main definitions

* `Toml.readBasic`, `Toml.readLiteral` — strings on one line.
* `Toml.readLongBasic`, `Toml.readLongLiteral` — strings over several lines.
* `Toml.readKey` — keys.
* `Toml.scalar?` — truth values and numbers.
-/

namespace Wiring.Toml

/-- What was read, and the rest of the text. -/
abbrev Result (α : Type) := Option (α × List Char)

/-- Space and tab. -/
def isBlank (c : Char) : Bool := c = ' ' || c = '\t'

/-- The character may stand in comments and strings. -/
def isPlain (c : Char) : Bool := c = '\t' || (32 ≤ c.toNat && c.toNat ≠ 127)

/-- The text after a line end, if it starts with one. -/
def lineEnd? : List Char → Option (List Char)
  | '\n' :: rest => some rest
  | '\r' :: '\n' :: rest => some rest
  | _ => none

/-! ### Strings -/

/-- The character a backslash and `c` stand for. -/
def unescape? : Char → Option Char
  | 'b' => some '\x08'
  | 't' => some '\t'
  | 'n' => some '\n'
  | 'f' => some '\x0c'
  | 'r' => some '\r'
  | '"' => some '"'
  | '\\' => some '\\'
  | _ => none

/-- The value of a hexadecimal digit. -/
def hexValue? (c : Char) : Option Nat :=
  if '0' ≤ c && c ≤ '9' then some (c.toNat - '0'.toNat)
  else if 'a' ≤ c && c ≤ 'f' then some (c.toNat - 'a'.toNat + 10)
  else if 'A' ≤ c && c ≤ 'F' then some (c.toNat - 'A'.toNat + 10)
  else none

/-- The value of hexadecimal digits. -/
def hexNumber? (digits : List Char) : Option Nat :=
  digits.foldlM (fun n c => (hexValue? c).map fun d => 16 * n + d) 0

/-- The character with a code point in hexadecimal digits; surrogates are none. -/
def codePoint? (digits : List Char) : Option Char :=
  match hexNumber? digits with
  | none => none
  | some n => if n.isValidChar then some (Char.ofNat n) else none

/-- Puts a character before what was read after it. -/
def before (c : Option Char) (read : Result (List Char)) : Result (List Char) :=
  match c, read with
  | some c, some (cs, rest) => some (c :: cs, rest)
  | _, _ => none

/-- Reads a string after its opening mark. -/
def readBasic : List Char → Result (List Char)
  | '"' :: rest => some ([], rest)
  | '\\' :: 'u' :: a :: b :: c :: d :: rest => before (codePoint? [a, b, c, d]) (readBasic rest)
  | '\\' :: 'U' :: a :: b :: c :: d :: e :: f :: g :: h :: rest =>
      before (codePoint? [a, b, c, d, e, f, g, h]) (readBasic rest)
  | '\\' :: c :: rest => before (unescape? c) (readBasic rest)
  | c :: rest => if isPlain c then before (some c) (readBasic rest) else none
  | [] => none

/-- Reads a literal string after its opening mark. -/
def readLiteral : List Char → Result (List Char)
  | '\'' :: rest => some ([], rest)
  | c :: rest => if isPlain c then before (some c) (readLiteral rest) else none
  | [] => none

/-- At the end of a long string: up to two more marks belong to it. -/
def closeLong (mark : Char) : List Char → List Char × List Char
  | a :: b :: rest =>
      if a = mark then if b = mark then ([a, b], rest) else ([a], b :: rest)
      else ([], a :: b :: rest)
  | [a] => if a = mark then ([a], []) else ([], [a])
  | [] => ([], [])

/-- Nothing but blanks stand before the end of the line. -/
def restIsBlank : List Char → Bool
  | c :: rest => if isBlank c then restIsBlank rest else (lineEnd? (c :: rest)).isSome
  | [] => false

/-- Reads a long string after its opening mark.  A line end is read as a line feed; after a
backslash at the end of a line all blanks and line ends are left out, and `skipping` says that
this goes on. -/
def readLongBasic : Bool → List Char → Result (List Char)
  | _, '"' :: '"' :: '"' :: rest => some (closeLong '"' rest)
  | skipping, '\r' :: '\n' :: rest =>
      if skipping then readLongBasic true rest else before (some '\n') (readLongBasic false rest)
  | skipping, '\n' :: rest =>
      if skipping then readLongBasic true rest else before (some '\n') (readLongBasic false rest)
  | _, '\\' :: 'u' :: a :: b :: c :: d :: rest =>
      before (codePoint? [a, b, c, d]) (readLongBasic false rest)
  | _, '\\' :: 'U' :: a :: b :: c :: d :: e :: f :: g :: h :: rest =>
      before (codePoint? [a, b, c, d, e, f, g, h]) (readLongBasic false rest)
  | _, '\\' :: c :: rest =>
      if restIsBlank (c :: rest) then readLongBasic true (c :: rest)
      else before (unescape? c) (readLongBasic false rest)
  | skipping, c :: rest =>
      if skipping && isBlank c then readLongBasic true rest
      else if isPlain c then before (some c) (readLongBasic false rest)
      else none
  | _, [] => none

/-- Reads a long literal string after its opening mark. -/
def readLongLiteral : List Char → Result (List Char)
  | '\'' :: '\'' :: '\'' :: rest => some (closeLong '\'' rest)
  | '\r' :: '\n' :: rest => before (some '\n') (readLongLiteral rest)
  | '\n' :: rest => before (some '\n') (readLongLiteral rest)
  | c :: rest => if isPlain c then before (some c) (readLongLiteral rest) else none
  | [] => none

/-- A line end right after the opening mark of a long string does not belong to it. -/
def afterFirstLineEnd (cs : List Char) : List Char := (lineEnd? cs).getD cs

/-- Reads a string of any of the four forms. -/
def readString : List Char → Result (List Char)
  | '"' :: '"' :: '"' :: rest => readLongBasic false (afterFirstLineEnd rest)
  | '"' :: rest => readBasic rest
  | '\'' :: '\'' :: '\'' :: rest => readLongLiteral (afterFirstLineEnd rest)
  | '\'' :: rest => readLiteral rest
  | _ => none

/-! ### Keys -/

/-- The character may stand in a key without quotation marks. -/
def isBare (c : Char) : Bool := c.isAlphanum || c = '_' || c = '-'

/-- Reads one part of a key. -/
def readPart : List Char → Result String
  | '"' :: rest => (readBasic rest).map fun (name, after) => (String.ofList name, after)
  | '\'' :: rest => (readLiteral rest).map fun (name, after) => (String.ofList name, after)
  | cs =>
      match cs.span isBare with
      | ([], _) => none
      | (name, rest) => some (String.ofList name, rest)

/-- Reads a key of at most `count` parts, with the blanks around it. -/
def readParts : Nat → List Char → Result (List String)
  | 0, _ => none
  | count + 1, cs =>
      match readPart (cs.dropWhile isBlank) with
      | none => none
      | some (name, rest) =>
          match rest.dropWhile isBlank with
          | '.' :: more =>
              match readParts count more with
              | none => none
              | some (names, after) => some (name :: names, after)
          | after => some ([name], after)

/-- The greatest number of parts of a key, and of arrays and tables inside one another. -/
def depthLimit : Nat := 79

/-- Reads a key: the parts before the last one, and the last one. -/
def readKey (cs : List Char) : Result (List String × String) :=
  match readParts depthLimit cs with
  | none => none
  | some (names, rest) => names.getLast?.map fun last => ((names.dropLast, last), rest)

/-! ### Truth values and numbers -/

/-- The digits of a number in which single underscores may stand between digits. -/
def digitsOf? (isDigit : Char → Bool) : List Char → Option (List Char)
  | [] => none
  | [c] => if isDigit c then some [c] else none
  | c :: '_' :: rest => if isDigit c then (digitsOf? isDigit rest).map (c :: ·) else none
  | c :: rest => if isDigit c then (digitsOf? isDigit rest).map (c :: ·) else none

/-- The value of digits in a base. -/
def numberOf (base : Nat) (digits : List Char) : Nat :=
  digits.foldl (fun n c => base * n + (hexValue? c).getD 0) 0

/-- The digits before a point: a zero alone, or digits that do not start with one. -/
def wholeDigits? (cs : List Char) : Option (List Char) :=
  match digitsOf? Char.isDigit cs with
  | some ('0' :: _ :: _) => none
  | digits => digits

/-- A sign and what follows it. -/
def sign : List Char → Bool × List Char
  | '-' :: rest => (true, rest)
  | '+' :: rest => (false, rest)
  | cs => (false, cs)

/-- A whole number that fits into 64 bits. -/
def fitting? (n : Int) : Option Value :=
  if -Int.pow 2 63 ≤ n && n < Int.pow 2 63 then some (.integer n) else none

/-- A whole number in another base than ten, after its mark. -/
def inBase? (base : Nat) (isDigit : Char → Bool) (cs : List Char) : Option Value :=
  (digitsOf? isDigit cs).bind fun digits => fitting? (numberOf base digits)

/-- A decimal whole number after its sign. -/
def whole? (negative : Bool) (cs : List Char) : Option Value :=
  (wholeDigits? cs).bind fun digits =>
    let n : Int := numberOf 10 digits
    fitting? (if negative then -n else n)

/-- The exponent of a float after its mark. -/
def exponent? (cs : List Char) : Option Int :=
  let (negative, rest) := sign cs
  (digitsOf? Char.isDigit rest).map fun digits =>
    let size : Int := min (numberOf 10 digits) 100000
    if negative then -size else size

/-- The float with these digits and exponent. -/
def floatOf (negative : Bool) (digits : List Char) (exponent : Int) : Float :=
  let x := Float.ofScientific (numberOf 10 digits) (exponent < 0) exponent.natAbs
  if negative then -x else x

/-- Splits at the first character of a kind; none without one. -/
def cutAt (isMark : Char → Bool) (cs : List Char) : List Char × Option (List Char) :=
  match cs.span fun c => !isMark c with
  | (front, []) => (front, none)
  | (front, _ :: back) => (front, some back)

/-- A decimal float after its sign: a point with digits on both sides, an exponent, or both.
Digits alone are no float, so a whole number that does not fit has no value. -/
def decimal? (negative : Bool) (cs : List Char) : Option Value := do
  let (mantissa, power) := cutAt (fun c => c = 'e' || c = 'E') cs
  let (front, back) := cutAt (· = '.') mantissa
  guard (back.isSome || power.isSome)
  let whole ← wholeDigits? front
  let fraction ←
    match back with
    | none => some []
    | some digits => digitsOf? Char.isDigit digits
  let exponent ←
    match power with
    | none => some 0
    | some digits => exponent? digits
  let x := floatOf negative (whole ++ fraction) (exponent - fraction.length)
  if x.isInf && !negative then none else some (.float x)

/-- The value of a word: a truth value or a number.  Dates and times are read apart. -/
def scalar? (word : List Char) : Option Value :=
  let (negative, size) := sign word
  if word = ['t', 'r', 'u', 'e'] then some (.bool true)
  else if word = ['f', 'a', 'l', 's', 'e'] then some (.bool false)
  else if size = ['i', 'n', 'f'] then some (.float (if negative then -(1.0 / 0.0) else 1.0 / 0.0))
  else if size = ['n', 'a', 'n'] then some (.float (0.0 / 0.0))
  else
    match word with
    | '0' :: 'x' :: digits => inBase? 16 (fun c => (hexValue? c).isSome) digits
    | '0' :: 'o' :: digits => inBase? 8 (fun c => '0' ≤ c && c ≤ '7') digits
    | '0' :: 'b' :: digits => inBase? 2 (fun c => c = '0' || c = '1') digits
    | _ => (whole? negative size).or (decimal? negative size)

end Wiring.Toml
