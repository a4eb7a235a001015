/-!
# Dates and times in TOML text

A date, a time of day, or both with or without a distance from universal time.  What is read is
always a day of the calendar and a time of the clock; fractions of a second are cut after nine
digits.

## Main definitions

* `Toml.Date`, `Toml.Time`, `Toml.Offset`, `Toml.DateTime` — dates and times.
* `Toml.DateTime.text` — how they are written.
* `Toml.readDateTime` — reading them.
-/

namespace Wiring.Toml

/-! ### Days and times -/

/-- The year has a day more than others. -/
def isLeapYear (year : Nat) : Bool := year % 4 = 0 && (year % 100 ≠ 0 || year % 400 = 0)

/-- The number of days of a month. -/
def daysOfMonth (year month : Nat) : Nat :=
  if month = 2 then if isLeapYear year then 29 else 28
  else if month = 4 ∨ month = 6 ∨ month = 9 ∨ month = 11 then 30
  else 31

/-- A day of the calendar. -/
structure Date where
  /-- The year. -/
  year : Nat
  /-- The month. -/
  month : Nat
  /-- The day of the month. -/
  day : Nat
  /-- There is such a day, and its year has four digits. -/
  valid : year < 10000 ∧ (1 ≤ month ∧ month ≤ 12) ∧ 1 ≤ day ∧ day ≤ daysOfMonth year month
  deriving Repr, DecidableEq

instance : Inhabited Date := ⟨⟨1970, 1, 1, by decide⟩⟩

/-- A time of the clock. -/
structure Time where
  /-- The hour. -/
  hour : Nat
  /-- The minute. -/
  minute : Nat
  /-- The second; there may be a leap second. -/
  second : Nat
  /-- The nanosecond. -/
  nanosecond : Nat
  /-- There is such a time. -/
  valid : hour < 24 ∧ minute < 60 ∧ second ≤ 60 ∧ nanosecond < 1000000000
  deriving Repr, DecidableEq

instance : Inhabited Time := ⟨⟨0, 0, 0, 0, by decide⟩⟩

/-- The distance of a local time from universal time. -/
inductive Offset where
  /-- The time is universal time. -/
  | universal
  /-- The time is so many minutes ahead of universal time. -/
  | ahead (minutes : Int)
  deriving Repr, DecidableEq, Inhabited

/-- A date, a time of day, or both. -/
inductive DateTime where
  /-- A time of a day, whose distance from universal time may be known. -/
  | both (date : Date) (time : Time) (offset : Option Offset)
  /-- A day. -/
  | date (date : Date)
  /-- A time of any day. -/
  | time (time : Time)
  deriving Repr, DecidableEq, Inhabited

/-! ### Writing -/

/-- A number with zeros before it up to a width. -/
def padded (width n : Nat) : String :=
  let digits := Nat.toDigits 10 n
  String.ofList (List.replicate (width - digits.length) '0' ++ digits)

/-- The text of a date. -/
def Date.text (date : Date) : String :=
  padded 4 date.year ++ "-" ++ padded 2 date.month ++ "-" ++ padded 2 date.day

/-- The text of a part of a second, without zeros at its end. -/
def fractionText (nanosecond : Nat) : String :=
  if nanosecond = 0 then ""
  else "." ++ String.ofList ((padded 9 nanosecond).toList.reverse.dropWhile (· = '0')).reverse

/-- The text of a time of day. -/
def Time.text (time : Time) : String :=
  padded 2 time.hour ++ ":" ++ padded 2 time.minute ++ ":" ++ padded 2 time.second ++
    fractionText time.nanosecond

/-- The text of a distance from universal time. -/
def Offset.text : Offset → String
  | universal => "Z"
  | ahead minutes =>
      (if minutes < 0 then "-" else "+") ++ padded 2 (minutes.natAbs / 60) ++ ":" ++
        padded 2 (minutes.natAbs % 60)

/-- The text of a date or time. -/
def DateTime.text : DateTime → String
  | both day clock offset => day.text ++ "T" ++ clock.text ++ (offset.map Offset.text).getD ""
  | date day => day.text
  | time clock => clock.text

/-! ### Reading -/

/-- The value of a decimal digit. -/
def digit? (c : Char) : Option Nat := if c.isDigit then some (c.toNat - '0'.toNat) else none

/-- Reads a number of two digits. -/
def readTwo : List Char → Option (Nat × List Char)
  | a :: b :: rest => do
      let tens ← digit? a
      let ones ← digit? b
      some (10 * tens + ones, rest)
  | _ => none

/-- The text after a mark. -/
def afterMark? (mark : Char) : List Char → Option (List Char)
  | c :: rest => if c = mark then some rest else none
  | [] => none

/-- Reads a date. -/
def readDate (cs : List Char) : Option (Date × List Char) := do
  let (century, rest) ← readTwo cs
  let (years, rest) ← readTwo rest
  let (month, rest) ← readTwo (← afterMark? '-' rest)
  let (day, rest) ← readTwo (← afterMark? '-' rest)
  let year := 100 * century + years
  if valid : _ then some (⟨year, month, day, valid⟩, rest) else none

/-- The nanoseconds of a part of a second; digits after the ninth are cut. -/
def nanoseconds (digits : List Char) : Nat :=
  ((digits ++ List.replicate 9 '0').take 9).foldl (fun n c => 10 * n + (digit? c).getD 0) 0

/-- Reads a part of a second, if there is one. -/
def readFraction (cs : List Char) : Nat × List Char :=
  match afterMark? '.' cs with
  | none => (0, cs)
  | some after =>
      match after.span Char.isDigit with
      | ([], _) => (0, cs)
      | (digits, rest) => (nanoseconds digits, rest)

/-- Reads a time of day. -/
def readTime (cs : List Char) : Option (Time × List Char) := do
  let (hour, rest) ← readTwo cs
  let (minute, rest) ← readTwo (← afterMark? ':' rest)
  let (second, rest) ← readTwo (← afterMark? ':' rest)
  let (nanosecond, rest) := readFraction rest
  if valid : _ then some (⟨hour, minute, second, nanosecond, valid⟩, rest) else none

/-- Reads hours and minutes as minutes. -/
def readMinutes (cs : List Char) : Option (Nat × List Char) := do
  let (hours, rest) ← readTwo cs
  let (minutes, rest) ← readTwo (← afterMark? ':' rest)
  if hours < 24 ∧ minutes < 60 then some (60 * hours + minutes, rest) else none

/-- Reads a distance from universal time. -/
def readOffset : List Char → Option (Offset × List Char)
  | 'Z' :: rest | 'z' :: rest => some (.universal, rest)
  | '+' :: rest => (readMinutes rest).map fun (minutes, after) => (.ahead minutes, after)
  | '-' :: rest => (readMinutes rest).map fun (minutes, after) => (.ahead (-minutes), after)
  | _ => none

/-- The text after the mark between a date and a time. -/
def afterDate? : List Char → Option (List Char)
  | 'T' :: rest | 't' :: rest | ' ' :: rest => some rest
  | _ => none

/-- Reads a date or time.  A blank after a date need not lead to a time. -/
def readDateTime (cs : List Char) : Option (DateTime × List Char) :=
  match readDate cs with
  | none => (readTime cs).map fun (time, rest) => (.time time, rest)
  | some (date, rest) =>
      match (afterDate? rest).bind readTime with
      | none => some (.date date, rest)
      | some (time, after) =>
          match readOffset after with
          | none => some (.both date time none, after)
          | some (offset, after) => some (.both date time (some offset), after)

end Wiring.Toml
