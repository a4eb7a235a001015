import Wiring.Settings.Layer
import Wiring.Text.White

/-!
# Settings in the environment

A variable whose name starts with `AUTOWIRE_`, in whatever case, sets the entry that the rest
of its name leads to; two underscores stand between the keys.  Its value is a small language of
words, quoted texts, lists and tables; a value that is none of these as a whole is a text.

## Main definitions

* `Settings.keysOf?` — the keys of a variable.
* `Settings.readEntry`, `Settings.entryOf` — the entry of a value.
* `Settings.ofEnvironment` — the layer of an environment.
-/

namespace Wiring.Settings

/-! ### Names -/

/-- What the names of variables start with. -/
def variableMark : List Char := "AUTOWIRE_".toList

/-- What follows the mark, if the text starts with it in whatever case. -/
def afterMark? : List Char → List Char → Option (List Char)
  | [], cs => some cs
  | m :: mark, c :: cs => if m.toUpper = c.toUpper then afterMark? mark cs else none
  | _ :: _, [] => none

/-- The text with a dot in place of two underscores. -/
def dotted : List Char → List Char
  | '_' :: '_' :: rest => '.' :: dotted rest
  | c :: rest => c :: dotted rest
  | [] => []

/-- The keys of a variable, in lower case; a variable with an empty key sets nothing. -/
def keysOf? (name : String) : Option (List String) :=
  match afterMark? variableMark (Text.trimmed name.toList) with
  | none => none
  | some rest =>
      let keys := Text.segments '.' (Text.trimmed (dotted rest))
      if keys.any List.isEmpty then none
      else some (keys.map fun key => String.ofList (key.map Char.toLower))

/-! ### Values -/

/-- The blanks that may stand between the parts of a value. -/
def isSpace (c : Char) : Bool :=
  c = ' ' || c = '\t' || c = '\n' || c = '\x0c' || c = '\r'

/-- The character may stand in a word. -/
def isWordChar (c : Char) : Bool :=
  c ≠ ',' && c ≠ '\x7b' && c ≠ '\x7d' && c ≠ '[' && c ≠ ']'

/-- The character may stand in a key without quotation marks. -/
def isKeyChar (c : Char) : Bool := c.isAlphanum || c = '_' || c = '-'

/-- A text that has digits only, and at least one. -/
def isDigits (cs : List Char) : Bool := !cs.isEmpty && cs.all Char.isDigit

/-- The float of a decimal with a point, with digits on one side of it at least. -/
def float? (word : List Char) : Option Float := do
  let (negative, size) := Toml.sign word
  let (mantissa, power) := Toml.cutAt (fun c => c = 'e' || c = 'E') size
  let (front, back) := Toml.cutAt (· = '.') mantissa
  let fraction ← back
  if isDigits (front ++ fraction) then
    let exponent ←
      match power with
      | none => some (0 : Int)
      | some digits =>
          let (below, size) := Toml.sign digits
          if isDigits size then
            let bounded : Int := min (Toml.numberOf 10 size) 100000
            some (if below then -bounded else bounded)
          else none
    some (Toml.floatOf negative (front ++ fraction) (exponent - fraction.length))
  else none

/-- The whole number without sign that a word stands for; a plus may precede it. -/
def unsigned? (word : List Char) : Option Nat :=
  let digits := match word with | '+' :: rest => rest | cs => cs
  if isDigits digits && Toml.numberOf 10 digits < Nat.pow 2 64 then some (Toml.numberOf 10 digits)
  else none

/-- The whole number with sign that a word stands for. -/
def signed? (word : List Char) : Option Int :=
  let (negative, digits) := Toml.sign word
  let size : Int := Toml.numberOf 10 digits
  let n := if negative then -size else size
  if isDigits digits && -Int.pow 2 63 ≤ n && n < Int.pow 2 63 then some n else none

/-- The value of a word: a number, else a text. -/
def scalarOf (word : List Char) : Scalar :=
  match float? word with
  | some x => .float x
  | none =>
      match unsigned? word with
      | some n => .unsigned n
      | none =>
          match signed? word with
          | some n => .signed n
          | none => .text (String.ofList word)

/-- The characters that lie as a whole in the first `size` bytes of the text. -/
def firstBytes : Nat → List Char → List Char
  | _, [] => []
  | size, c :: cs =>
      if c.utf8Size ≤ size then c :: firstBytes (size - c.utf8Size) cs else []

/-- The character stands in a quoted text for itself and does not end it. -/
def isUnescaped (c : Char) : Bool := c ≠ '"' && c ≠ '\\'

/-- Reads a quoted text after its opening mark.  A backslash cuts the text before the first one
to as many bytes as it has characters, which shortens it only if not all of it is ASCII. -/
def readQuoted (cs : List Char) : Toml.Result String :=
  (Toml.readBasic cs).map fun (text, after) =>
    match cs.span isUnescaped with
    | (front, '\\' :: _) =>
        (String.ofList (firstBytes front.length front ++ text.drop front.length), after)
    | _ => (String.ofList text, after)

/-- Reads a key, with the blanks around it. -/
def readKey (cs : List Char) : Toml.Result String :=
  match cs.dropWhile isSpace with
  | '"' :: rest =>
      (readQuoted rest).map fun (key, after) => (key, after.dropWhile isSpace)
  | inside =>
      match inside.span isKeyChar with
      | ([], _) => none
      | (key, after) => some (String.ofList key, after.dropWhile isSpace)

/-- What follows a word that stands for a truth value, if the text starts with it. -/
def afterWord? (word : String) (cs : List Char) : Option (List Char) :=
  if word.toList.isPrefixOf cs then some (cs.drop word.length) else none

/-- Reads a value without parts. -/
def readScalar (cs : List Char) : Toml.Result Scalar :=
  match cs with
  | '"' :: rest => (readQuoted rest).map fun (text, after) => (.text text, after)
  | '\'' :: rest =>
      match rest with
      | c :: '\'' :: after => some (.text (String.singleton c), after)
      | _ => none
  | _ =>
      match afterWord? "true" cs, afterWord? "false" cs with
      | some after, _ => some (.bool true, after)
      | none, some after => some (.bool false, after)
      | none, none =>
          let (word, after) := cs.span isWordChar
          some (scalarOf (Text.trimmed word), after)

mutual

/-- Reads an entry, with the blanks around it. -/
def readEntry : Nat → List Char → Toml.Result Entry
  | 0, _ => none
  | fuel + 1, cs =>
      let read : Toml.Result Entry :=
        match cs.dropWhile isSpace with
        | '[' :: rest =>
            (readItems fuel rest).map fun (items, after) => (Entry.list .environment items, after)
        | '\x7b' :: rest =>
            (readMembers fuel [] rest).map fun (members, after) =>
              (Entry.table .environment members, after)
        | inside =>
            (readScalar inside).map fun (value, after) => (Entry.scalar .environment value, after)
      read.map fun (entry, after) => (entry, after.dropWhile isSpace)

/-- Reads the items of a list up to its bracket; a comma may come last. -/
def readItems : Nat → List Char → Toml.Result (List Entry)
  | 0, _ => none
  | fuel + 1, cs =>
      match cs with
      | ']' :: after => some ([], after)
      | inside =>
          match readEntry fuel inside with
          | some (item, ',' :: rest) =>
              (readItems fuel rest).map fun (items, after) => (item :: items, after)
          | some (item, ']' :: after) => some ([item], after)
          | _ => none

/-- Reads the members of a table up to its brace, after those already read; a comma may come
last. -/
def readMembers : Nat → Layer → List Char → Toml.Result Layer
  | 0, _, _ => none
  | fuel + 1, members, cs =>
      match cs with
      | '\x7d' :: after => some (members, after)
      | inside =>
          match readKey inside with
          | some (key, '=' :: rest) =>
              match readEntry fuel rest with
              | some (entry, ',' :: more) =>
                  readMembers fuel (Json.setMember key entry members) more
              | some (entry, '\x7d' :: after) => some (Json.setMember key entry members, after)
              | _ => none
          | _ => none

end

/-- The entry of the value of a variable. -/
def entryOf (value : String) : Entry :=
  match readEntry (2 * value.length + 2) value.toList with
  | some (entry, []) => entry
  | _ => .scalar .environment (.text value)

/-! ### The whole environment -/

/-- The entry below a list of keys. -/
def nested (keys : List String) (entry : Entry) : Entry :=
  keys.foldr (fun key inner => .table .environment [(key, inner)]) entry

/-- The layer of a variable; empty if it sets nothing. -/
def ofVariable (name value : String) : Layer :=
  match keysOf? name with
  | none | some [] => []
  | some (key :: keys) => [(key, nested keys (entryOf value))]

/-- The layer of an environment, whose variables come in an order; of those that set the same entry
the last one counts. -/
def ofEnvironment (environment : List (String × String)) : Layer :=
  environment.foldl (fun layer (name, value) => merge layer (ofVariable name value)) []

end Wiring.Settings
