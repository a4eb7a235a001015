import Wiring.Json.Lexeme

/-!
# Drafts: JSON text as far as it can be read

A draft is the tree that a JSON text has up to the first spot where it breaks.  Reading text
into a draft never fails: a broken spot becomes a part of the tree.  What is wrong with a
document is decided later, when the draft is looked at in text order with a shape in mind; then
the first problem met is the one reported, whether the text is broken there or the value is of
the wrong shape.

## Main definitions

* `Json.Draft` — a tree with at most one broken spot, at its end.
* `Json.Draft.ofText` — the draft of a text, and what follows it.
* `Json.Draft.ofValue` — the draft of a value.
* `Json.Draft.passOver` — the first fault for one who does not want the value.
* `Json.Draft.found` — what stands at the start of a draft.
* `Json.Draft.value` — the value of a draft.
-/

namespace Wiring.Json

/-- A string or number as read: its value, or the fault that keeps it from having one. -/
abbrev Reading (α : Type) := Except SyntaxFault α

/-- How the items of an array end. -/
inductive ArrayEnd where
  /-- With a bracket. -/
  | closed
  /-- With a comma and a bracket. -/
  | commaClosed
  /-- With something that is neither comma nor bracket. -/
  | noComma
  /-- With the end of the text. -/
  | ended
  deriving Repr, DecidableEq, Inhabited

/-- How the members of an object end. -/
inductive ObjectEnd where
  /-- With a brace. -/
  | closed
  /-- With a comma and a brace. -/
  | commaClosed
  /-- With something that is neither comma nor brace. -/
  | noComma
  /-- With the end of the text, after a comma or not. -/
  | ended (afterComma : Bool)
  /-- With something in place of a key. -/
  | keyless
  /-- With a string in place of a key whose end cannot be found; the fault in it for one who
  wants the key, and for one who passes over it. -/
  | badKey (wanted passedOver : SyntaxFault)
  deriving Repr, Inhabited

/-- A JSON text as far as it can be read. -/
inductive Draft where
  /-- The null value. -/
  | null
  /-- A truth value. -/
  | bool (b : Bool)
  /-- A number. -/
  | number (n : Reading Number)
  /-- A string. -/
  | string (s : Reading String)
  /-- An array. -/
  | array (items : List Draft) (ending : ArrayEnd)
  /-- An object. -/
  | object (members : List (Reading String × Draft)) (ending : ObjectEnd)
  /-- A spot where the text breaks. -/
  | broken (stop : Stop)
  deriving Inhabited

/-- What stands at the start of a draft.  An array or object shows itself by its first
character. -/
def Draft.found : Draft → Reading Found
  | null => .ok .null
  | bool b => .ok (.bool b)
  | number n => n.map .number
  | string s => s.map .string
  | array _ _ => .ok .array
  | object _ _ => .ok .object
  | broken stop => .error stop.wanted

/-! ### Reading text -/

/-- The four characters that may stand between the parts of a JSON text. -/
def isBlank (c : Char) : Bool := c = ' ' || c = '\t' || c = '\n' || c = '\r'

/-- The text without blanks at its start. -/
def skipBlanks : List Char → List Char
  | c :: rest => if isBlank c then skipBlanks rest else c :: rest
  | [] => []

/-- Reads the rest of a word.  After the word comes what follows it. -/
def readWord : List Char → List Char → Except SyntaxFault (List Char)
  | [], cs => .ok cs
  | _ :: _, [] => .error .endInValue
  | w :: word, c :: cs => if c = w then readWord word cs else .error .expectedWord

/-- The draft of a word that stands for a value. -/
def wordDraft (word : List Char) (draft : Draft) (cs : List Char) : Draft × Option (List Char) :=
  match readWord word cs with
  | .ok rest => (draft, some rest)
  | .error fault => (.broken (.inside fault fault), none)

/-- The draft of a number. -/
def numberDraft (negative : Bool) (cs : List Char) : Draft × Option (List Char) :=
  match scanNumber negative cs with
  | .ok (text, rest) => (.number text.value, some rest)
  | .error stop => (.broken stop, none)

/-- The fault in a string without an end, for one who wants the string. -/
def wantedFault (text : Except SyntaxFault String) (passedOver : SyntaxFault) : SyntaxFault :=
  match text with
  | .error fault => fault
  | .ok _ => passedOver

/-- The draft of a string after its opening mark. -/
def stringDraft (cs : List Char) : Draft × Option (List Char) :=
  match readString cs with
  | (text, .ok rest) => (.string text, some rest)
  | (text, .error passedOver) =>
      let wanted := wantedFault text passedOver
      (.broken ⟨wanted, passedOver, wanted⟩, none)

mutual

/-- Reads one value.  Nothing follows a value in which the text breaks. -/
def readValue : Nat → List Char → Draft × Option (List Char)
  | 0, _ => (.broken (.plain .endInValue), none)
  | fuel + 1, cs =>
      match skipBlanks cs with
      | [] => (.broken (.plain .endInValue), none)
      | 'n' :: rest => wordDraft ['u', 'l', 'l'] .null rest
      | 't' :: rest => wordDraft ['r', 'u', 'e'] (.bool true) rest
      | 'f' :: rest => wordDraft ['a', 'l', 's', 'e'] (.bool false) rest
      | '"' :: rest => stringDraft rest
      | '-' :: rest => numberDraft true rest
      | '[' :: rest =>
          match skipBlanks rest with
          | [] => (.array [] .ended, none)
          | ']' :: after => (.array [] .closed, some after)
          | inside =>
              let (items, ending, after) := readItems fuel inside
              (.array items ending, after)
      | '\x7b' :: rest =>
          match skipBlanks rest with
          | '\x7d' :: after => (.object [] .closed, some after)
          | inside =>
              let (members, ending, after) := readMembers fuel false inside
              (.object members ending, after)
      | c :: rest =>
          if c.isDigit then numberDraft false (c :: rest)
          else (.broken (.plain .expectedValue), none)

/-- Reads the items of an array. -/
def readItems : Nat → List Char → List Draft × ArrayEnd × Option (List Char)
  | 0, _ => ([], .ended, none)
  | fuel + 1, cs =>
      match readValue fuel cs with
      | (item, none) => ([item], .ended, none)
      | (item, some rest) =>
          match skipBlanks rest with
          | [] => ([item], .ended, none)
          | ']' :: after => ([item], .closed, some after)
          | ',' :: next =>
              match skipBlanks next with
              | ']' :: _ => ([item], .commaClosed, none)
              | inside =>
                  let (items, ending, after) := readItems fuel inside
                  (item :: items, ending, after)
          | _ => ([item], .noComma, none)

/-- Reads the members of an object, at its start or after a comma. -/
def readMembers : Nat → Bool → List Char →
    List (Reading String × Draft) × ObjectEnd × Option (List Char)
  | 0, afterComma, _ => ([], .ended afterComma, none)
  | fuel + 1, afterComma, cs =>
      match skipBlanks cs with
      | [] => ([], .ended afterComma, none)
      | '\x7d' :: _ => ([], .commaClosed, none)
      | '"' :: rest =>
          match readString rest with
          | (key, .error passedOver) => ([], .badKey (wantedFault key passedOver) passedOver, none)
          | (key, .ok rest) =>
              match readMember fuel rest with
              | (value, none) => ([(key, value)], .ended false, none)
              | (value, some rest) =>
                  match skipBlanks rest with
                  | [] => ([(key, value)], .ended false, none)
                  | '\x7d' :: after => ([(key, value)], .closed, some after)
                  | ',' :: next =>
                      let (members, ending, after) := readMembers fuel true next
                      ((key, value) :: members, ending, after)
                  | _ => ([(key, value)], .noComma, none)
      | _ => ([], .keyless, none)

/-- Reads the colon and the value of a member. -/
def readMember : Nat → List Char → Draft × Option (List Char)
  | 0, _ => (.broken (.plain .endInObject), none)
  | fuel + 1, cs =>
      match skipBlanks cs with
      | [] => (.broken (.plain .endInObject), none)
      | ':' :: rest => readValue fuel rest
      | _ => (.broken (.plain .expectedColon), none)

end

/-- The draft of a text, and what follows it.  Of three calls in a row one takes a character,
so three times the length of the text bounds their depth. -/
def Draft.ofText (cs : List Char) : Draft × Option (List Char) :=
  readValue (3 * cs.length + 3) cs

/-! ### Drafts of values -/

namespace Draft

mutual

/-- The draft of a value. -/
def ofValue : Value → Draft
  | .null => .null
  | .bool b => .bool b
  | .number n => .number (.ok n)
  | .string s => .string (.ok s)
  | .array items => .array (ofItems items) .closed
  | .object members => .object (ofMembers members) .closed

/-- The drafts of the items of an array. -/
def ofItems : List Value → List Draft
  | [] => []
  | value :: rest => ofValue value :: ofItems rest

/-- The drafts of the members of an object. -/
def ofMembers : List (String × Value) → List (Reading String × Draft)
  | [] => []
  | (key, value) :: rest => (.ok key, ofValue value) :: ofMembers rest

end

end Draft

/-! ### Looking at a draft in text order -/

/-- The fault at the end of an array. -/
def ArrayEnd.check : ArrayEnd → Except SyntaxFault Unit
  | closed => .ok ()
  | commaClosed => .error .trailingComma
  | noComma => .error .expectedItemEnd
  | ended => .error .endInArray

/-- The fault at the end of an array that is passed over, where a bracket after a comma is just
no value. -/
def ArrayEnd.passOver : ArrayEnd → Except SyntaxFault Unit
  | commaClosed => .error .expectedValue
  | ending => ending.check

/-- The fault at the end of an object.  After a comma a member is needed, so the text ends in a
value there. -/
def ObjectEnd.check : ObjectEnd → Except SyntaxFault Unit
  | closed => .ok ()
  | commaClosed => .error .trailingComma
  | noComma => .error .expectedMemberEnd
  | ended true => .error .endInValue
  | ended false => .error .endInObject
  | keyless => .error .keyNotString
  | badKey wanted _ => .error wanted

/-- The fault at the end of an object that is passed over, where a brace after a comma is just
no key. -/
def ObjectEnd.passOver : ObjectEnd → Except SyntaxFault Unit
  | commaClosed => .error .keyNotString
  | ended _ => .error .endInObject
  | badKey _ passedOver => .error passedOver
  | ending => ending.check

namespace Draft

mutual

/-- The first fault for one who does not want the value. -/
def passOver : Draft → Except SyntaxFault Unit
  | .array items ending => passOverItems ending items
  | .object members ending => passOverMembers ending members
  | .broken stop => .error stop.passedOver
  | .null => .ok ()
  | .bool _ => .ok ()
  | .number _ => .ok ()
  | .string _ => .ok ()

/-- The first fault in the items of an array. -/
def passOverItems (ending : ArrayEnd) : List Draft → Except SyntaxFault Unit
  | [] => ending.passOver
  | item :: rest =>
      match passOver item with
      | .error fault => .error fault
      | .ok () => passOverItems ending rest

/-- The first fault in the members of an object. -/
def passOverMembers (ending : ObjectEnd) : List (Reading String × Draft) → Except SyntaxFault Unit
  | [] => ending.passOver
  | (_, value) :: rest =>
      match passOver value with
      | .error fault => .error fault
      | .ok () => passOverMembers ending rest

end

mutual

/-- The value of a draft, in which at most `room` arrays and objects may lie inside one
another.  Of equal keys the last counts, and the members come in the order of their keys. -/
def value : Nat → Draft → Reading Value
  | _, .null => .ok .null
  | _, .bool b => .ok (.bool b)
  | _, .number n => n.map .number
  | _, .string s => s.map .string
  | 0, .array _ _ => .error .tooDeep
  | 0, .object _ _ => .error .tooDeep
  | room + 1, .array items ending => (valueItems room ending items).map .array
  | room + 1, .object members ending => (valueMembers room ending [] members).map .object
  | _, .broken stop => .error stop.wanted

/-- The values of the items of an array. -/
def valueItems (room : Nat) (ending : ArrayEnd) : List Draft → Reading (List Value)
  | [] => ending.check.map fun _ => []
  | item :: rest => do
      let first ← value room item
      let others ← valueItems room ending rest
      .ok (first :: others)

/-- The values of the members of an object, together with those already read. -/
def valueMembers (room : Nat) (ending : ObjectEnd) (known : List (String × Value)) :
    List (Reading String × Draft) → Reading (List (String × Value))
  | [] => ending.check.map fun _ => known
  | (key, member) :: rest => do
      let name ← key
      let content ← value room member
      valueMembers room ending (setMember name content known) rest

end

end Draft

end Wiring.Json
