import Wiring.Json.Draft

/-!
# Readers: drafts looked at with a shape in mind

A reader looks at a draft in text order and answers with the value of its shape, or with the
first fault it meets.  Faults differ a little between a draft of text, which is still being read,
and a draft of a value, whose text has been read completely before.

## Main definitions

* `Json.Medium` — text or value.
* `Json.Reader` — readers.
* `Json.Reader.string`, `Json.Reader.boolean`, `Json.Reader.anything`, `Json.Reader.optional`,
  `Json.Reader.list`, `Json.Reader.choice`, `Json.Reader.oneOf` — readers of the common shapes.
* `Json.Reader.fromText`, `Json.Reader.fromValue` — reading a whole document.
-/

namespace Wiring.Json

/-- What a draft is a draft of. -/
inductive Medium where
  /-- A text that is still being read. -/
  | text
  /-- A value that has been read before. -/
  | value
  deriving Repr, DecidableEq, Inhabited

/-- A reader of values of a type.  It is told the medium and how many arrays and objects may
still lie inside one another. -/
def Reader (α : Type) : Type := Medium → Nat → Draft → Except Fault α

/-- A syntax fault as a fault of the document. -/
def Reading.lift {α : Type} : Reading α → Except Fault α
  | .ok a => .ok a
  | .error fault => .error (.badSyntax fault)

/-- The fault of a draft that is not what was expected. -/
def Draft.mismatch {α : Type} (draft : Draft) (expected : Expected) : Except Fault α :=
  match draft.found with
  | .ok found => .error (.invalidType found expected)
  | .error fault => .error (.badSyntax fault)

namespace Reader

variable {α β : Type}

/-- Reads a string. -/
def string : Reader String
  | _, _, .string text => text.lift
  | _, _, draft => draft.mismatch .string

/-- Reads a truth value. -/
def boolean : Reader Bool
  | _, _, .bool b => .ok b
  | _, _, draft => draft.mismatch .boolean

/-- Reads any value. -/
def anything : Reader Value
  | _, room, draft => (draft.value room).lift

/-- Reads null, or else what the reader reads. -/
def optional (reader : Reader α) : Reader (Option α)
  | _, _, .null => .ok none
  | medium, room, draft => (reader medium room draft).map some

/-- Reads the items of an array one after the other. -/
def items (reader : Reader α) (medium : Medium) (room : Nat) (ending : ArrayEnd) :
    List Draft → Except Fault (List α)
  | [] => Reading.lift (ending.check.map fun _ => [])
  | item :: rest =>
      match reader medium room item with
      | .error fault => .error fault
      | .ok first => (items reader medium room ending rest).map (first :: ·)

/-- Reads an array. -/
def list (reader : Reader α) : Reader (List α)
  | _, 0, .array _ _ => .error (.badSyntax .tooDeep)
  | medium, room + 1, .array drafts ending => items reader medium room ending drafts
  | _, _, draft => draft.mismatch .array

/-! ### Choices

The name of a choice stands alone as a string, or as the only key of an object whose member
is null. -/

/-- What a name chooses. -/
abbrev Choices (α : Type) := String → Except Fault α

/-- Reads null. -/
def unit : Reader Unit
  | _, _, .null => .ok ()
  | _, _, draft => draft.mismatch .unit

/-- What follows the only member of a choice in text: nothing but the brace may. -/
def closing : List (Reading String × Draft) → ObjectEnd → Except Fault Unit
  | [], .closed => .ok ()
  | [], .ended false => .error (.badSyntax .endInObject)
  | _, _ => .error (.badSyntax .expectedValue)

/-- The fault of an object in text that has no key to choose by. -/
def withoutKey : ObjectEnd → SyntaxFault
  | .ended _ => .endInObject
  | .keyless => .keyNotString
  | .badKey wanted _ => wanted
  | _ => .expectedValue

/-- Reads a choice by its name as the key of an object in text. -/
def choiceByKey (choices : Choices α) (room : Nat) (ending : ObjectEnd) :
    List (Reading String × Draft) → Except Fault α
  | [] => .error (.badSyntax (withoutKey ending))
  | (key, member) :: rest => do
      let chosen ← choices (← key.lift)
      unit .text room member
      closing rest ending
      .ok chosen

/-- Reads a choice by its name as the only key of an object that was read before. -/
def choiceByOnlyKey (choices : Choices α) (room : Nat) :
    List (Reading String × Draft) → Except Fault α
  | [(key, member)] => do
      let chosen ← choices (← key.lift)
      unit .value room member
      .ok chosen
  | _ => .error .notSingleMember

/-- Reads the name of a choice. -/
def choice (choices : Choices α) : Reader α
  | _, _, .string text => text.lift.bind choices
  | .text, 0, .object _ _ => .error (.badSyntax .tooDeep)
  | .text, room + 1, .object members ending => choiceByKey choices room ending members
  | .value, room, .object members _ => choiceByOnlyKey choices room members
  | .text, _, .broken stop => .error (.badSyntax stop.chosen)
  | .text, _, _ => .error (.badSyntax .expectedValue)
  | .value, _, draft => draft.mismatch .choice

/-- Reads one of the names in a table. -/
def oneOf (table : List (String × α)) : Reader α :=
  choice fun name =>
    match table.lookup name with
    | some a => .ok a
    | none => .error (.unknownChoice name (table.map Prod.fst))

/-! ### Whole documents -/

/-- How many arrays and objects may lie inside one another in a text. -/
def textRoom : Nat := 127

/-- Nothing but blanks may follow a document. -/
def nothingMore : Option (List Char) → Except Fault Unit
  | some rest =>
      if (skipBlanks rest).isEmpty then .ok () else .error (.badSyntax .trailingCharacters)
  | none => .error (.badSyntax .endInValue)

/-- Reads a text. -/
def fromText (reader : Reader α) (text : String) : Except Fault α :=
  let (draft, rest) := Draft.ofText text.toList
  match reader .text textRoom draft with
  | .error fault => .error fault
  | .ok a => (nothingMore rest).map fun _ => a

/-- Reads a value. -/
def fromValue (reader : Reader α) (value : Value) : Except Fault α :=
  reader .value value.depth (.ofValue value)

end Reader

end Wiring.Json
