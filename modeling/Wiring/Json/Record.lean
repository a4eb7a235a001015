import Wiring.Json.Reader

/-!
# Readers of records

A record is written as an object with a member for each of its fields, or as an array of the
fields in order.  Members that are no fields are passed over.  A field may have a value for when
it is missing.

## Main definitions

* `Json.RecordField`, `Json.RecordFields` — the fields of a record.
* `Json.Row` — one value for each field.
* `Json.Slots` — the values of the fields read so far.
* `Json.Reader.record` — the reader of a record.
-/

namespace Wiring.Json

/-- A field of a record. -/
structure RecordField (α : Type) where
  /-- Its name. -/
  name : String
  /-- How it is read. -/
  read : Reader α
  /-- Its value where it is missing; none if it is needed. -/
  absent : Option α

/-- A field that must be there. -/
def RecordField.needed {α : Type} (name : String) (read : Reader α) : RecordField α :=
  ⟨name, read, none⟩

/-- A field with a value for when it is missing. -/
def RecordField.orElse {α : Type} (name : String) (read : Reader α) (absent : α) : RecordField α :=
  ⟨name, read, some absent⟩

/-- The fields of a record, by their types. -/
def RecordFields : List Type → Type
  | [] => Unit
  | α :: αs => RecordField α × RecordFields αs

/-- A value for each field of a record. -/
def Row : List Type → Type
  | [] => Unit
  | α :: αs => α × Row αs

/-- The values of those fields of a record that have been read. -/
def Slots : List Type → Type
  | [] => Unit
  | α :: αs => Option α × Slots αs

/-- No field has been read. -/
def Slots.blank : (αs : List Type) → Slots αs
  | [] => ()
  | _ :: αs => (none, blank αs)

namespace RecordFields

/-- Reads a member into its slot.  A second member of one name is refused before its value is
looked at; a member that is no field is passed over. -/
def offer (medium : Medium) (room : Nat) (key : String) (member : Draft) :
    (αs : List Type) → RecordFields αs → Slots αs → Except Fault (Slots αs)
  | [], _, slots => (Reading.lift member.passOver).map fun _ => slots
  | _ :: αs, (field, fields), (slot, slots) =>
      if key = field.name then
        match slot with
        | some _ => .error (.duplicateField key)
        | none => (field.read medium room member).map fun a => (some a, slots)
      else (offer medium room key member αs fields slots).map fun filled => (slot, filled)

/-- Reads the members of an object in order. -/
def offerAll (medium : Medium) (room : Nat) (ending : ObjectEnd) {αs : List Type}
    (fields : RecordFields αs) (slots : Slots αs) :
    List (Reading String × Draft) → Except Fault (Slots αs)
  | [] => Reading.lift (ending.check.map fun _ => slots)
  | (key, member) :: rest =>
      match key with
      | .error fault => .error (.badSyntax fault)
      | .ok name =>
          match offer medium room name member αs fields slots with
          | .error fault => .error fault
          | .ok filled => offerAll medium room ending fields filled rest

/-- The values of all fields; the first field without any is the fault. -/
def finish : (αs : List Type) → RecordFields αs → Slots αs → Except Fault (Row αs)
  | [], _, _ => .ok ()
  | _ :: αs, (field, fields), (slot, slots) =>
      match slot.or field.absent with
      | none => .error (.missingField field.name)
      | some a => (finish αs fields slots).map fun row => (a, row)

/-- What follows the last field in a text: nothing but the bracket may. -/
def afterLast : List Draft → ArrayEnd → Except Fault Unit
  | _ :: _, _ => .error (.badSyntax .trailingCharacters)
  | [], .noComma => .error (.badSyntax .trailingCharacters)
  | [], ending => Reading.lift ending.check

/-- Reads the items of an array as the fields in order.  Fields at the end may be missing if
they have a value for that; `tooFew` is the fault when one has not, `tooMany` the one for items
left over in a value. -/
def take (medium : Medium) (room : Nat) (ending : ArrayEnd) (tooFew tooMany : Fault) :
    (αs : List Type) → RecordFields αs → List Draft → Except Fault (Row αs)
  | [], _, left =>
      match medium, left with
      | .value, [] => .ok ()
      | .value, _ :: _ => .error tooMany
      | .text, left => afterLast left ending
  | _ :: αs, (field, fields), [] =>
      match ending.check with
      | .error fault => .error (.badSyntax fault)
      | .ok () =>
          match field.absent with
          | none => .error tooFew
          | some a =>
              (take medium room ending tooFew tooMany αs fields []).map fun row => (a, row)
  | _ :: αs, (field, fields), item :: left =>
      match field.read medium room item with
      | .error fault => .error fault
      | .ok a =>
          (take medium room ending tooFew tooMany αs fields left).map fun row => (a, row)

end RecordFields

/-- The reader of a record that is built from the values of its fields. -/
def Reader.record {β : Type} {αs : List Type} (name : String) (build : Row αs → β)
    (fields : RecordFields αs) : Reader β
  | _, 0, .array _ _ => .error (.badSyntax .tooDeep)
  | _, 0, .object _ _ => .error (.badSyntax .tooDeep)
  | medium, room + 1, .array items ending =>
      let tooFew : Fault := .tooFewItems items.length name αs.length
      let tooMany : Fault := .tooManyItems items.length
      (fields.take medium room ending tooFew tooMany αs items).map build
  | medium, room + 1, .object members ending =>
      match RecordFields.offerAll medium room ending fields (.blank αs) members with
      | .error fault => .error fault
      | .ok slots => (RecordFields.finish αs fields slots).map build
  | _, _, draft => draft.mismatch (.record name)

end Wiring.Json
