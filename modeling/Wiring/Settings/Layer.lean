import Wiring.Decimal.Format
import Wiring.Json.Value
import Wiring.Path
import Wiring.Settings.Json
import Wiring.Toml.Document

/-!
# Layers of settings

Settings come in layers, each of which may leave out any of them.  Every entry of a layer
knows where it comes from, so that a message can say so.  A later layer wins, entry by entry:
tables are merged at every depth, anything else is replaced.  Types are looked at only after all
layers have been merged.

## Main definitions

* `Settings.Entry`, `Settings.Place` — an entry and where it comes from.
* `Settings.Entry.merge`, `Settings.merge` — an earlier and a later layer together.
* `Settings.ofTable` — the layer of a file.
* `Settings.ofLayer` — the settings of the merged layers.
* `Settings.TypeFault` — an entry of the wrong type.
-/

namespace Wiring.Settings

/-- Where an entry comes from. -/
inductive Place where
  /-- A file, by the path that messages show. -/
  | file (path : Path)
  /-- The environment. -/
  | environment
  deriving Repr, DecidableEq, Inhabited

/-- An entry without parts. -/
inductive Scalar where
  /-- A text. -/
  | text (s : String)
  /-- A whole number without sign. -/
  | unsigned (n : Nat)
  /-- A whole number with sign. -/
  | signed (n : Int)
  /-- A float. -/
  | float (x : Float)
  /-- A truth value. -/
  | bool (b : Bool)
  deriving Repr, Inhabited

/-- An entry of a layer. -/
inductive Entry where
  /-- An entry without parts. -/
  | scalar (place : Place) (value : Scalar)
  /-- A list of entries. -/
  | list (place : Place) (items : List Entry)
  /-- A table of entries, in the order of their keys. -/
  | table (place : Place) (members : List (String × Entry))
  deriving Repr, Inhabited

/-- A layer: its entries in the order of their keys. -/
abbrev Layer := List (String × Entry)

/-! ### Merging -/

mutual

/-- The entry of an earlier and a later layer.  A merged table counts as one of the later
layer. -/
def Entry.merge : Entry → Entry → Entry
  | .table _ earlier, .table place later => .table place (mergeInto earlier later)
  | _, .table place later => .table place later
  | _, .scalar place value => .scalar place value
  | _, .list place items => .list place items

/-- The entries of a later layer set into those of an earlier one. -/
def mergeInto (earlier : Layer) : Layer → Layer
  | [] => earlier
  | (key, entry) :: rest =>
      let merged :=
        match earlier.lookup key with
        | none => entry
        | some old => Entry.merge old entry
      mergeInto (Json.setMember key merged earlier) rest

end

/-- An earlier and a later layer together. -/
def merge (earlier later : Layer) : Layer := mergeInto earlier later

/-! ### Files -/

/-- The key that stands for a date or time. -/
def dateTimeKey : String := "$__toml_private_datetime"

mutual

/-- The entry of a value in a file.  A date or time is handed on as a table with its text. -/
def ofValue (place : Place) : Toml.Value → Entry
  | .string s => .scalar place (.text s)
  | .integer n => .scalar place (.signed n)
  | .float x => .scalar place (.float x)
  | .bool b => .scalar place (.bool b)
  | .dateTime moment => .table place [(dateTimeKey, .scalar place (.text moment.text))]
  | .array items => .list place (ofValues place items)
  | .table members => .table place (ofMembers place members)

/-- The entries of the items of an array in a file. -/
def ofValues (place : Place) : List Toml.Value → List Entry
  | [] => []
  | value :: rest => ofValue place value :: ofValues place rest

/-- The entries of the members of a table in a file. -/
def ofMembers (place : Place) : List (String × Toml.Value) → Layer
  | [] => []
  | (key, value) :: rest => Json.setMember key (ofValue place value) (ofMembers place rest)

end

/-- The layer of a file. -/
def ofTable (place : Place) (members : List (String × Toml.Value)) : Layer :=
  ofMembers place members

/-! ### Types -/

/-- Floats are written without exponent, whole ones without a point. -/
def floatFormat : DecimalFormat := ⟨none, none, false⟩

/-- The wording of an entry in messages. -/
def Entry.describe : Entry → String
  | scalar _ (.text s) => "string " ++ Text.quoted s
  | scalar _ (.unsigned n) => "unsigned int `" ++ toString n ++ "`"
  | scalar _ (.signed n) => "signed int `" ++ toString n ++ "`"
  | scalar _ (.float x) => "float `" ++ floatFormat.writeFloat x ++ "`"
  | scalar _ (.bool b) => if b then "bool true" else "bool false"
  | list _ _ => "sequence"
  | table _ _ => "map"

/-- Where an entry comes from. -/
def Entry.place : Entry → Place
  | scalar place _ => place
  | list place _ => place
  | table place _ => place

/-- What an entry should have been. -/
inductive Wanted where
  /-- A text. -/
  | text
  /-- A section of this name. -/
  | part (name : String)
  deriving Repr, DecidableEq, Inhabited

/-- The wording of what an entry should have been. -/
def Wanted.describe : Wanted → String
  | text => "a string"
  | part name => "struct " ++ name

/-- An entry of the wrong type. -/
structure TypeFault where
  /-- The keys that lead to the entry. -/
  keys : List String
  /-- The entry. -/
  found : Entry
  /-- What it should have been. -/
  wanted : Wanted
  deriving Repr, Inhabited

/-- What is wrong with an entry. -/
def TypeFault.message (fault : TypeFault) : String :=
  "invalid type: found " ++ fault.found.describe ++ ", expected " ++ fault.wanted.describe

/-- The keys that lead to the entry, with dots. -/
def TypeFault.key (fault : TypeFault) : String := ".".intercalate fault.keys

/-- The keys as the place of the entry writes them. -/
def TypeFault.writtenKey (fault : TypeFault) : String :=
  match fault.found.place with
  | .file _ => ".".intercalate ("default" :: fault.keys)
  | .environment => fault.key.map Char.toUpper

/-- The wording of a place. -/
def Place.describe : Place → String
  | file path => path.text ++ " TOML file"
  | environment => "`AUTOWIRE_` environment variable(s)"

/-- What is wrong with which entry, and where it comes from. -/
def TypeFault.report (fault : TypeFault) : String :=
  fault.message ++ " for key " ++ Text.quoted fault.writtenKey ++ " in " ++
    fault.found.place.describe

/-- The text of an entry. -/
def textOf (keys : List String) : Entry → Except TypeFault String
  | .scalar _ (.text s) => .ok s
  | entry => .error ⟨keys, entry, .text⟩

/-- The texts of the keys of a section in a table; other keys are passed over. -/
def textsIn (name : String) (known : List String) :
    Layer → Except TypeFault (List (String × String))
  | [] => .ok []
  | (key, entry) :: rest =>
      if key ∈ known then
        match textOf [name, key] entry with
        | .error fault => .error fault
        | .ok text => (textsIn name known rest).map ((key, text) :: ·)
      else textsIn name known rest

/-- The texts of the keys of a section that is given as a list, from a position on.  There may be
fewer or more items than keys. -/
def textsOfItems (name : String) (position : Nat) :
    List String → List Entry → Except TypeFault (List (String × String))
  | key :: known, entry :: rest =>
      match textOf [name, toString position] entry with
      | .error fault => .error fault
      | .ok text => (textsOfItems name (position + 1) known rest).map ((key, text) :: ·)
  | _, _ => .ok []

/-- The texts of the keys of a section, by its name and the name of its type. -/
def textsOf (layer : Layer) (name type : String) (known : List String) :
    Except TypeFault (List (String × String)) :=
  match layer.lookup name with
  | none => .ok []
  | some (.table _ members) => textsIn name known members
  | some (.list _ items) => textsOfItems name 0 known items
  | some entry => .error ⟨[name], entry, .part type⟩

end Wiring.Settings

namespace Wiring

/-- The text of a key, or the built-in one. -/
def Settings.textOr (texts : List (String × String)) (key builtIn : String) : String :=
  (texts.lookup key).getD builtIn

/-- The naming with the given texts, built-in for the other keys. -/
def Naming.ofTexts (texts : List (String × String)) : Naming :=
  let builtIn : Naming := {}
  { suffix := Settings.textOr texts "suffix" builtIn.suffix
    header := Settings.textOr texts "header" builtIn.header }

/-- The runtime symbols with the given texts, built-in for the other keys. -/
def Symbols.ofTexts (texts : List (String × String)) : Symbols :=
  let builtIn : Symbols := {}
  { registry := Settings.textOr texts "registry" builtIn.registry
    injectorInterface := Settings.textOr texts "injector_interface" builtIn.injectorInterface
    providerCapability := Settings.textOr texts "provider_capability" builtIn.providerCapability
    serializationService :=
      Settings.textOr texts "serialization_service" builtIn.serializationService
    typeWrapper := Settings.textOr texts "type_wrapper" builtIn.typeWrapper
    logFacility := Settings.textOr texts "log_facility" builtIn.logFacility
    logTag := Settings.textOr texts "log_tag" builtIn.logTag
    marker := Settings.textOr texts "autowired_annotation" builtIn.marker
    serializable := Settings.textOr texts "serializable" builtIn.serializable
    parcelable := Settings.textOr texts "parcelable" builtIn.parcelable }

/-- The settings of the merged layers.  The naming is looked at first; in a table the keys are
looked at in order. -/
def Settings.ofLayer (layer : Settings.Layer) : Except Settings.TypeFault Settings :=
  let keys (members : List (String × String)) : List String := members.map Prod.fst
  match Settings.textsOf layer "naming" "Naming" (keys ({} : Naming).members) with
  | .error fault => .error fault
  | .ok naming =>
      match Settings.textsOf layer "runtime" "RuntimeSymbols" (keys ({} : Symbols).members) with
      | .error fault => .error fault
      | .ok symbols => .ok ⟨.ofTexts naming, .ofTexts symbols⟩

end Wiring
