import Wiring.Property.Json

/-!
# Symbol manifests

A manifest lists the symbols of a source tree with the marks on them.  Discovery looks for one
marker: every property that carries it becomes an injected property, in the order of the
manifest; symbols of other kinds and properties without the marker count for nothing.

## Main definitions

* `SymbolKind`, `Mark`, `ManifestSymbol`, `Manifest` — a manifest and its parts.
* `Manifest.parse` — a manifest from its text.
* `Manifest.discover` — the properties that carry a marker.
* `DiscoveryFault` — why discovery fails.
-/

namespace Wiring

open Json

/-- The kinds of symbols. -/
inductive SymbolKind where
  /-- A property. -/
  | property
  /-- A class. -/
  | classLike
  /-- A function. -/
  | function
  /-- Anything else. -/
  | other
  deriving Repr, DecidableEq, Inhabited

/-- A mark on a symbol. -/
structure Mark where
  /-- Its qualified name. -/
  name : String
  /-- Its arguments as they were written; null if it has none. -/
  arguments : Value
  deriving Repr, Inhabited

/-- A symbol of a manifest. -/
structure ManifestSymbol where
  /-- Its kind. -/
  kind : SymbolKind
  /-- Its name. -/
  name : String
  /-- Its declared type, if it has one. -/
  type : Option DeclaredType
  /-- Its visibility. -/
  visibility : Visibility
  /-- The class that declares it, if any. -/
  owner : Option Owner
  /-- The marks on it, in order. -/
  marks : List Mark
  deriving Repr, Inhabited

/-- The symbols that were read from one place. -/
structure Manifest where
  /-- Where it was read from. -/
  origin : String
  /-- Its symbols, in order. -/
  symbols : List ManifestSymbol
  deriving Repr, Inhabited

/-! ### Reading -/

/-- The kind of a name; unknown names stand for other kinds. -/
def SymbolKind.ofName : String → SymbolKind
  | "property" => .property
  | "class" => .classLike
  | "function" => .function
  | _ => .other

/-- Reads the kind of a symbol. -/
def SymbolKind.reader : Reader SymbolKind := .choice fun name => .ok (.ofName name)

/-- The mark of its two fields. -/
def Mark.ofRow : Row [String, Value] → Mark
  | (name, arguments, _) => ⟨name, arguments⟩

/-- Reads a mark. -/
def Mark.reader : Reader Mark :=
  Reader.record "AnnotationUse" ofRow
    (.needed "qualified_name" .string, .orElse "arguments" .anything .null, ())

namespace ManifestSymbol

/-- The symbol of its six fields. -/
def ofRow :
    Row [SymbolKind, String, Option DeclaredType, Visibility, Option Owner, List Mark] →
      ManifestSymbol
  | (kind, name, type, visibility, owner, marks, _) => ⟨kind, name, type, visibility, owner, marks⟩

/-- Reads a symbol. -/
def reader : Reader ManifestSymbol :=
  Reader.record "ManifestSymbol" ofRow
    (.needed "kind" SymbolKind.reader, .needed "name" .string,
      .orElse "type" (.optional DeclaredType.reader) none,
      .orElse "visibility" (.oneOf Visibility.names) .visible,
      .orElse "owner" (.optional Owner.reader) none,
      .orElse "annotations" (.list Mark.reader) [], ())

end ManifestSymbol

namespace Manifest

/-- The manifest from a place with its only field. -/
def ofRow (origin : String) : Row [List ManifestSymbol] → Manifest
  | (symbols, _) => ⟨origin, symbols⟩

/-- Reads a manifest from a place. -/
def reader (origin : String) : Reader Manifest :=
  Reader.record "Manifest" (ofRow origin)
    (.orElse "symbols" (.list ManifestSymbol.reader) [], ())

end Manifest

/-! ### Discovery -/

/-- Why discovery fails. -/
inductive DiscoveryFault where
  /-- A manifest, or the arguments of a marker in it, cannot be read; `place` says where. -/
  | unreadable (place : String) (fault : Fault)
  /-- A marked property without a declared type. -/
  | untyped (origin symbol : String)
  deriving Repr, Inhabited

namespace Manifest

/-- A manifest from its text. -/
def parse (text origin : String) : Except DiscoveryFault Manifest :=
  match Reader.fromText (reader origin) text with
  | .error fault => .error (.unreadable origin fault)
  | .ok manifest => .ok manifest

/-- The first mark of this name on a symbol. -/
def markOf? (symbol : ManifestSymbol) (marker : String) : Option Mark :=
  symbol.marks.find? fun mark => mark.name = marker

/-- What the arguments of a marker ask for. -/
def requestOf (arguments : Value) : Except Fault Request :=
  match arguments with
  | .null => .ok .plain
  | given => Reader.fromValue Request.reader given

/-- The place of the arguments of a marker, in messages. -/
def argumentsPlace (origin symbol : String) : String := origin ++ " (symbol '" ++ symbol ++ "')"

/-- The injected property that a marked symbol declares. -/
def propertyOf (origin : String) (symbol : ManifestSymbol) (mark : Mark) :
    Except DiscoveryFault Property :=
  match requestOf mark.arguments with
  | .error fault => .error (.unreadable (argumentsPlace origin symbol.name) fault)
  | .ok request =>
      match symbol.type with
      | none => .error (.untyped origin symbol.name)
      | some type => .ok ⟨symbol.name, type, symbol.visibility, symbol.owner, request⟩

/-- The injected property of a symbol, if it declares one. -/
def property? (origin marker : String) (symbol : ManifestSymbol) :
    Except DiscoveryFault (Option Property) :=
  if symbol.kind ≠ .property then .ok none
  else
    match markOf? symbol marker with
    | none => .ok none
    | some mark => (propertyOf origin symbol mark).map some

/-- The injected properties of a list of symbols, in order; the first fault ends it. -/
def discoverIn (origin marker : String) :
    List ManifestSymbol → Except DiscoveryFault (List Property)
  | [] => .ok []
  | symbol :: rest =>
      match property? origin marker symbol with
      | .error fault => .error fault
      | .ok found => (discoverIn origin marker rest).map (found.toList ++ ·)

/-- The properties of a manifest that carry the marker, in order. -/
def discover (manifest : Manifest) (marker : String) : Except DiscoveryFault (List Property) :=
  discoverIn manifest.origin marker manifest.symbols

/-- The properties of several manifests, one manifest after the other. -/
def discoverAll (marker : String) : List Manifest → Except DiscoveryFault (List Property)
  | [] => .ok []
  | manifest :: rest =>
      match manifest.discover marker with
      | .error fault => .error fault
      | .ok found => (discoverAll marker rest).map (found ++ ·)

end Manifest

end Wiring
