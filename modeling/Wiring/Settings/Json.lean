import Wiring.Json.Record
import Wiring.Settings

/-!
# Settings in JSON

How settings are read from JSON and written as JSON.  Every section and every key may be
missing; the built-in value then stands in.

## Main definitions

* `Naming.reader`, `Symbols.reader`, `Settings.reader` — reading.
* `Naming.members`, `Symbols.members` — the keys of a section with their texts.
* `Settings.toJson` — writing.
-/

namespace Wiring

open Json

/-- A text that stands in for a missing one. -/
def textField (key builtIn : String) : RecordField String := .orElse key .string builtIn

/-! ### Naming -/

namespace Naming

/-- The naming of its two fields. -/
def ofRow : Row [String, String] → Naming
  | (suffix, header, _) => ⟨suffix, header⟩

/-- Reads a naming. -/
def reader : Reader Naming :=
  let builtIn : Naming := {}
  Reader.record "Naming" ofRow
    (textField "suffix" builtIn.suffix, textField "header" builtIn.header, ())

/-- The keys of a naming with their texts. -/
def members (naming : Naming) : List (String × String) :=
  [("suffix", naming.suffix), ("header", naming.header)]

end Naming

/-! ### Runtime symbols -/

namespace Symbols

/-- The symbols of their ten fields. -/
def ofRow : Row [String, String, String, String, String, String, String, String, String, String] →
    Symbols
  | (registry, injectorInterface, providerCapability, serializationService, typeWrapper,
      logFacility, logTag, marker, serializable, parcelable, _) =>
    { registry, injectorInterface, providerCapability, serializationService, typeWrapper,
      logFacility, logTag, marker, serializable, parcelable }

/-- Reads runtime symbols. -/
def reader : Reader Symbols :=
  let builtIn : Symbols := {}
  Reader.record "RuntimeSymbols" ofRow
    (textField "registry" builtIn.registry,
      textField "injector_interface" builtIn.injectorInterface,
      textField "provider_capability" builtIn.providerCapability,
      textField "serialization_service" builtIn.serializationService,
      textField "type_wrapper" builtIn.typeWrapper,
      textField "log_facility" builtIn.logFacility,
      textField "log_tag" builtIn.logTag,
      textField "autowired_annotation" builtIn.marker,
      textField "serializable" builtIn.serializable,
      textField "parcelable" builtIn.parcelable, ())

/-- The keys of the runtime symbols with their texts. -/
def members (symbols : Symbols) : List (String × String) :=
  [("registry", symbols.registry), ("injector_interface", symbols.injectorInterface),
   ("provider_capability", symbols.providerCapability),
   ("serialization_service", symbols.serializationService),
   ("type_wrapper", symbols.typeWrapper), ("log_facility", symbols.logFacility),
   ("log_tag", symbols.logTag), ("autowired_annotation", symbols.marker),
   ("serializable", symbols.serializable), ("parcelable", symbols.parcelable)]

end Symbols

/-! ### Both sections -/

namespace Settings

/-- The settings of their two sections. -/
def ofRow : Row [Naming, Symbols] → Settings
  | (naming, symbols, _) => ⟨naming, symbols⟩

/-- Reads settings. -/
def reader : Reader Settings :=
  Reader.record "Config" ofRow
    (.orElse "naming" Naming.reader {}, .orElse "runtime" Symbols.reader {}, ())

/-- A section as JSON. -/
def sectionToJson (members : List (String × String)) : Value :=
  .object (members.map fun (key, text) => (key, .string text))

/-- Settings as JSON. -/
def toJson (settings : Settings) : Value :=
  .object [("naming", sectionToJson settings.naming.members),
    ("runtime", sectionToJson settings.symbols.members)]

end Settings

end Wiring
