import Wiring.Json.Record
import Wiring.Property

/-!
# Properties in JSON

How types, owners, requests and properties are read from JSON and written as JSON.  All but the
names and the type of a property may be missing.

## Main definitions

* `DeclaredType.reader`, `Owner.reader`, `Request.reader`, `Property.reader` — reading.
* `DeclaredType.toJson`, `Owner.toJson`, `Request.toJson`, `Property.toJson` — writing.
-/

namespace Wiring

open Json

/-! ### Types -/

namespace DeclaredType

/-- The type of its four fields. -/
def ofRow : Row [String, Bool, List DeclaredType, List String] → DeclaredType
  | (name, nullable, arguments, supertypes, _) => ⟨name, nullable, arguments, supertypes⟩

/-- Reads a type whose arguments lie at most `levels` deep. -/
def readerWithin : Nat → Reader DeclaredType
  | 0 => fun _ _ _ => .error (.badSyntax .tooDeep)
  | levels + 1 =>
      Reader.record "TypeRef" ofRow
        (.needed "qualified_name" .string, .orElse "nullable" .boolean false,
          .orElse "arguments" (.list (readerWithin levels)) [],
          .orElse "supertypes" (.list .string) [], ())

/-- Reads a type.  Its arguments cannot lie deeper than the arrays and objects around them. -/
def reader : Reader DeclaredType := fun medium room draft =>
  readerWithin (room + 1) medium room draft

mutual

/-- A type as JSON. -/
def toJson : DeclaredType → Value
  | ⟨name, nullable, arguments, supertypes⟩ =>
      .object ([("qualified_name", .string name), ("nullable", .bool nullable)] ++
        (match toJsonAll arguments with
          | [] => []
          | written => [("arguments", .array written)]) ++
        (match supertypes with
          | [] => []
          | names => [("supertypes", .strings names)]))

/-- A list of types as JSON. -/
def toJsonAll : List DeclaredType → List Value
  | [] => []
  | t :: rest => toJson t :: toJsonAll rest

end

end DeclaredType

/-! ### Owners -/

/-- The names of the roles.  Screens and fragments go by two names, and so do classes that only
use services. -/
def Role.names : List (String × Role) :=
  [("activity", .screen), ("screen", .screen), ("fragment", .fragment),
   ("screen_fragment", .fragment), ("provider", .serviceConsumer),
   ("service_consumer", .serviceConsumer), ("unknown", .unknown)]

/-- The name that is written for a role. -/
def Role.name : Role → String
  | .screen => "screen"
  | .fragment => "screen_fragment"
  | .serviceConsumer => "service_consumer"
  | .unknown => "unknown"

namespace Owner

/-- The owner of its four fields. -/
def ofRow : Row [String, Option String, Role, Option String] → Owner
  | (name, package, role, file, _) => ⟨name, package, role, file⟩

/-- Reads an owner. -/
def reader : Reader Owner :=
  Reader.record "ClassRef" ofRow
    (.needed "qualified_name" .string, .orElse "package" (.optional .string) none,
      .orElse "role" (.oneOf Role.names) .unknown,
      .orElse "source_file" (.optional .string) none, ())

/-- A member for a text that may be missing. -/
def optionalMember (key : String) : Option String → List (String × Value)
  | none => []
  | some text => [(key, .string text)]

/-- An owner as JSON. -/
def toJson (owner : Owner) : Value :=
  .object ([("qualified_name", .string owner.name)] ++
    optionalMember "package" owner.givenPackage ++ [("role", .string owner.role.name)] ++
      optionalMember "source_file" owner.sourceFile)

end Owner

/-! ### Requests -/

namespace Request

/-- The request of its three fields. -/
def ofRow : Row [Option String, Bool, Option String] → Request
  | (name, required, description, _) => ⟨name, required, description⟩

/-- Reads a request. -/
def reader : Reader Request :=
  Reader.record "Autowired" ofRow
    (.orElse "name" (.optional .string) none, .orElse "required" .boolean false,
      .orElse "desc" (.optional .string) none, ())

/-- A request as JSON. -/
def toJson (request : Request) : Value :=
  .object [("name", .ofString? request.name), ("required", .bool request.required),
    ("desc", .ofString? request.description)]

end Request

/-! ### Properties -/

/-- The name of a visibility. -/
def Visibility.name : Visibility → String
  | .visible => "public"
  | .protectedOnly => "protected"
  | .internalOnly => "internal"
  | .privateOnly => "private"

/-- The names of the visibilities. -/
def Visibility.names : List (String × Visibility) :=
  [("public", .visible), ("protected", .protectedOnly), ("internal", .internalOnly),
   ("private", .privateOnly)]

namespace Property

/-- The property of its five fields. -/
def ofRow : Row [String, DeclaredType, Visibility, Option Owner, Request] → Property
  | (name, type, visibility, owner, request, _) => ⟨name, type, visibility, owner, request⟩

/-- Reads a property. -/
def reader : Reader Property :=
  Reader.record "AnnotatedProperty" ofRow
    (.needed "name" .string, .needed "type" DeclaredType.reader,
      .orElse "visibility" (.oneOf Visibility.names) .visible,
      .orElse "owner" (.optional Owner.reader) none,
      .orElse "annotation" Request.reader .plain, ())

/-- An owner that may be missing as JSON. -/
def ownerToJson : Option Owner → Value
  | none => .null
  | some owner => owner.toJson

/-- A property as JSON. -/
def toJson (property : Property) : Value :=
  .object [("name", .string property.name), ("type", property.type.toJson),
    ("visibility", .string property.visibility.name), ("owner", ownerToJson property.owner),
    ("annotation", property.request.toJson)]

end Property

end Wiring
