import Wiring.Category
import Wiring.Owner

/-!
# Statements of an injection

A small language that says what an injection does, not how it is spelled.  A statement may
hold statement lists of its own; a `whenPresent` statement binds the value of its subject for its
body, and the expression `bound` stands for that value.

## Main definitions

* `Expression` — values.
* `Condition` — what an `ifThen` statement tests.
* `Failure` — what a failed check does.
* `Statement` — statements.
* `Statement.children` — the statement lists directly inside a statement.
* `Statement.expressions` — the expressions directly inside a statement.
* `Expression.type?` — the type an expression is about.
-/

namespace Wiring

/-- A value. -/
inductive Expression where
  /-- The value bound by the nearest enclosing `whenPresent` statement. -/
  | bound
  /-- The owner's argument bundle, which may be null. -/
  | bundle (source : BundleSource)
  /-- A typed read from the bound bundle; the value of the field `fallback` is passed as
  the default. -/
  | read (getter : Getter) (key : String) (fallback : Option String)
  /-- A string read straight from the argument source, null if there is none. -/
  | readString (source : BundleSource) (key : String)
  /-- A serializable value of the source, null unless it is of the type. -/
  | readSerializable (source : BundleSource) (key : String) (type : DeclaredType)
  /-- A parcelable value of the source, null unless it is of the type. -/
  | readParcelable (source : BundleSource) (key : String) (type : DeclaredType)
  /-- The service registered for a type. -/
  | serviceByType (type : DeclaredType)
  /-- The service registered under a key, cast to the type; the cast gives null instead of
  failing if `nullable`. -/
  | serviceByName (key : String) (type : DeclaredType) (nullable : Bool)
  /-- The object of the type that the text in the local variable `raw` describes. -/
  | deserialize (raw : String) (type : DeclaredType)
  deriving Repr, Inhabited

/-- The type that an expression is about, for those that have one. -/
def Expression.type? : Expression → Option DeclaredType
  | readSerializable _ _ type => some type
  | readParcelable _ _ type => some type
  | serviceByType type => some type
  | serviceByName _ type _ => some type
  | deserialize _ type => some type
  | _ => none

/-- What an `ifThen` statement tests. -/
inductive Condition where
  /-- The bound bundle has the key. -/
  | containsKey (key : String)
  /-- The local variable holds some text that is not empty. -/
  | notNullOrEmpty (name : String)
  /-- The service that turns text into objects is there. -/
  | deserializerAvailable
  /-- The field of the target is null. -/
  | fieldIsNull (field : String)
  deriving Repr, DecidableEq, Inhabited

/-- What a failed check does. -/
inductive Failure where
  /-- Throws the message; the injection ends. -/
  | fatal (message : String)
  /-- Logs the message and goes on. -/
  | diagnostic (message : String)
  deriving Repr, DecidableEq, Inhabited

/-- A statement. -/
inductive Statement where
  /-- Looks up the service that turns text into objects. -/
  | resolveDeserializer
  /-- Casts the target to the owner's type, or fails with the message. -/
  | bindTarget (owner : DeclaredType) (message : String)
  /-- Assigns a value to a field of the target. -/
  | assign (field : String) (value : Expression)
  /-- Declares a local variable. -/
  | declare (name : String) (value : Expression)
  /-- Runs the body with the value of the subject bound, if that value is not null. -/
  | whenPresent (subject : Expression) (body : List Statement)
  /-- Runs one of two branches. -/
  | ifThen (condition : Condition) (yes : List Statement) (no : Option (List Statement))
  /-- Checks that a field of the target is not null. -/
  | require (field : String) (failure : Failure)
  /-- Writes a message to the log. -/
  | log (message : String)
  deriving Repr, Inhabited

namespace Statement

/-- The statement lists directly inside a statement, in source order. -/
def children : Statement → List (List Statement)
  | whenPresent _ body => [body]
  | ifThen _ yes none => [yes]
  | ifThen _ yes (some no) => [yes, no]
  | _ => []

/-- The expressions directly inside a statement. -/
def expressions : Statement → List Expression
  | assign _ value => [value]
  | declare _ value => [value]
  | whenPresent subject _ => [subject]
  | _ => []

end Statement

end Wiring
