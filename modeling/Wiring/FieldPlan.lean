import Wiring.Problem
import Wiring.Statement

/-!
# The plan for one field

How a single property is filled.  Its category selects a strategy; the strategy, the request
on the property and the role of the owner give the statements that fill it, and a check that
it has been filled if the request requires one.

The selection is a look-up that may find nothing, which would be a problem of its own.  No category
is without a strategy, so only a misuse of the marker is left to stand in the way of a plan.

## Main definitions

* `CastKind`, `Strategy` — the strategies.
* `Strategy.select?` — the strategy of a category as it is looked up.
* `Strategy.ofCategory` — the strategy of a category.
* `FieldPlan` — statements and check for one field.
* `FieldPlan.dispatch` — the plan for a property of an owner, or the problem with it.
* `FieldPlan.make` — the plan, or the misuse in its way.

## Main results

* `Strategy.isSome_select?` — every category has a strategy.
* `FieldPlan.dispatch_eq_error_iff` — only a misuse stands in the way of a plan.
-/

namespace Wiring

/-- The two ways to read an object and check its type. -/
inductive CastKind where
  /-- A serializable object. -/
  | serializable
  /-- A parcelable object. -/
  | parcelable
  deriving Repr, DecidableEq, Inhabited

/-- The ways to fill a property. -/
inductive Strategy where
  /-- Asks the service registry; works for every role. -/
  | provider
  /-- Reads a primitive from the argument bundle. -/
  | primitive (getter : Getter)
  /-- Reads a string from the argument bundle. -/
  | str
  /-- Reads an object and checks its type. -/
  | cast (kind : CastKind)
  /-- Reads a text and builds the object from it. -/
  | object
  deriving Repr, DecidableEq, Inhabited

namespace Strategy

/-- The strategy of a category as it is looked up.  A primitive category goes by its typed read,
and would have no strategy without one. -/
def select? (category : Category) : Option Strategy :=
  match category with
  | .provider => some .provider
  | .bool | .byte | .short | .int | .long | .char | .float | .double =>
      category.getter?.map .primitive
  | .str => some .str
  | .serializable => some (.cast .serializable)
  | .parcelable => some (.cast .parcelable)
  | .object => some .object

/-- Every category has a strategy. -/
theorem isSome_select? (category : Category) : (select? category).isSome := by
  cases category <;> rfl

/-- The strategy of a category. -/
def ofCategory (category : Category) : Strategy := (select? category).get (isSome_select? category)

theorem select?_eq (category : Category) : select? category = some (ofCategory category) :=
  (Option.some_get (isSome_select? category)).symm

theorem ofCategory_eq_provider_iff {category : Category} :
    ofCategory category = .provider ↔ category = .provider := by
  cases category <;> decide

end Strategy

/-- The statements that fill one field, and the check after them. -/
structure FieldPlan where
  /-- The name of the field. -/
  field : String
  /-- The category of its type. -/
  category : Category
  /-- How it is filled. -/
  strategy : Strategy
  /-- The statements that fill it. -/
  statements : List Statement
  /-- The check that it has been filled, if it is required. -/
  check : Option Statement
  deriving Repr, Inhabited

namespace FieldPlan

/-- The local variable that holds the text an object is built from. -/
def rawName : String := "res"

/-- Asks the registry: by the explicit key if there is one, else by the type. -/
def fromRegistry (property : Property) : List Statement :=
  let type := property.type.nonNull
  let value :=
    match property.request.key? with
    | none => .serviceByType type
    | some key => .serviceByName key type property.type.nullable
  [.assign property.name value]

/-- Reads a primitive.  A field that admits null has no default to pass, so it is read only
when the key is there. -/
def fromBundle (property : Property) (source : BundleSource) (getter : Getter) :
    List Statement :=
  let key := property.bundleKey
  let body :=
    if property.type.nullable then
      .ifThen (.containsKey key) [.assign property.name (.read getter key none)] none
    else .assign property.name (.read getter key (some property.name))
  [.whenPresent (.bundle source) [body]]

/-- Reads a string, with the present value of the field as the default. -/
def fromString (property : Property) (source : BundleSource) : List Statement :=
  [.whenPresent (.bundle source)
    [.assign property.name (.read .string property.bundleKey (some property.name))]]

/-- Reads an object of the declared type, and assigns it if it is there. -/
def fromCast (property : Property) (source : BundleSource) (kind : CastKind) : List Statement :=
  let type := property.type.nonNull
  let subject :=
    match kind with
    | .serializable => .readSerializable source property.bundleKey type
    | .parcelable => .readParcelable source property.bundleKey type
  [.whenPresent subject [.assign property.name .bound]]

/-- What is logged when no service can build the object. -/
def deserializerMissing (property : Property) (owner : Owner) : String :=
  "You want automatic inject the field '" ++ property.name ++ "' in class '" ++
    simpleName owner.name ++
    "', then you should implement 'SerializationService' to support object auto inject!"

/-- Reads a text and builds the object from it, if a service that can do so is there. -/
def fromText (property : Property) (source : BundleSource) (owner : Owner) : List Statement :=
  let build :=
    .whenPresent (.deserialize rawName property.type.nonNull) [.assign property.name .bound]
  [.ifThen .deserializerAvailable
    [.declare rawName (.readString source property.bundleKey),
     .ifThen (.notNullOrEmpty rawName) [build] none]
    (some [.log (deserializerMissing property owner)])]

/-- The check of a required field.  A primitive always holds a value, so it has none; a
missing service is fatal, a missing argument is only logged. -/
def checkFor (property : Property) (category : Category) (owner : Owner) : Option Statement :=
  if !property.request.required || category.isPrimitive then none
  else
    let failure :=
      if Strategy.ofCategory category = .provider then
        .fatal ("The field '" ++ property.name ++ "' is null, in class '" ++
          simpleName owner.name ++ "' !")
      else
        .diagnostic ("The field '" ++ property.name ++ "' in class '" ++
          simpleName owner.name ++ "' is null!")
    some (.require property.name failure)

/-- The statements of a strategy that needs an argument source. -/
def fromSource (property : Property) (source : BundleSource) (owner : Owner) :
    Strategy → List Statement
  | .provider => fromRegistry property
  | .primitive getter => fromBundle property source getter
  | .str => fromString property source
  | .cast kind => fromCast property source kind
  | .object => fromText property source owner

/-- The statements of a strategy that fill a property of the owner. -/
def statementsFor (property : Property) (strategy : Strategy) (owner : Owner) :
    Except Misuse (List Statement) :=
  match strategy, owner.role.source? with
  | .provider, _ => .ok (fromRegistry property)
  | strategy, some source => .ok (fromSource property source owner strategy)
  | _, none => .error (.unsupportedRole property owner)

/-- The plan for a property with statements of a strategy. -/
def ofStatements (property : Property) (category : Category) (strategy : Strategy) (owner : Owner)
    (statements : List Statement) : FieldPlan where
  field := property.name
  category
  strategy
  statements
  check := checkFor property category owner

/-- The plan for a property of the owner, or the problem with it. -/
def dispatch (property : Property) (category : Category) (owner : Owner) :
    Except Problem FieldPlan :=
  match Strategy.select? category with
  | none => .error (.noStrategy category property.name)
  | some strategy =>
      match statementsFor property strategy owner with
      | .error misuse => .error (.misuse misuse)
      | .ok statements => .ok (ofStatements property category strategy owner statements)

section

variable {property : Property} {category : Category} {owner : Owner}

theorem dispatch_eq_ok_iff {plan : FieldPlan} :
    dispatch property category owner = .ok plan ↔
      ∃ statements, statementsFor property (.ofCategory category) owner = .ok statements ∧
        plan = ofStatements property category (.ofCategory category) owner statements := by
  rw [dispatch, Strategy.select?_eq]
  dsimp only
  cases statementsFor property (.ofCategory category) owner with
  | error misuse => simp
  | ok statements => simp [eq_comm]

/-- Only a misuse stands in the way of a plan. -/
theorem dispatch_eq_error_iff {problem : Problem} :
    dispatch property category owner = .error problem ↔
      ∃ misuse, statementsFor property (.ofCategory category) owner = .error misuse ∧
        problem = .misuse misuse := by
  rw [dispatch, Strategy.select?_eq]
  dsimp only
  cases statementsFor property (.ofCategory category) owner with
  | error misuse => simp [eq_comm]
  | ok statements => simp

theorem isSome_misuse?_of_dispatch {problem : Problem}
    (h : dispatch property category owner = .error problem) : problem.misuse?.isSome := by
  obtain ⟨misuse, -, rfl⟩ := dispatch_eq_error_iff.mp h
  rfl

/-- The plan for a property of the owner, or the misuse in its way. -/
def make (property : Property) (category : Category) (owner : Owner) :
    Except Misuse FieldPlan :=
  match h : dispatch property category owner with
  | .error problem => .error (problem.misuse?.get (isSome_misuse?_of_dispatch h))
  | .ok plan => .ok plan

theorem make_eq_ok_iff {plan : FieldPlan} :
    make property category owner = .ok plan ↔ dispatch property category owner = .ok plan := by
  unfold make
  split
  · next problem h => simp [h]
  · next other h => simp [h]

/-- What stands in the way of a plan is what the look-up and the statements gave. -/
theorem make_eq_error_iff {misuse : Misuse} :
    make property category owner = .error misuse ↔
      dispatch property category owner = .error (.misuse misuse) := by
  unfold make
  split
  · next problem h =>
    obtain ⟨fault, -, rfl⟩ := dispatch_eq_error_iff.mp h
    simp [h, Problem.misuse?]
  · next plan h => simp [h]

end

end FieldPlan

end Wiring
