import Wiring.Proofs.Assembly
import Wiring.Proofs.Filling
import Wiring.Proofs.Recording

/-!
# The names of a unit

What the analysis records for an injector can be read off the properties of its owner.  Every
injector takes the registry, the service that builds objects, the interface and the owner; what a
property adds depends on its category.  A primitive adds nothing, a string at most the log, and all
others add the names in their types and some runtime symbols.

## Main definitions

* `Property.fillNames`, `Property.checkNames` — what filling and checking a property needs.
* `unitNames` — the names of the unit for an owner.

## Main results

* `mem_neededNames_ofField` — what the plan for a property needs.
* `mem_flatMap_of_planned` — what plans contribute is what their properties do.
* `mem_types_iff` — **the recorded names are the dotted names of the unit.**
-/

namespace Wiring

/-! ### What statements need -/

/-- The names in a value: those in its type, and the runtime symbol it needs. -/
def Expression.names (symbols : Symbols) (value : Expression) : List String :=
  value.type?.toList.flatMap DeclaredType.names ++ value.helperNames symbols

/-- The names that some statements and all statements inside them make the analysis record. -/
def neededNames (symbols : Symbols) (statements : List Statement) : List String :=
  (preorderAll statements).flatMap (Statement.recordedNames symbols)

theorem names_singleton (symbols : Symbols) (value : Expression) :
    ([value].filterMap Expression.type?).flatMap DeclaredType.names ++
      [value].flatMap (Expression.helperNames symbols) = value.names symbols := by
  unfold Expression.names
  rw [List.flatMap_singleton]
  cases h : value.type? with
  | none => rw [List.filterMap_cons_none h]; rfl
  | some type => rw [List.filterMap_cons_some h]; rfl

section

variable (symbols : Symbols) (rest : List Statement)

@[simp] theorem neededNames_nil : neededNames symbols [] = [] := rfl

theorem neededNames_append (first second : List Statement) :
    neededNames symbols (first ++ second) =
      neededNames symbols first ++ neededNames symbols second := by
  rw [neededNames, preorderAll_append, List.flatMap_append]
  rfl

theorem neededNames_cons (statement : Statement) :
    neededNames symbols (statement :: rest) =
      statement.preorder.flatMap (Statement.recordedNames symbols) ++ neededNames symbols rest := by
  rw [neededNames, preorderAll, List.flatMap_append]
  rfl

@[simp] theorem neededNames_resolveDeserializer :
    neededNames symbols (.resolveDeserializer :: rest) =
      symbols.registry :: symbols.serializationService :: neededNames symbols rest := rfl

@[simp] theorem neededNames_bindTarget (owner : DeclaredType) (message : String) :
    neededNames symbols (.bindTarget owner message :: rest) =
      owner.names ++ neededNames symbols rest := by
  rw [neededNames_cons, Statement.preorder, List.flatMap_singleton]
  simp [Statement.recordedNames, Statement.typeNames, Statement.helperNames,
    Statement.expressions]

@[simp] theorem neededNames_assign (field : String) (value : Expression) :
    neededNames symbols (.assign field value :: rest) =
      value.names symbols ++ neededNames symbols rest := by
  rw [neededNames_cons, Statement.preorder, List.flatMap_singleton, ← names_singleton]
  rfl

@[simp] theorem neededNames_declare (name : String) (value : Expression) :
    neededNames symbols (.declare name value :: rest) =
      value.names symbols ++ neededNames symbols rest := by
  rw [neededNames_cons, Statement.preorder, List.flatMap_singleton, ← names_singleton]
  rfl

@[simp] theorem neededNames_whenPresent (subject : Expression) (body : List Statement) :
    neededNames symbols (.whenPresent subject body :: rest) =
      subject.names symbols ++ neededNames symbols body ++ neededNames symbols rest := by
  rw [neededNames_cons, Statement.preorder, List.flatMap_cons, ← names_singleton]
  rfl

@[simp] theorem neededNames_ifThen (condition : Condition) (yes : List Statement)
    (no : Option (List Statement)) :
    neededNames symbols (.ifThen condition yes no :: rest) =
      neededNames symbols yes ++ neededNames symbols (no.getD []) ++ neededNames symbols rest := by
  rw [neededNames_cons, Statement.preorder, List.flatMap_cons, List.flatMap_append]
  cases no <;> rfl

@[simp] theorem neededNames_require (field : String) (failure : Failure) :
    neededNames symbols (.require field failure :: rest) =
      (match failure with
        | .fatal _ => []
        | .diagnostic _ => [symbols.logFacility]) ++ neededNames symbols rest := by
  cases failure <;> rfl

@[simp] theorem neededNames_log (message : String) :
    neededNames symbols (.log message :: rest) =
      symbols.logFacility :: neededNames symbols rest := rfl

end

/-! ### What properties need -/

namespace Property

/-- What filling a property needs, by the strategy. -/
def fillNames (symbols : Symbols) (property : Property) : Strategy → List String
  | .provider => symbols.registry :: property.type.names
  | .primitive _ => []
  | .str => []
  | .cast _ => property.type.names
  | .object => symbols.typeWrapper :: symbols.logFacility :: property.type.names

/-- What checking a property needs: a missing argument is logged, a missing service is not. -/
def checkNames (symbols : Symbols) (property : Property) (category : Category) : List String :=
  if property.request.required && !category.isPrimitive && category ≠ .provider then
    [symbols.logFacility]
  else []

/-- What a property needs. -/
def names (symbols : Symbols) (property : Property) : List String :=
  let category := Category.ofType symbols property.type
  property.fillNames symbols (.ofCategory category) ++ property.checkNames symbols category

end Property

/-- The names of the unit for an owner and its properties. -/
def unitNames (symbols : Symbols) (ownerName : String) (properties : List Property) :
    List String :=
  symbols.injectorInterface :: symbols.registry :: symbols.serializationService :: ownerName ::
    properties.flatMap (Property.names symbols)

section

variable {symbols : Symbols} {property : Property} {owner : Owner} {name : String}

/-- However a property is filled, its strategy says what that needs. -/
theorem mem_neededNames_fromSource (source : BundleSource) (strategy : Strategy) :
    name ∈ neededNames symbols (FieldPlan.fromSource property source owner strategy) ↔
      name ∈ property.fillNames symbols strategy := by
  unfold Property.fillNames FieldPlan.fromSource
  cases strategy with
  | provider =>
    unfold FieldPlan.fromRegistry
    cases property.request.key? <;>
      simp [Expression.names, Expression.type?, Expression.helperNames, or_comm]
  | primitive getter =>
    unfold FieldPlan.fromBundle
    cases property.type.nullable <;>
      simp [Expression.names, Expression.type?, Expression.helperNames]
  | str => simp [FieldPlan.fromString, Expression.names, Expression.type?, Expression.helperNames]
  | cast kind =>
    unfold FieldPlan.fromCast
    cases kind <;> simp [Expression.names, Expression.type?, Expression.helperNames]
  | object =>
    -- the type comes from the branch with the service, the log from the one without
    have hneeded : name ∈ neededNames symbols (FieldPlan.fromText property source owner) ↔
        name ∈ property.type.names ∨ name = symbols.typeWrapper ∨ name = symbols.logFacility := by
      simp [FieldPlan.fromText, Expression.names, Expression.type?, Expression.helperNames]
    rw [hneeded, List.mem_cons, List.mem_cons]
    exact or_comm.trans or_assoc

theorem neededNames_checkFor (category : Category) :
    neededNames symbols (FieldPlan.checkFor property category owner).toList =
      property.checkNames symbols category := by
  unfold FieldPlan.checkFor Property.checkNames
  cases hrequired : property.request.required with
  | false => rfl
  | true => cases category <;> rfl

/-- The statements of a plan are those that fill the property, and its check. -/
theorem ofField_of_planFor {settings : Settings} {plan : FieldPlan}
    (h : Injector.planFor settings owner property = .ok plan) :
    ∃ statements, FieldPlan.statementsFor property
        (.ofCategory (Category.ofType settings.symbols property.type)) owner = .ok statements ∧
      Injector.ofField plan = statements ++
        (FieldPlan.checkFor property (Category.ofType settings.symbols property.type)
          owner).toList := by
  obtain ⟨statements, hmade, rfl⟩ := Injector.planFor_eq_ok_iff.mp h
  exact ⟨statements, hmade, rfl⟩

/-- What the plan for a property needs depends on the property alone. -/
theorem mem_neededNames_ofField {settings : Settings} {plan : FieldPlan}
    (h : Injector.planFor settings owner property = .ok plan) :
    name ∈ neededNames settings.symbols (Injector.ofField plan) ↔
      name ∈ property.names settings.symbols := by
  obtain ⟨statements, hmade, hstatements⟩ := ofField_of_planFor h
  unfold Property.names
  rw [hstatements, neededNames_append, List.mem_append, List.mem_append, neededNames_checkFor]
  refine or_congr_left ?_
  rcases Runtime.statementsFor_eq_ok hmade with ⟨hprovider, rfl⟩ | ⟨source, -, -, rfl⟩
  · -- the registry needs no source
    have hfill : name ∈ neededNames settings.symbols
        (FieldPlan.fromSource property .arguments owner .provider) ↔
        name ∈ property.fillNames settings.symbols .provider := mem_neededNames_fromSource _ _
    rw [hprovider]
    exact hfill
  · exact mem_neededNames_fromSource source _

/-- What single statements contribute to the plans of some properties is what the properties do, if
that is so for each property and its plan. -/
theorem mem_flatMap_of_planned {settings : Settings} {properties : List Property}
    {plans : List FieldPlan} {ofStatement : Statement → List String}
    {ofProperty : Property → List String}
    (hplan : ∀ {property plan}, Injector.planFor settings owner property = .ok plan →
      (name ∈ (preorderAll (Injector.ofField plan)).flatMap ofStatement ↔
        name ∈ ofProperty property))
    (h : Planned settings owner properties plans) :
    name ∈ (preorderAll (plans.flatMap Injector.ofField)).flatMap ofStatement ↔
      name ∈ properties.flatMap ofProperty := by
  induction h with
  | nil => exact Iff.rfl
  | cons hfirst _ ih =>
    rw [List.flatMap_cons, List.flatMap_cons, preorderAll_append, List.flatMap_append,
      List.mem_append, List.mem_append, hplan hfirst, ih]

end

/-! ### What an injector records -/

theorem neededNames_preludeFor (symbols : Symbols) (owner : Owner) :
    neededNames symbols (Injector.preludeFor owner) =
      [symbols.registry, symbols.serializationService, owner.name] := rfl

section

variable {settings : Settings} {properties : List Property} {injectors : List Injector}
  {injector : Injector} {name : String}

/-- The statements of an injector need what its prelude and the properties of its owner do. -/
theorem mem_neededNames_statements (h : injectorsOf settings properties = .ok injectors)
    (hmem : injector ∈ injectors) :
    name ∈ neededNames settings.symbols injector.statements ↔
      name ∈ settings.symbols.registry :: settings.symbols.serializationService ::
        injector.owner.name :: (propertiesOf injector.owner.name properties).flatMap
          (Property.names settings.symbols) := by
  have hfields : name ∈ neededNames settings.symbols (injector.fields.flatMap Injector.ofField) ↔
      name ∈ (propertiesOf injector.owner.name properties).flatMap
        (Property.names settings.symbols) :=
    mem_flatMap_of_planned mem_neededNames_ofField (planned_of_mem h hmem)
  rw [Injector.statements, prelude_of_mem h hmem, neededNames_append, List.mem_append, hfields,
    neededNames_preludeFor, ← List.mem_append]
  rfl

/-- **The recorded names are the dotted names of the unit.** -/
theorem mem_types_iff (h : injectorsOf settings properties = .ok injectors)
    (hmem : injector ∈ injectors) :
    name ∈ (Injector.mentions settings.symbols injector.owner injector.fields).types ↔
      isDotted name = true ∧ name ∈ unitNames settings.symbols injector.owner.name
        (propertiesOf injector.owner.name properties) := by
  have hneeded : (∃ statement ∈ preorderAll injector.statements,
      name ∈ statement.recordedNames settings.symbols) ↔
      name ∈ neededNames settings.symbols injector.statements := List.mem_flatMap.symm
  rw [mem_types_mentions, ← prelude_of_mem h hmem, ← Injector.statements, hneeded,
    mem_neededNames_statements h hmem, unitNames, ← List.mem_cons]

end

end Wiring
