import Wiring.FieldPlan
import Wiring.Mentions

/-!
# Injectors

An injector is the generated class that fills the properties of one owner: statements that
run before any field is touched, then the plan of each field, and the names the written class
may spell short or has to import.

## Main definitions

* `OwnerGroup`, `groupByOwner` — the properties of each owner, in order of first appearance.
* `Injector` — a generated class, ready to be written.
* `Injector.make` — the injector of an owner from the plans of its fields.
* `injectorsOf` — the injectors for a list of properties.
-/

namespace Wiring

/-! ### Groups -/

/-- All injected properties of one owner, in order. -/
structure OwnerGroup where
  /-- The owner, as its first property gives it. -/
  owner : Owner
  /-- The properties. -/
  properties : List Property
  deriving Repr, Inhabited

/-- Puts a property into the group of its owner, or opens a new group at the end. -/
def addToGroup (property : Property) (owner : Owner) : List OwnerGroup → List OwnerGroup
  | [] => [⟨owner, [property]⟩]
  | group :: rest =>
      if group.owner.name = owner.name then
        { group with properties := group.properties ++ [property] } :: rest
      else group :: addToGroup property owner rest

/-- The owner of a property that may be injected.  A property without owner is refused, and so
is a private one. -/
def eligibleOwner (property : Property) : Except Misuse Owner :=
  match property.owner with
  | none => .error (.missingOwner property)
  | some owner =>
      if property.visibility = .privateOnly then .error (.privateField property owner)
      else .ok owner

/-- Adds properties to groups, up to the first that may not be injected. -/
def groupInto (groups : List OwnerGroup) : List Property → Except Misuse (List OwnerGroup)
  | [] => .ok groups
  | property :: rest =>
      match eligibleOwner property with
      | .error misuse => .error misuse
      | .ok owner => groupInto (addToGroup property owner groups) rest

/-- The properties of each owner.  Owners are told apart by their qualified names and come in
order of first appearance; the properties of an owner keep their order. -/
def groupByOwner (properties : List Property) : Except Misuse (List OwnerGroup) :=
  groupInto [] properties

/-! ### Injectors -/

/-- A generated class, ready to be written. -/
structure Injector where
  /-- The owner whose properties it fills. -/
  owner : Owner
  /-- The simple name of the generated class. -/
  className : String
  /-- What runs before any field is touched. -/
  prelude : List Statement
  /-- The plans of the fields, in order. -/
  fields : List FieldPlan
  /-- The names the written class imports. -/
  imports : NameSet
  /-- The names the written class spells short, imports included. -/
  simpleNames : NameSet

namespace Injector

/-- The qualified name of the generated class. -/
def qualifiedName (injector : Injector) : String :=
  let package := injector.owner.package
  if package = "" then injector.className else package ++ "." ++ injector.className

/-- The statements of a field and its check. -/
def ofField (plan : FieldPlan) : List Statement := plan.statements ++ plan.check.toList

/-- All statements, in the order in which they run. -/
def statements (injector : Injector) : List Statement :=
  injector.prelude ++ injector.fields.flatMap ofField

/-- The checks of the required fields. -/
def checks (injector : Injector) : List Statement := injector.fields.filterMap FieldPlan.check

/-- The message for a target that is not of the owner's type. -/
def wrongTarget (owner : Owner) : String :=
  "The target that needs to be injected must be " ++ simpleName owner.name ++
    ", please check your code!"

/-- What runs before any field is touched: the service that builds objects is looked up and the
target is cast to the owner's type. -/
def preludeFor (owner : Owner) : List Statement :=
  [.resolveDeserializer, .bindTarget owner.asType (wrongTarget owner)]

/-- What the prelude, the plans and the frame of the class mention. -/
def mentions (symbols : Symbols) (owner : Owner) (fields : List FieldPlan) : Mentions :=
  let visitors := standardVisitors symbols
  let start := Mentions.ofStatements visitors .none (preludeFor owner)
  let all := fields.foldl (fun m plan =>
    let filled := Mentions.ofStatements visitors m plan.statements
    match plan.check with
    | some check => Mentions.ofStatements visitors filled [check]
    | none => filled) start
  all.note symbols.injectorInterface

/-- The injector of an owner from the plans of its fields. -/
def make (settings : Settings) (owner : Owner) (fields : List FieldPlan) : Injector :=
  let mentions := mentions settings.symbols owner fields
  { owner
    className := simpleName owner.name ++ settings.naming.suffix
    prelude := preludeFor owner
    fields
    imports := mentions.imports owner.package
    simpleNames := mentions.simpleNames owner.package }

/-- The plan for a property of the owner, by the category of its type. -/
def planFor (settings : Settings) (owner : Owner) (property : Property) :
    Except Misuse FieldPlan :=
  FieldPlan.make property (Category.ofType settings.symbols property.type) owner

theorem planFor_eq_ok_iff {settings : Settings} {owner : Owner} {property : Property}
    {plan : FieldPlan} :
    planFor settings owner property = .ok plan ↔
      ∃ statements, FieldPlan.statementsFor property
          (.ofCategory (Category.ofType settings.symbols property.type)) owner = .ok statements ∧
        plan = .ofStatements property (Category.ofType settings.symbols property.type)
          (.ofCategory (Category.ofType settings.symbols property.type)) owner statements :=
  FieldPlan.make_eq_ok_iff.trans FieldPlan.dispatch_eq_ok_iff

/-- The injector of a group. -/
def ofGroup (settings : Settings) (group : OwnerGroup) : Except Misuse Injector :=
  match group.properties.mapM (planFor settings group.owner) with
  | .error misuse => .error misuse
  | .ok fields => .ok (make settings group.owner fields)

end Injector

/-- The injectors for a list of properties, one for each owner. -/
def injectorsOf (settings : Settings) (properties : List Property) :
    Except Misuse (List Injector) :=
  match groupByOwner properties with
  | .error misuse => .error misuse
  | .ok groups => groups.mapM (Injector.ofGroup settings)

end Wiring
