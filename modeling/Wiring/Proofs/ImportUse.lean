import Wiring.Proofs.FirstMisuse
import Wiring.Proofs.Identifiers

/-!
# Which imports a file uses

A file imports the recorded names that it writes short and does not see otherwise.  Nearly every
recorded name is written in the class below.  The exception is a service that is looked up by its
type: the names in the type arguments are recorded, but the class literal does not have them.  An
imported name among them is left unused, unless some other part of the class writes it.

## Main definitions

* `Property.LookedUpByType` — the property is filled by a class literal.
* `Property.writtenNames`, `writtenNames` — what a property and the class for an owner write.

## Main results

* `mem_mentionedNames_iff` — the names in a class can be read off the properties of its owner.
* `mem_unitNames_iff` — a name of the unit is written, or left out by a class literal.
* `imports_written_iff` — **when all imports are used.**
-/

namespace Wiring

/-! ### What properties write -/

/-- The property is a service that is looked up by its type, so a class literal names the type. -/
def Property.LookedUpByType (symbols : Symbols) (property : Property) : Prop :=
  Category.ofType symbols property.type = .provider ∧ property.request.key? = none

instance (symbols : Symbols) (property : Property) : Decidable (property.LookedUpByType symbols) :=
  inferInstanceAs (Decidable (_ ∧ _))

/-- What a property makes the class write: all that it needs, but for the type arguments that a
class literal leaves out. -/
def Property.writtenNames (symbols : Symbols) (property : Property) : List String :=
  if property.LookedUpByType symbols then [symbols.registry, property.type.name]
  else property.names symbols

/-- What the class for an owner and its properties writes. -/
def writtenNames (symbols : Symbols) (ownerName : String) (properties : List Property) :
    List String :=
  symbols.injectorInterface :: symbols.registry :: symbols.serializationService :: ownerName ::
    properties.flatMap (Property.writtenNames symbols)

section

variable {symbols : Symbols} {property : Property} {name : String}

/-- What a property needs is written, or left out by a class literal. -/
theorem Property.mem_names_iff :
    name ∈ property.names symbols ↔ name ∈ property.writtenNames symbols ∨
      (property.LookedUpByType symbols ∧ name ∈ DeclaredType.namesAll property.type.arguments) := by
  unfold writtenNames
  split
  · next hlooked =>
    have hneeded : property.names symbols = symbols.registry :: property.type.names := by
      unfold names fillNames checkNames
      have hprovider : Strategy.ofCategory .provider = .provider := rfl
      simp [hlooked.1, hprovider]
    rw [hneeded, List.mem_cons, DeclaredType.mem_names_iff, and_iff_right hlooked]
    simp [or_assoc]
  · next hlooked => simp [hlooked]

/-- A name of the unit is written, or left out by a class literal. -/
theorem mem_unitNames_iff {ownerName : String} {properties : List Property} :
    name ∈ unitNames symbols ownerName properties ↔
      name ∈ writtenNames symbols ownerName properties ∨
        ∃ property ∈ properties, property.LookedUpByType symbols ∧
          name ∈ DeclaredType.namesAll property.type.arguments := by
  unfold unitNames writtenNames
  simp only [List.mem_cons, List.mem_flatMap, Property.mem_names_iff, or_assoc, and_or_left,
    exists_or]

end

/-! ### What plans write -/

section

variable {settings : Settings} {owner : Owner} {property : Property} {plan : FieldPlan}
  {name : String}

/-- What statements need is written by them, or left out by their class literals. -/
theorem mem_neededNames_iff (symbols : Symbols) (statements : List Statement) :
    name ∈ neededNames symbols statements ↔
      name ∈ (preorderAll statements).flatMap (Statement.writtenNames symbols) ∨
        name ∈ (preorderAll statements).flatMap Statement.literalArguments := by
  unfold neededNames
  simp only [List.mem_flatMap, Statement.mem_recordedNames_iff, and_or_left, exists_or]

/-- A property that is not looked up by its type is filled without a class literal for it. -/
theorem literalArguments_fromSource (property : Property) (source : BundleSource) (owner : Owner)
    (strategy : Strategy) (hkey : strategy = .provider → property.request.key? ≠ none) :
    (preorderAll (FieldPlan.fromSource property source owner strategy)).flatMap
      Statement.literalArguments = [] := by
  unfold FieldPlan.fromSource
  cases strategy with
  | provider =>
    obtain ⟨key, hkey⟩ := Option.ne_none_iff_exists'.mp (hkey rfl)
    unfold FieldPlan.fromRegistry
    rw [hkey]
    rfl
  | primitive getter =>
    unfold FieldPlan.fromBundle
    cases property.type.nullable <;> rfl
  | str => rfl
  | cast kind => cases kind <;> rfl
  | object => rfl

/-- The plan for a property that is not looked up by its type has no class literal for it. -/
theorem literalArguments_ofField (h : Injector.planFor settings owner property = .ok plan)
    (hlooked : ¬ property.LookedUpByType settings.symbols) :
    (preorderAll (Injector.ofField plan)).flatMap Statement.literalArguments = [] := by
  obtain ⟨statements, hmade, hstatements⟩ := ofField_of_planFor h
  have hcheck : ∀ category,
      (preorderAll (FieldPlan.checkFor property category owner).toList).flatMap
        Statement.literalArguments = [] := by
    intro category
    unfold FieldPlan.checkFor
    split <;> rfl
  rw [hstatements, preorderAll_append, List.flatMap_append, hcheck, List.append_nil]
  rcases Runtime.statementsFor_eq_ok hmade with ⟨hprovider, rfl⟩ | ⟨source, -, hprovider, rfl⟩
  · exact literalArguments_fromSource property .arguments owner .provider
      fun _ hkey => hlooked ⟨hprovider, hkey⟩
  · exact literalArguments_fromSource property source owner _
      fun hstrategy => absurd (Strategy.ofCategory_eq_provider_iff.mp hstrategy) hprovider

/-- The plan for a property writes what the property does. -/
theorem mem_writtenNames_ofField (h : Injector.planFor settings owner property = .ok plan) :
    name ∈ (preorderAll (Injector.ofField plan)).flatMap
        (Statement.writtenNames settings.symbols) ↔
      name ∈ property.writtenNames settings.symbols := by
  by_cases hlooked : property.LookedUpByType settings.symbols
  · -- one class literal, and a check that ends the injection
    obtain ⟨statements, hmade, hstatements⟩ := ofField_of_planFor h
    have hfill : statements = [.assign property.name (.serviceByType property.type.nonNull)] := by
      rcases Runtime.statementsFor_eq_ok hmade with ⟨-, rfl⟩ | ⟨-, -, hprovider, -⟩
      · unfold FieldPlan.fromRegistry
        rw [hlooked.2]
      · exact absurd hlooked.1 hprovider
    have hcheck : (preorderAll (FieldPlan.checkFor property .provider owner).toList).flatMap
        (Statement.writtenNames settings.symbols) = [] := by
      unfold FieldPlan.checkFor
      split <;> rfl
    rw [hstatements, hlooked.1, preorderAll_append, List.flatMap_append, hcheck, List.append_nil,
      Property.writtenNames, if_pos hlooked, hfill]
    rfl
  · rw [Property.writtenNames, if_neg hlooked, ← mem_neededNames_ofField h, mem_neededNames_iff,
      literalArguments_ofField h hlooked, or_iff_left List.not_mem_nil]

end

/-! ### Whole injectors -/

section

variable {settings : Settings} {properties : List Property} {injectors : List Injector}
  {injector : Injector}

/-- The names in a class can be read off the properties of its owner. -/
theorem mem_mentionedNames_iff (h : injectorsOf settings properties = .ok injectors)
    (hmem : injector ∈ injectors) {name : String} :
    name ∈ Kotlin.mentionedNames settings injector ↔
      name ∈ writtenNames settings.symbols injector.owner.name
        (propertiesOf injector.owner.name properties) := by
  have hfields : name ∈ (preorderAll (injector.fields.flatMap Injector.ofField)).flatMap
        (Statement.writtenNames settings.symbols) ↔
      name ∈ (propertiesOf injector.owner.name properties).flatMap
        (Property.writtenNames settings.symbols) :=
    mem_flatMap_of_planned mem_writtenNames_ofField (planned_of_mem h hmem)
  have hprelude : (preorderAll (Injector.preludeFor injector.owner)).flatMap
      (Statement.writtenNames settings.symbols) = [settings.symbols.registry,
        settings.symbols.serializationService, injector.owner.name] := rfl
  rw [Kotlin.mentionedNames_eq, List.mem_cons, List.mem_cons,
    Kotlin.mem_namesInLines_statementLinesAll, Injector.statements, prelude_of_mem h hmem,
    preorderAll_append, List.flatMap_append, List.mem_append, hprelude, hfields, writtenNames]
  simp only [List.mem_cons, List.not_mem_nil, or_false]
  -- the frame and the prelude both have the service that builds objects
  grind

/-- **When all imports are used.**  A name is in a class below its imports exactly if it is one of
those that the owner's properties write.  An import is written there by its simple name, or it is in
the type arguments of a service that is looked up by its type; so all imports are used exactly if
each import among those arguments is written for some other reason. -/
theorem imports_written_iff (h : injectorsOf settings properties = .ok injectors)
    (hmem : injector ∈ injectors) :
    (SourceFile.ofInjector settings injector).code =
      Text.unlines ((Kotlin.injectorLines settings injector).map
        (Kotlin.Line.spell injector.simpleNames)) ++ "\n" ∧
    (∀ name, name ∈ Kotlin.mentionedNames settings injector ↔
      name ∈ writtenNames settings.symbols injector.owner.name
        (propertiesOf injector.owner.name properties)) ∧
    (∀ name ∈ injector.imports,
      Kotlin.spellName injector.simpleNames name = simpleName name ∧
      (name ∈ Kotlin.mentionedNames settings injector ∨
        ∃ property ∈ propertiesOf injector.owner.name properties,
          property.LookedUpByType settings.symbols ∧
            name ∈ DeclaredType.namesAll property.type.arguments)) ∧
    ((∀ name ∈ injector.imports, name ∈ Kotlin.mentionedNames settings injector) ↔
      ∀ property ∈ propertiesOf injector.owner.name properties,
        property.LookedUpByType settings.symbols →
        ∀ name ∈ DeclaredType.namesAll property.type.arguments, name ∈ injector.imports →
          name ∈ writtenNames settings.symbols injector.owner.name
            (propertiesOf injector.owner.name properties)) := by
  have hshort : ∀ name ∈ injector.imports, name ∈ injector.simpleNames := by
    intro name hname
    rw [eq_make_of_mem h hmem] at hname ⊢
    exact (Mentions.mem_imports.mp hname).1
  have himport : ∀ name ∈ injector.imports, name ∈ Kotlin.mentionedNames settings injector ∨
      ∃ property ∈ propertiesOf injector.owner.name properties,
        property.LookedUpByType settings.symbols ∧
          name ∈ DeclaredType.namesAll property.type.arguments := by
    intro name hname
    rw [mem_mentionedNames_iff h hmem]
    exact mem_unitNames_iff.mp (Kotlin.mem_unitNames_of_mem_imports h hmem hname)
  refine ⟨Kotlin.code_eq_spelled_lines settings injector, fun name => mem_mentionedNames_iff h hmem,
    fun name hname => ⟨Kotlin.spellName_of_mem (hshort name hname), himport name hname⟩, ?_⟩
  constructor
  · intro hall property _ _ name _ hname
    exact (mem_mentionedNames_iff h hmem).mp (hall name hname)
  · intro hliterals name hname
    rcases himport name hname with hwritten | ⟨property, hproperty, hlooked, hargument⟩
    · exact hwritten
    · exact (mem_mentionedNames_iff h hmem).mpr
        (hliterals property hproperty hlooked name hargument hname)

end

/-- A service of a screen whose type has a type argument. -/
def screenService (owner : String) (type : DeclaredType) : Property :=
  ⟨"repository", type, .visible, some ⟨owner, none, .screen, none⟩, .plain⟩

/-- The type argument of a service is imported and used, since another property is of that type. -/
theorem imports_written_shared_argument :
    ∃ injector,
      injectorsOf Kotlin.terseSettings
        [screenService "x.Main" ⟨"y.Repository", false, [.ofName "y.User"], ["r.Service"]⟩,
          Kotlin.screenModel "x.Main" (.ofName "y.User")] = .ok [injector] ∧
      injector ∈ [injector] ∧ "y.User" ∈ injector.imports ∧
      ∀ name ∈ injector.imports, name ∈ Kotlin.mentionedNames Kotlin.terseSettings injector := by
  have hmade : ∃ injector,
      injectorsOf Kotlin.terseSettings
        [screenService "x.Main" ⟨"y.Repository", false, [.ofName "y.User"], ["r.Service"]⟩,
          Kotlin.screenModel "x.Main" (.ofName "y.User")] = .ok [injector] ∧
      injector.owner.name = "x.Main" ∧ "y.User" ∈ injector.imports :=
    ⟨_, rfl, rfl, by decide +kernel⟩
  obtain ⟨injector, hmade, howner, himport⟩ := hmade
  refine ⟨injector, hmade, List.mem_cons_self, himport, ?_⟩
  refine (imports_written_iff hmade List.mem_cons_self).2.2.2.mpr ?_
  intro property hproperty hlooked name hname _
  rw [howner] at hproperty ⊢
  -- both properties have the owner, and only the first one is looked up by its type
  have hmem := (mem_propertiesOf.mp hproperty).1
  rw [List.mem_cons, List.mem_singleton] at hmem
  rcases hmem with rfl | rfl
  · obtain rfl : name = "y.User" := List.mem_singleton.mp hname
    decide +kernel
  · exact absurd hlooked (by decide +kernel)

/-- The type argument of a service that is looked up by its type is imported, and the class literal
does not have it. -/
theorem not_imports_written :
    ¬ ∀ settings properties injectors injector,
      injectorsOf settings properties = .ok injectors → injector ∈ injectors →
      ∀ name ∈ injector.imports, name ∈ Kotlin.mentionedNames settings injector := by
  intro hall
  have hmade : ∃ injector, injectorsOf {}
      [screenService "com.example.Main" ⟨"com.example.Repo", false, [.ofName "com.model.User"],
        ["com.alibaba.android.arouter.facade.template.IProvider"]⟩] = .ok [injector] ∧
      "com.model.User" ∈ injector.imports ∧
      "com.model.User" ∉ Kotlin.mentionedNames {} injector :=
    ⟨_, rfl, by decide +kernel, by rw [Kotlin.mentionedNames_eq]; decide +kernel⟩
  obtain ⟨injector, hmade, himport, hunused⟩ := hmade
  exact hunused (hall {} _ _ injector hmade List.mem_cons_self "com.model.User" himport)

end Wiring
