import Wiring.Proofs.OwnerFiles

/-!
# Which misuse ends a pass

A pass looks at its properties twice.  Grouping goes through them in the order in which they are
given and refuses the first one that may not be injected.  Only if there is none are the groups
planned, one owner after the other, and the first property that needs arguments its owner does not
receive is the fault.  So a refused property wins over a starved one, wherever the two stand, and
the role that counts is the one that the first property of an owner gives.

## Main definitions

* `Refused` — what is wrong with a property that may not be injected.
* `Starved` — the property needs arguments, and its owner receives none.
* `FirstMisuse` — the misuse that ends a pass.

## Main results

* `groupByOwner_eq_error_iff`, `ofGroup_eq_error_iff` — the fault of each of the two passes.
* `injectorsOf_outcome` — **when a pass fails, with which misuse, and what it gives otherwise.**
-/

namespace Wiring

/-! ### Refused properties -/

/-- What is wrong with a property that may not be injected.  A missing owner comes first, so a
private property outside a class body is told to move into one. -/
inductive Refused (property : Property) : Misuse → Prop where
  /-- It has no owner. -/
  | orphan (howner : property.owner = none) : Refused property (.missingOwner property)
  /-- It has an owner and is private. -/
  | hidden {owner : Owner} (howner : property.owner = some owner)
      (hprivate : property.visibility = .privateOnly) :
      Refused property (.privateField property owner)

/-- Its kind, and whom it names: a missing owner comes before a private field. -/
theorem Refused.told {property : Property} {misuse : Misuse} (h : Refused property misuse) :
    misuse.kind = (if property.owner.isNone then .missingOwner else .privateField) ∧
      misuse.field = property.name ∧ misuse.owner = property.owner.map Owner.name ∧
      misuse.sourceFile = property.owner.bind Owner.sourceFile := by
  cases h with
  | orphan howner =>
    rw [howner]
    exact ⟨rfl, rfl, rfl, rfl⟩
  | hidden howner hprivate =>
    rw [howner]
    exact ⟨rfl, rfl, rfl, rfl⟩

theorem eligibleOwner_eq_error_iff {property : Property} {misuse : Misuse} :
    eligibleOwner property = .error misuse ↔ Refused property misuse := by
  unfold eligibleOwner
  constructor
  · intro h
    cases howner : property.owner with
    | none =>
      rw [howner] at h
      obtain rfl := Except.error.inj h
      exact .orphan howner
    | some owner =>
      rw [howner] at h
      dsimp only at h
      split at h
      · obtain rfl := Except.error.inj h
        exact .hidden howner ‹_›
      · cases h
  · rintro (howner | ⟨howner, hprivate⟩)
    · rw [howner]
    · rw [howner]
      exact if_pos hprivate

/-- A property is refused exactly if it is not eligible. -/
theorem not_eligible_iff {property : Property} :
    ¬ property.Eligible ↔ ∃ misuse, eligibleOwner property = .error misuse := by
  rw [eligible_iff]
  cases eligibleOwner property with
  | error misuse => simp
  | ok owner => simp

/-- Grouping fails at the first property that is refused, as that one is. -/
theorem groupInto_eq_error_iff {groups : List OwnerGroup} {properties : List Property}
    {misuse : Misuse} :
    groupInto groups properties = .error misuse ↔
      ∃ property, FirstWith (fun property => ¬ property.Eligible) properties property ∧
        Refused property misuse := by
  induction properties generalizing groups with
  | nil => simp only [groupInto, reduceCtorEq, not_firstWith_nil, false_and, exists_false]
  | cons first rest ih =>
    rw [groupInto]
    simp only [firstWith_cons, not_eligible_iff, ← eligibleOwner_eq_error_iff] at ih ⊢
    cases hfirst : eligibleOwner first with
    | error fault =>
      constructor
      · intro h
        obtain rfl : fault = misuse := Except.error.inj h
        exact ⟨first, .inl ⟨⟨fault, rfl⟩, rfl⟩, hfirst⟩
      · rintro ⟨property, ⟨-, rfl⟩ | ⟨hnone, -⟩, hproperty⟩
        · obtain rfl : fault = misuse := Except.error.inj (hfirst.symm.trans hproperty)
          rfl
        · exact absurd ⟨fault, rfl⟩ hnone
    | ok owner =>
      refine ih.trans (exists_congr fun property => and_congr_left fun _ => ?_)
      simp

theorem groupByOwner_eq_error_iff {properties : List Property} {misuse : Misuse} :
    groupByOwner properties = .error misuse ↔
      ∃ property, FirstWith (fun property => ¬ property.Eligible) properties property ∧
        Refused property misuse :=
  groupInto_eq_error_iff

/-! ### Starved properties -/

/-- The property needs arguments, since no service of the registry fills it, and its owner receives
none. -/
def Starved (settings : Settings) (owner : Owner) (property : Property) : Prop :=
  Category.ofType settings.symbols property.type ≠ .provider ∧
    owner.role ≠ .screen ∧ owner.role ≠ .fragment

theorem source?_eq_none_iff {role : Role} :
    role.source? = none ↔ role ≠ .screen ∧ role ≠ .fragment := by
  cases role <;> decide

/-- There are no statements exactly if a service does not do and there is no source. -/
theorem statementsFor_eq_error_iff {property : Property} {strategy : Strategy} {owner : Owner}
    {misuse : Misuse} :
    FieldPlan.statementsFor property strategy owner = .error misuse ↔
      strategy ≠ .provider ∧ owner.role.source? = none ∧
        misuse = .unsupportedRole property owner := by
  unfold FieldPlan.statementsFor
  cases owner.role.source? with
  | none => cases strategy <;> simp [eq_comm]
  | some source => cases strategy <;> simp

/-- There is no plan for a property exactly if it is starved. -/
theorem planFor_eq_error_iff {settings : Settings} {owner : Owner} {property : Property}
    {misuse : Misuse} :
    Injector.planFor settings owner property = .error misuse ↔
      Starved settings owner property ∧ misuse = .unsupportedRole property owner := by
  rw [Injector.planFor, FieldPlan.make_eq_error_iff, FieldPlan.dispatch_eq_error_iff, Starved,
    ← source?_eq_none_iff, Ne, ← Strategy.ofCategory_eq_provider_iff, and_assoc,
    ← statementsFor_eq_error_iff]
  simp

/-- A plan has the name of its property and the category of its type. -/
theorem named_of_planFor {settings : Settings} {owner : Owner} {property : Property}
    {plan : FieldPlan} (h : Injector.planFor settings owner property = .ok plan) :
    plan.field = property.name ∧
      plan.category = Category.ofType settings.symbols property.type := by
  obtain ⟨statements, -, rfl⟩ := Injector.planFor_eq_ok_iff.mp h
  exact ⟨rfl, rfl⟩

/-- A group has no injector exactly if one of its properties is starved, and the first of them is
the fault. -/
theorem ofGroup_eq_error_iff {settings : Settings} {group : OwnerGroup} {misuse : Misuse} :
    Injector.ofGroup settings group = .error misuse ↔
      ∃ property, FirstWith (Starved settings group.owner) group.properties property ∧
        misuse = .unsupportedRole property group.owner := by
  have hstarved : ∀ property, (∃ misuse, Injector.planFor settings group.owner property =
      .error misuse) ↔ Starved settings group.owner property := by
    intro property
    simp only [planFor_eq_error_iff, exists_and_left, exists_eq, and_true]
  have hplans : Injector.ofGroup settings group = .error misuse ↔
      group.properties.mapM (Injector.planFor settings group.owner) = .error misuse := by
    unfold Injector.ofGroup
    cases group.properties.mapM (Injector.planFor settings group.owner) with
    | error fault => simp
    | ok fields => simp
  rw [hplans, mapM_eq_error_iff]
  simp only [hstarved]
  refine exists_congr fun property => and_congr_right fun hfirst => ?_
  rw [planFor_eq_error_iff, and_iff_right hfirst.prop]

theorem exists_ofGroup_eq_error_iff {settings : Settings} {group : OwnerGroup} :
    (∃ misuse, Injector.ofGroup settings group = .error misuse) ↔
      ∃ property ∈ group.properties, Starved settings group.owner property := by
  simp only [ofGroup_eq_error_iff]
  constructor
  · rintro ⟨-, property, hfirst, -⟩
    exact ⟨property, hfirst.mem, hfirst.prop⟩
  · intro h
    obtain ⟨property, hfirst⟩ := exists_firstWith h
    exact ⟨_, property, hfirst, rfl⟩

/-! ### The misuse that ends a pass -/

/-- The properties of the owner among which one is starved. -/
def Owner.Starves (settings : Settings) (properties : List Property) (owner : Owner) : Prop :=
  ∃ property ∈ propertiesOf owner.name properties, Starved settings owner property

/-- The misuse that ends a pass over some properties. -/
inductive FirstMisuse (settings : Settings) (properties : List Property) : Misuse → Prop where
  /-- The first property in the list that may not be injected is refused. -/
  | refused {property : Property} {misuse : Misuse}
      (hfirst : FirstWith (fun property => ¬ property.Eligible) properties property)
      (hrefused : Refused property misuse) : FirstMisuse settings properties misuse
  /-- All properties may be injected; of the first owner that has starved properties, the first
  such property is the fault. -/
  | starved {owner : Owner} {property : Property}
      (heligible : ∀ property ∈ properties, property.Eligible)
      (howner : FirstWith (Owner.Starves settings properties) (ownersOf properties) owner)
      (hfirst : FirstWith (Starved settings owner) (propertiesOf owner.name properties) property) :
      FirstMisuse settings properties (.unsupportedRole property owner)

/-- Planning the groups of a list of properties fails at the first owner with a starved property. -/
theorem mapM_ofGroup_eq_error_iff {settings : Settings} {properties : List Property}
    {groups : List OwnerGroup} (h : Grouped properties groups) {misuse : Misuse} :
    groups.mapM (Injector.ofGroup settings) = .error misuse ↔
      ∃ owner property, FirstWith (Owner.Starves settings properties) (ownersOf properties) owner ∧
        FirstWith (Starved settings owner) (propertiesOf owner.name properties) property ∧
        misuse = .unsupportedRole property owner := by
  have hstarves : ∀ group ∈ groups, (∃ misuse, Injector.ofGroup settings group = .error misuse) ↔
      group.owner.Starves settings properties := by
    intro group hmem
    rw [exists_ofGroup_eq_error_iff, h.members group hmem]
    rfl
  rw [mapM_eq_error_iff, ← map_owner_groups h]
  simp only [firstWith_map]
  constructor
  · rintro ⟨group, hgroup, hfault⟩
    obtain ⟨property, hproperty, rfl⟩ := ofGroup_eq_error_iff.mp hfault
    rw [h.members group hgroup.mem] at hproperty
    exact ⟨group.owner, property, ⟨group, (firstWith_congr hstarves).mp hgroup, rfl⟩, hproperty,
      rfl⟩
  · rintro ⟨-, property, ⟨group, hgroup, rfl⟩, hproperty, rfl⟩
    refine ⟨group, (firstWith_congr hstarves).mpr hgroup, ?_⟩
    rw [← h.members group hgroup.mem] at hproperty
    exact ofGroup_eq_error_iff.mpr ⟨property, hproperty, rfl⟩

/-- A pass fails with the first misuse, and with no other. -/
theorem injectorsOf_eq_error_iff {settings : Settings} {properties : List Property}
    {misuse : Misuse} :
    injectorsOf settings properties = .error misuse ↔ FirstMisuse settings properties misuse := by
  unfold injectorsOf
  cases hgroups : groupByOwner properties with
  | error fault =>
    have hrefused := groupByOwner_eq_error_iff.mp hgroups
    constructor
    · intro h
      obtain rfl := Except.error.inj h
      obtain ⟨property, hfirst, hrefused⟩ := hrefused
      exact .refused hfirst hrefused
    · rintro (⟨hfirst, hmisuse⟩ | ⟨heligible, -, -⟩)
      · have hagain := groupByOwner_eq_error_iff.mpr ⟨_, hfirst, hmisuse⟩
        rw [Except.error.inj (hgroups.symm.trans hagain)]
      · -- grouping would have succeeded
        obtain ⟨groups, hok⟩ := groupByOwner_ok_iff.mpr heligible
        rw [hok] at hgroups
        cases hgroups
  | ok groups =>
    have heligible := groupByOwner_ok_iff.mp ⟨groups, hgroups⟩
    dsimp only
    rw [mapM_ofGroup_eq_error_iff (grouped_groupByOwner hgroups)]
    constructor
    · rintro ⟨owner, property, howner, hfirst, rfl⟩
      exact .starved heligible howner hfirst
    · rintro (⟨hfirst, -⟩ | ⟨-, howner, hfirst⟩)
      · exact absurd (heligible _ hfirst.mem) hfirst.prop
      · exact ⟨_, _, howner, hfirst, rfl⟩

/-- There is a misuse exactly if some property is refused, or none is and some owner starves one of
its properties. -/
theorem exists_firstMisuse_iff {settings : Settings} {properties : List Property} :
    (∃ misuse, FirstMisuse settings properties misuse) ↔
      (∃ property ∈ properties, ¬ property.Eligible) ∨
        ((∀ property ∈ properties, property.Eligible) ∧
          ∃ owner ∈ ownersOf properties, owner.Starves settings properties) := by
  constructor
  · rintro ⟨-, ⟨hfirst, -⟩ | ⟨heligible, howner, -⟩⟩
    · exact .inl ⟨_, hfirst.mem, hfirst.prop⟩
    · exact .inr ⟨heligible, _, howner.mem, howner.prop⟩
  · rintro (hrefused | ⟨heligible, hstarves⟩)
    · obtain ⟨property, hfirst⟩ := exists_firstWith hrefused
      obtain ⟨misuse, hmisuse⟩ := not_eligible_iff.mp hfirst.prop
      exact ⟨misuse, .refused hfirst (eligibleOwner_eq_error_iff.mp hmisuse)⟩
    · obtain ⟨owner, howner⟩ := exists_firstWith hstarves
      obtain ⟨property, hfirst⟩ := exists_firstWith howner.prop
      exact ⟨_, .starved heligible howner hfirst⟩

/-- **When a pass fails, with which misuse, and what it gives otherwise.**  It fails exactly if a
property is refused, or none is and an owner of a role without arguments has a property that needs
some.  The fault is the first refused property of the whole list, which has no owner or else is
private; or else the first starved property of the first owner that has one, whose role does not
do.  Its owner and the file of its owner are named where there is one.  No category is without a
strategy, so what stands in the way of a plan is a misuse and no other problem.  A pass that succeeds gives one injector for each owner, in order of first appearance,
with one plan for each of the owner's properties, in order. -/
theorem injectorsOf_outcome (settings : Settings) (properties : List Property) :
    ((∃ misuse, injectorsOf settings properties = .error misuse) ↔
      (∃ property ∈ properties, ¬ property.Eligible) ∨
        ((∀ property ∈ properties, property.Eligible) ∧
          ∃ owner ∈ ownersOf properties, owner.Starves settings properties)) ∧
    (∀ misuse, injectorsOf settings properties = .error misuse ↔
      FirstMisuse settings properties misuse) ∧
    (∀ misuse, injectorsOf settings properties = .error misuse →
      (∃ property, FirstWith (fun property => ¬ property.Eligible) properties property ∧
        misuse.kind = (if property.owner.isNone then .missingOwner else .privateField) ∧
        misuse.field = property.name ∧ misuse.owner = property.owner.map Owner.name ∧
        misuse.sourceFile = property.owner.bind Owner.sourceFile) ∨
      ((∀ property ∈ properties, property.Eligible) ∧
        ∃ owner property,
          FirstWith (Owner.Starves settings properties) (ownersOf properties) owner ∧
          FirstWith (Starved settings owner) (propertiesOf owner.name properties) property ∧
          misuse.kind = .unsupportedRole ∧ misuse.field = property.name ∧
          misuse.owner = some owner.name ∧ misuse.sourceFile = owner.sourceFile)) ∧
    (∀ property ∈ properties,
      (∃ strategy,
        Strategy.select? (Category.ofType settings.symbols property.type) = some strategy) ∧
      ∀ owner problem, FieldPlan.dispatch property
          (Category.ofType settings.symbols property.type) owner = .error problem →
        (∀ category field, problem ≠ .noStrategy category field) ∧
        ∃ misuse, problem = .misuse misuse ∧
          Injector.planFor settings owner property = .error misuse) ∧
    (∀ category field, filesOf settings (.properties properties) ≠
      .error (.noStrategy category field)) ∧
    (∀ injectors, injectorsOf settings properties = .ok injectors →
      injectors.map Injector.owner = ownersOf properties ∧
      injectors.map (fun injector => injector.owner.name) = ownerNames properties ∧
      (ownerNames properties).Nodup ∧
      ∀ injector ∈ injectors,
        List.Forall₂ (fun property plan => plan.field = property.name ∧
            plan.category = Category.ofType settings.symbols property.type ∧
            Injector.planFor settings injector.owner property = .ok plan)
          (propertiesOf injector.owner.name properties) injector.fields) := by
  refine ⟨?_, fun misuse => injectorsOf_eq_error_iff, ?_, ?_, ?_, ?_⟩
  · simp only [injectorsOf_eq_error_iff]
    exact exists_firstMisuse_iff
  · intro misuse hmisuse
    rcases injectorsOf_eq_error_iff.mp hmisuse with ⟨hfirst, hrefused⟩ | ⟨heligible, howner, hfirst⟩
    · exact .inl ⟨_, hfirst, hrefused.told⟩
    · exact .inr ⟨heligible, _, _, howner, hfirst, rfl, rfl, rfl, rfl⟩
  · refine fun property _ => ⟨⟨_, Strategy.select?_eq _⟩, fun owner problem hproblem => ?_⟩
    obtain ⟨misuse, -, rfl⟩ := FieldPlan.dispatch_eq_error_iff.mp hproblem
    refine ⟨fun category field h => ?_, misuse, rfl, FieldPlan.make_eq_error_iff.mpr hproblem⟩
    cases h
  · intro category field h
    rw [filesOf, PropertySource.discover] at h
    dsimp only at h
    split at h <;> cases h
  · intro injectors hinjectors
    obtain ⟨groups, hgroups, -⟩ := injectorsOf_eq_ok_iff.mp hinjectors
    have hgrouped := grouped_groupByOwner hgroups
    have howners := map_owner_injectorsOf hinjectors
    have hnames : injectors.map (fun injector => injector.owner.name) = ownerNames properties := by
      rw [← hgrouped.names, ← Function.comp_def Owner.name Injector.owner, ← List.map_map, howners,
        ← map_owner_groups hgrouped, List.map_map]
      rfl
    refine ⟨howners, hnames, nodup_ownerNames properties, fun injector hmem => ?_⟩
    refine (planned_of_mem hinjectors hmem).imp fun property plan hplan => ?_
    obtain ⟨hfield, hcategory⟩ := named_of_planFor hplan
    exact ⟨hfield, hcategory, hplan⟩

/-- A property of a type without arguments and supertypes. -/
def plainField (name type : String) (visibility : Visibility) (owner : Option Owner) : Property :=
  ⟨name, .ofName type, visibility, owner, .plain⟩

/-- A screen. -/
def mainScreen : Owner := ⟨"x.Main", none, .screen, some "Main.kt"⟩

/-- A class that receives no arguments. -/
def syncJob : Owner := ⟨"x.Sync", none, .serviceConsumer, some "Sync.kt"⟩

/-- A private property between one that is starved and one without owner. -/
def hiddenToken : List Property :=
  [plainField "size" "kotlin.Int" .visible syncJob,
    plainField "id" "kotlin.Int" .visible mainScreen,
    plainField "token" "kotlin.String" .privateOnly mainScreen,
    plainField "lost" "kotlin.Int" .visible none]

/-- Two classes in turn.  The first one is met by a service, which is not starved, and is said to
be a screen only later on. -/
def jobsInTurn : List Property :=
  [⟨"api", ⟨"x.Api", false, [], [({} : Symbols).providerCapability]⟩, .visible, syncJob, .plain⟩,
    plainField "count" "kotlin.Int" .visible (some ⟨"x.Upload", none, .unknown, none⟩),
    plainField "size" "kotlin.Int" .visible (some ⟨"x.Sync", none, .screen, none⟩),
    plainField "rest" "kotlin.Int" .visible syncJob]

/-- The private property is the fault, although a starved one comes before it; and of two classes
that starve properties, the one met first decides. -/
theorem injectorsOf_outcome_mixed :
    (∃ misuse property, injectorsOf {} hiddenToken = .error misuse ∧
      FirstWith (fun property => ¬ property.Eligible) hiddenToken property ∧
      misuse.kind = .privateField ∧ property.name = "token" ∧ misuse.owner = some "x.Main" ∧
      misuse.sourceFile = some "Main.kt") ∧
    ∃ misuse owner property, injectorsOf {} jobsInTurn = .error misuse ∧
      FirstWith (Owner.Starves {} jobsInTurn) (ownersOf jobsInTurn) owner ∧
      FirstWith (Starved {} owner) (propertiesOf owner.name jobsInTurn) property ∧
      misuse.kind = .unsupportedRole ∧ property.name = "size" ∧ owner.name = "x.Sync" ∧
      owner.sourceFile = some "Sync.kt" := by
  constructor
  · obtain ⟨misuse, hfault, hkind, hfield, howner, hfile⟩ : ∃ misuse,
        injectorsOf {} hiddenToken = .error misuse ∧ misuse.kind = .privateField ∧
        misuse.field = "token" ∧ misuse.owner = some "x.Main" ∧
        misuse.sourceFile = some "Main.kt" := ⟨_, rfl, rfl, rfl, rfl, rfl⟩
    rcases (injectorsOf_outcome {} hiddenToken).2.2.1 misuse hfault with
      ⟨property, hfirst, -, hname, -⟩ | ⟨-, -, -, -, -, hother, -⟩
    · exact ⟨misuse, property, hfault, hfirst, hkind, hname.symm.trans hfield, howner, hfile⟩
    · cases hkind.symm.trans hother
  · obtain ⟨misuse, hfault, hkind, hfield, howner, hfile⟩ : ∃ misuse,
        injectorsOf {} jobsInTurn = .error misuse ∧ misuse.kind = .unsupportedRole ∧
        misuse.field = "size" ∧ misuse.owner = some "x.Sync" ∧
        misuse.sourceFile = some "Sync.kt" := ⟨_, rfl, rfl, rfl, rfl, rfl⟩
    rcases (injectorsOf_outcome {} jobsInTurn).2.2.1 misuse hfault with
      ⟨property, hfirst, hother, -⟩ | ⟨-, owner, property, hstarves, hfirst, -, hname, hby, hin⟩
    · rw [hkind] at hother
      split at hother <;> cases hother
    · exact ⟨misuse, owner, property, hfault, hstarves, hfirst, hkind, hname.symm.trans hfield,
        Option.some.inj (hby.symm.trans howner), hin.symm.trans hfile⟩

end Wiring
