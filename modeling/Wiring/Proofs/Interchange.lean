import Mathlib.Data.List.Forall2
import Wiring.Proofs.OwnerFiles
import Wiring.Proofs.OwnerIndependence
import Wiring.Proofs.Supertypes

/-!
# What files do not depend on

Much of what is known about a property plays no part in the file of its owner: the description in
its request, how visible it is as long as it is not private, an empty key, the supertypes of its
type but for the three that decide the category, all supertypes of type arguments, and, after the
first property of an owner, everything about the owner but its name.  Two lists of properties that
differ in such things only have the same files.

## Main definitions

* `Property.Alike` — two properties that are filled in the same way.
* `Interchangeable` — two lists of properties that have the same files.

## Main results

* `exists_planFor_of_alike` — properties that are alike have the same plan, but for supertypes.
* `compile_eq_ok_iff_owners` — the files, owner by owner.
* `compile_of_interchangeable` — **interchangeable lists have the same files.**
-/

namespace Wiring

/-! ### Properties that are alike -/

/-- The names among the supertypes of a type that its category depends on. -/
def Symbols.capabilities (symbols : Symbols) : List String :=
  [symbols.providerCapability, symbols.serializable, symbols.parcelable]

namespace Property

/-- Two properties that agree in all that their plans are made from. -/
structure Alike (symbols : Symbols) (first second : Property) : Prop where
  /-- The names are the same. -/
  name : first.name = second.name
  /-- The types are the same but for their supertypes and those of their arguments. -/
  type : first.type.bare = second.type.bare
  /-- A capability that one type has the other has too. -/
  capabilities : ∀ capability ∈ symbols.capabilities,
    first.type.isSubtypeOf capability = second.type.isSubtypeOf capability
  /-- Either both are private or none is. -/
  hidden : first.visibility = .privateOnly ↔ second.visibility = .privateOnly
  /-- The given keys are the same, where an empty one counts as none. -/
  key : first.request.name.getD "" = second.request.name.getD ""
  /-- Both or none must not stay null. -/
  required : first.request.required = second.request.required
  /-- The owners have the same name. -/
  ownerName : first.owner.map Owner.name = second.owner.map Owner.name

namespace Alike

variable {symbols : Symbols} {first second : Property}

theorem symm (h : Alike symbols first second) : Alike symbols second first where
  name := h.name.symm
  type := h.type.symm
  capabilities capability hmem := (h.capabilities capability hmem).symm
  hidden := h.hidden.symm
  key := h.key.symm
  required := h.required.symm
  ownerName := h.ownerName.symm

theorem typeName (h : Alike symbols first second) : first.type.name = second.type.name := by
  rw [← DeclaredType.bare_name, h.type, DeclaredType.bare_name]

theorem nullable (h : Alike symbols first second) :
    first.type.nullable = second.type.nullable := by
  rw [← DeclaredType.bare_nullable, h.type, DeclaredType.bare_nullable]

theorem nonNull_bare (h : Alike symbols first second) :
    first.type.nonNull.bare = second.type.nonNull.bare := by
  rw [DeclaredType.bare_nonNull, h.type, DeclaredType.bare_nonNull]

/-- An explicit key is a given key that is not empty. -/
theorem key?_eq (request : Request) :
    request.key? = if request.name.getD "" = "" then none else some (request.name.getD "") := by
  unfold Request.key?
  cases request.name with
  | none => rfl
  | some name => by_cases h : name = "" <;> simp [h]

theorem key? (h : Alike symbols first second) :
    first.request.key? = second.request.key? := by
  rw [key?_eq, h.key, ← key?_eq]

theorem bundleKey (h : Alike symbols first second) : first.bundleKey = second.bundleKey := by
  rw [Property.bundleKey, h.key?, h.name, Property.bundleKey]

/-- Types with the same capabilities have the same category. -/
theorem category (h : Alike symbols first second) :
    Category.ofType symbols first.type = Category.ofType symbols second.type := by
  have hprovider := h.capabilities symbols.providerCapability (by simp [Symbols.capabilities])
  have hserializable := h.capabilities symbols.serializable (by simp [Symbols.capabilities])
  have hparcelable := h.capabilities symbols.parcelable (by simp [Symbols.capabilities])
  unfold Category.ofType
  rw [hprovider, hserializable, hparcelable, h.typeName]

theorem eligible_iff (h : Alike symbols first second) : first.Eligible ↔ second.Eligible := by
  have howner : first.owner = none ↔ second.owner = none := by
    rw [← Option.map_eq_none_iff, h.ownerName, Option.map_eq_none_iff]
  rw [Property.Eligible, Property.Eligible, Ne, howner, Ne, h.hidden]

end Alike

end Property

/-! ### Plans -/

section

variable {symbols : Symbols} {owner : Owner} {first second : Property}

namespace FieldPlan

theorem bareAll_fromRegistry (h : first.Alike symbols second) :
    bareAll (fromRegistry first) = bareAll (fromRegistry second) := by
  unfold fromRegistry
  rw [h.name, h.key?, h.nullable]
  cases second.request.key? <;> simp [bareAll, Statement.bare, Expression.bare, h.nonNull_bare]

/-- However they are filled, properties that are alike have the same statements, but for
supertypes. -/
theorem bareAll_fromSource (h : first.Alike symbols second) (source : BundleSource)
    (strategy : Strategy) :
    bareAll (fromSource first source owner strategy) =
      bareAll (fromSource second source owner strategy) := by
  cases strategy with
  | provider => exact bareAll_fromRegistry h
  | primitive getter =>
    rw [fromSource, fromSource, fromBundle, fromBundle, h.name, h.bundleKey, h.nullable]
  | str => rw [fromSource, fromSource, fromString, fromString, h.name, h.bundleKey]
  | cast kind =>
    cases kind <;> simp only [fromSource, fromCast, bareAll, Statement.bare, Expression.bare,
      h.name, h.bundleKey, h.nonNull_bare]
  | object =>
    have hmessage : deserializerMissing first owner = deserializerMissing second owner := by
      unfold deserializerMissing
      rw [h.name]
    unfold fromSource fromText
    rw [h.name, h.bundleKey, hmessage]
    simp only [bareAll, bareElse, Statement.bare, Expression.bare, h.nonNull_bare]

theorem checkFor_of_alike (h : first.Alike symbols second) (category : Category) :
    checkFor first category owner = checkFor second category owner := by
  rw [checkFor, checkFor, h.required, h.name]

/-- If there are statements for a property, there are such for one that is alike, the same but for
supertypes. -/
theorem exists_statementsFor_of_alike (h : first.Alike symbols second) {strategy : Strategy}
    {statements : List Statement} (hmade : statementsFor first strategy owner = .ok statements) :
    ∃ others, statementsFor second strategy owner = .ok others ∧
      bareAll others = bareAll statements := by
  unfold statementsFor at hmade ⊢
  split at hmade
  · obtain rfl := Except.ok.inj hmade
    exact ⟨_, rfl, (bareAll_fromRegistry h).symm⟩
  · obtain rfl := Except.ok.inj hmade
    exact ⟨_, rfl, (bareAll_fromSource h _ _).symm⟩
  · cases hmade

end FieldPlan

/-- A property has a plan if one that is alike does, and the plans are the same but for
supertypes. -/
theorem exists_planFor_of_alike {settings : Settings} (h : first.Alike settings.symbols second)
    {plan : FieldPlan} (hplan : Injector.planFor settings owner first = .ok plan) :
    ∃ other, Injector.planFor settings owner second = .ok other ∧ other.bare = plan.bare := by
  obtain ⟨statements, hstatements, rfl⟩ := Injector.planFor_eq_ok_iff.mp hplan
  obtain ⟨others, hothers, hbare⟩ := FieldPlan.exists_statementsFor_of_alike h hstatements
  rw [h.category] at hothers
  refine ⟨_, Injector.planFor_eq_ok_iff.mpr ⟨others, hothers, rfl⟩, ?_⟩
  rw [FieldPlan.bare, FieldPlan.bare, FieldPlan.ofStatements, FieldPlan.ofStatements]
  dsimp only
  rw [hbare, h.name, ← h.category, FieldPlan.checkFor_of_alike h]

/-- Properties that are alike one by one have the same plans, but for supertypes. -/
theorem exists_planned_of_alike {settings : Settings} {properties others : List Property}
    (h : List.Forall₂ (Property.Alike settings.symbols) properties others)
    {plans : List FieldPlan} (hplans : Planned settings owner properties plans) :
    ∃ otherPlans, Planned settings owner others otherPlans ∧
      otherPlans.map FieldPlan.bare = plans.map FieldPlan.bare := by
  induction h generalizing plans with
  | nil =>
    obtain rfl := List.forall₂_nil_left_iff.mp hplans
    exact ⟨[], .nil, rfl⟩
  | cons halike _ ih =>
    obtain ⟨plan, rest, hplan, hrest, rfl⟩ := List.forall₂_cons_left_iff.mp hplans
    obtain ⟨other, hother, hbare⟩ := exists_planFor_of_alike halike hplan
    obtain ⟨otherRest, hotherRest, hbareRest⟩ := ih hrest
    exact ⟨other :: otherRest, .cons hother hotherRest, by
      rw [List.map_cons, List.map_cons, hbare, hbareRest]⟩

end

/-! ### Files, owner by owner -/

/-- Relations that agree on the members of a list relate it to the same lists. -/
theorem forall₂_congr_of_mem {α β : Type} {R S : α → β → Prop} {xs : List α} {ys : List β}
    (h : ∀ x ∈ xs, ∀ y, R x y ↔ S x y) : List.Forall₂ R xs ys ↔ List.Forall₂ S xs ys := by
  induction xs generalizing ys with
  | nil => rw [List.forall₂_nil_left_iff, List.forall₂_nil_left_iff]
  | cons x xs ih =>
    rw [List.forall_mem_cons] at h
    simp only [List.forall₂_cons_left_iff, h.1, ih h.2]

/-- The file of an owner with some properties. -/
def HasFile (settings : Settings) (properties : List Property) (owner : Owner)
    (file : SourceFile) : Prop :=
  ∃ plans, Planned settings owner (propertiesOf owner.name properties) plans ∧
    file = .ofInjector settings (.make settings owner plans)

theorem fileOfGroup_eq_ok_iff {settings : Settings} {properties : List Property}
    {groups : List OwnerGroup} (h : Grouped properties groups) {group : OwnerGroup}
    (hmem : group ∈ groups) {file : SourceFile} :
    fileOfGroup settings group = .ok file ↔ HasFile settings properties group.owner file := by
  have hmade : fileOfGroup settings group = .ok file ↔
      ∃ injector, Injector.ofGroup settings group = .ok injector ∧
        file = .ofInjector settings injector := by
    unfold fileOfGroup
    cases Injector.ofGroup settings group with
    | error misuse => simp [Except.map]
    | ok injector => simp [Except.map, eq_comm]
  rw [hmade, HasFile, ← h.members group hmem]
  simp only [ofGroup_eq_ok_iff]
  constructor
  · rintro ⟨-, ⟨plans, hplans, rfl⟩, rfl⟩
    exact ⟨plans, hplans, rfl⟩
  · rintro ⟨plans, hplans, rfl⟩
    exact ⟨_, ⟨plans, hplans, rfl⟩, rfl⟩

/-- The files of a list of properties are those of its owners, in order of first appearance. -/
theorem compile_eq_ok_iff_owners {settings : Settings} {properties : List Property}
    {files : List SourceFile} :
    compile settings properties = .ok files ↔
      (∀ property ∈ properties, property.Eligible) ∧
        List.Forall₂ (HasFile settings properties) (ownersOf properties) files := by
  rw [compile_eq_ok_iff, ← groupByOwner_ok_iff]
  -- the groups are those of the owners, each with a file of its own
  have hfiles : ∀ groups, groupByOwner properties = .ok groups →
      (List.Forall₂ (fun group file => fileOfGroup settings group = .ok file) groups files ↔
        List.Forall₂ (HasFile settings properties) (ownersOf properties) files) := by
    intro groups hgroups
    have hgrouped := grouped_groupByOwner hgroups
    rw [← map_owner_groups hgrouped, List.forall₂_map_left_iff]
    exact forall₂_congr_of_mem fun group hmem file => fileOfGroup_eq_ok_iff hgrouped hmem
  constructor
  · rintro ⟨groups, hgroups, hall⟩
    exact ⟨⟨groups, hgroups⟩, (hfiles groups hgroups).mp hall⟩
  · rintro ⟨⟨groups, hgroups⟩, hall⟩
    exact ⟨groups, hgroups, (hfiles groups hgroups).mpr hall⟩

/-! ### Interchangeable lists -/

/-- Two lists of properties that have the same files: the properties are alike one by one, and the
first property of each owner has it as the other list does. -/
structure Interchangeable (symbols : Symbols) (first second : List Property) : Prop where
  /-- The properties are alike one by one. -/
  alike : List.Forall₂ (Property.Alike symbols) first second
  /-- A property whose owner no earlier property has has the same owner in both lists. -/
  owners : ∀ i property other, first[i]? = some property → second[i]? = some other →
    property.ownerName? ∉ (first.take i).map Property.ownerName? → property.owner = other.owner

namespace Interchangeable

variable {symbols : Symbols} {first second : List Property}

theorem map_ownerName? (h : Interchangeable symbols first second) :
    first.map Property.ownerName? = second.map Property.ownerName? := by
  have halike := h.alike
  clear h
  induction halike with
  | nil => rfl
  | cons hhead _ ih =>
    have hname : Property.ownerName? _ = Property.ownerName? _ := hhead.ownerName
    rw [List.map_cons, List.map_cons, ih, hname]

theorem ownerNames_eq (h : Interchangeable symbols first second) :
    ownerNames first = ownerNames second := by
  have hnames : ∀ properties : List Property, properties.filterMap Property.ownerName? =
      (properties.map Property.ownerName?).filterMap id := by
    intro properties
    rw [List.filterMap_map]
    rfl
  rw [ownerNames, ownerNames, hnames, hnames, h.map_ownerName?]

theorem propertiesOf (h : Interchangeable symbols first second) (name : String) :
    List.Forall₂ (Property.Alike symbols) (propertiesOf name first) (propertiesOf name second) := by
  refine List.rel_filter (fun property other halike => ?_) h.alike
  have hname : property.ownerName? = other.ownerName? := halike.ownerName
  simp only [hname]

/-- The first property of each owner has the same owner in both lists. -/
theorem head?_owner (h : Interchangeable symbols first second) (name : String) :
    (Wiring.propertiesOf name first).head?.bind Property.owner =
      (Wiring.propertiesOf name second).head?.bind Property.owner := by
  have hlength := h.alike.length_eq
  have hsame : ∀ i (hi : i < first.length) (hi' : i < second.length),
      first[i].ownerName? = second[i].ownerName? :=
    fun i hi hi' => (List.Forall₂.get h.alike hi hi').ownerName
  rw [Wiring.propertiesOf, Wiring.propertiesOf, List.head?_filter, List.head?_filter]
  cases hfind : first.find? fun property => property.ownerName? = some name with
  | none =>
    have hnone : second.find? (fun property => property.ownerName? = some name) = none := by
      rw [List.find?_eq_none] at hfind ⊢
      intro other hother
      obtain ⟨i, hi', rfl⟩ := List.mem_iff_getElem.mp hother
      rw [← hsame i (hlength ▸ hi') hi']
      exact hfind _ (List.getElem_mem _)
    rw [hnone]
  | some property =>
    -- the partner of the first property found is the first one found on the other side
    obtain ⟨hproperty, i, hi, rfl, hbefore⟩ := List.find?_eq_some_iff_getElem.mp hfind
    have hi' : i < second.length := hlength ▸ hi
    have hother : second.find? (fun property => property.ownerName? = some name) =
        some second[i] := by
      refine List.find?_eq_some_iff_getElem.mpr ⟨?_, i, hi', rfl, fun j hj => ?_⟩
      · rwa [← hsame i hi hi']
      · rw [← hsame j (hj.trans hi) (hj.trans hi')]
        exact hbefore j hj
    rw [hother]
    refine h.owners i _ _ (List.getElem?_eq_getElem hi) (List.getElem?_eq_getElem hi') ?_
    intro hmem
    obtain ⟨earlier, hearlier, hname⟩ := List.mem_map.mp hmem
    obtain ⟨j, hj, rfl⟩ := List.mem_take_iff_getElem.mp hearlier
    have hnot := hbefore j (by omega)
    rw [hname] at hnot
    simp [hproperty] at hnot

theorem ownersOf_eq (h : Interchangeable symbols first second) :
    ownersOf first = ownersOf second := by
  rw [ownersOf, ownersOf, h.ownerNames_eq]
  exact List.filterMap_congr fun name _ => h.head?_owner name

theorem eligible_iff (h : Interchangeable symbols first second) :
    (∀ property ∈ first, property.Eligible) ↔ ∀ property ∈ second, property.Eligible := by
  have halike := h.alike
  clear h
  induction halike with
  | nil => exact Iff.rfl
  | cons hhead _ ih =>
    rw [List.forall_mem_cons, List.forall_mem_cons, hhead.eligible_iff]
    exact and_congr_right fun _ => ih

/-- What an owner's file is made from is the same in both lists. -/
theorem hasFile {settings : Settings} (h : Interchangeable settings.symbols first second)
    {owner : Owner} {file : SourceFile} (hfile : HasFile settings first owner file) :
    HasFile settings second owner file := by
  obtain ⟨plans, hplans, rfl⟩ := hfile
  obtain ⟨others, hothers, hbare⟩ := exists_planned_of_alike (h.propertiesOf owner.name) hplans
  refine ⟨others, hothers, ?_⟩
  rw [← ofInjector_make_bare, ← hbare, ofInjector_make_bare]

/-- The order of the two lists does not matter. -/
theorem symm (h : Interchangeable symbols first second) : Interchangeable symbols second first where
  alike := h.alike.flip.imp fun _ _ halike => halike.symm
  owners := by
    intro i other property hother hproperty hnew
    refine (h.owners i property other hproperty hother ?_).symm
    obtain ⟨hlt, rfl⟩ := List.getElem?_eq_some_iff.mp hproperty
    obtain ⟨hlt', rfl⟩ := List.getElem?_eq_some_iff.mp hother
    have hname : first[i].ownerName? = second[i].ownerName? :=
      (List.Forall₂.get h.alike hlt hlt').ownerName
    rwa [hname, List.map_take, h.map_ownerName?, ← List.map_take]

end Interchangeable

/-- **Interchangeable lists have the same files.**  Two lists of properties that agree but for
descriptions, visibilities other than private, empty keys, supertypes that no category depends on,
supertypes of type arguments, and what later properties say about their owners besides the name,
compile both or neither, and to the same files: the same paths, texts, source files and marks. -/
theorem compile_of_interchangeable (settings : Settings) (first second : List Property)
    (h : Interchangeable settings.symbols first second) (files : List SourceFile) :
    compile settings first = .ok files ↔ compile settings second = .ok files := by
  rw [compile_eq_ok_iff_owners, compile_eq_ok_iff_owners, h.eligible_iff, h.ownersOf_eq]
  refine and_congr_right fun _ => ⟨fun hall => ?_, fun hall => ?_⟩
  · exact hall.imp fun _ _ hfile => h.hasFile hfile
  · exact hall.imp fun _ _ hfile => h.symm.hasFile hfile

/-- A box and a count of a screen. -/
def terseBox : List Property :=
  [⟨"box", ⟨"y.Box", true, [.ofName "y.Item"], ["java.io.Serializable"]⟩, .visible,
      some ⟨"x.Main", none, .screen, some "Main.kt"⟩, ⟨none, true, none⟩⟩,
    ⟨"count", .ofName "kotlin.Int", .visible,
      some ⟨"x.Main", none, .screen, some "Main.kt"⟩, .plain⟩]

/-- The same with more said about the box and other things about the count and its owner. -/
def wordyBox : List Property :=
  [⟨"box", ⟨"y.Box", true, [⟨"y.Item", false, [], ["y.Base"]⟩], ["y.Base", "java.io.Serializable"]⟩,
      .internalOnly, some ⟨"x.Main", none, .screen, some "Main.kt"⟩,
      ⟨some "", true, some "what to show"⟩⟩,
    ⟨"count", .ofName "kotlin.Int", .protectedOnly,
      some ⟨"x.Main", some "z", .unknown, none⟩, .plain⟩]

/-- What is said besides makes no difference to the file. -/
theorem compile_of_interchangeable_box :
    Interchangeable ({} : Settings).symbols terseBox wordyBox ∧
      ∃ files, compile {} terseBox = .ok files ∧ compile {} wordyBox = .ok files := by
  have hbox : Interchangeable ({} : Settings).symbols terseBox wordyBox := by
    constructor
    case alike =>
      refine .cons ⟨rfl, rfl, ?_, ?_, rfl, rfl, rfl⟩ (.cons ⟨rfl, rfl, ?_, ?_, rfl, rfl, rfl⟩ .nil)
      all_goals decide
    case owners =>
      intro i property other hproperty hother hnew
      match i with
      | 0 =>
        obtain rfl := Option.some.inj hproperty
        obtain rfl := Option.some.inj hother
        rfl
      | 1 =>
        -- the count is not the first property of its owner
        obtain rfl := Option.some.inj hproperty
        exact absurd List.mem_cons_self hnew
      | _ + 2 => cases hproperty
  obtain ⟨files, hfiles⟩ : ∃ files, compile {} terseBox = .ok files := ⟨_, rfl⟩
  exact ⟨hbox, files, hfiles, (compile_of_interchangeable {} _ _ hbox files).mp hfiles⟩

end Wiring
