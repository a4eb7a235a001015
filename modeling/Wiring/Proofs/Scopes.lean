import Wiring.Proofs.FieldLines

/-!
# Scopes of an injection

A statement is meant for a place: a read takes its value from the bundle that the nearest
`whenPresent` statement around it binds, `bound` stands for the value bound there, and a local
variable is declared before it is used, in the same block or in one around it.  The statements that
fill a property also name things, its field, its keys, its source and its type, and they must name
those of their own property.  Both hold of every strategy, so they hold of an injector, whatever
properties it is made for and however deep the statement stands.

## Main definitions

* `Surroundings`, `placedAll` — the statements of a list at every depth, each with what is in scope.
* `WellPlaced`, `WellScoped` — what is used is in scope, and blocks declare nothing twice.
* `Statement.About` — a statement names its own property's field, keys, source and type only.

## Main results

* `map_snd_placedAll` — no statement is left out.
* `fieldScope_ofField`, `about_ofField` — the plan for one property.
* `wellScoped_of_mem` — **the statements of an injector are well scoped**, and those of each
  property are about it.
-/

namespace Wiring

/-! ### What statements name -/

namespace Expression

/-- The fields whose values are passed as defaults. -/
@[simp] def fields : Expression → List String
  | read _ _ fallback => fallback.toList
  | _ => []

/-- The keys that are looked up in an argument bundle. -/
@[simp] def bundleKeys : Expression → List String
  | read _ key _ => [key]
  | readString _ key => [key]
  | readSerializable _ key _ => [key]
  | readParcelable _ key _ => [key]
  | _ => []

/-- The keys that are looked up in the registry. -/
@[simp] def serviceKeys : Expression → List String
  | serviceByName key _ _ => [key]
  | _ => []

/-- The argument sources. -/
@[simp] def sources : Expression → List BundleSource
  | bundle source => [source]
  | readString source _ => [source]
  | readSerializable source _ _ => [source]
  | readParcelable source _ _ => [source]
  | _ => []

/-- The local variables that are read. -/
@[simp] def locals : Expression → List String
  | deserialize raw _ => [raw]
  | _ => []

/-- The value is read from the bound bundle. -/
@[simp] def isRead : Expression → Bool
  | read _ _ _ => true
  | _ => false

/-- The value is read with a cast, or built from a text. -/
@[simp] def isChecked : Expression → Bool
  | readSerializable _ _ _ => true
  | readParcelable _ _ _ => true
  | deserialize _ _ => true
  | _ => false

/-- The value is the bound one. -/
@[simp] def isBound : Expression → Bool
  | bound => true
  | _ => false

end Expression

namespace Condition

/-- The fields that are tested. -/
@[simp] def fields : Condition → List String
  | fieldIsNull field => [field]
  | _ => []

/-- The keys that are looked up in the bound bundle. -/
@[simp] def bundleKeys : Condition → List String
  | containsKey key => [key]
  | _ => []

/-- The local variables that are tested. -/
@[simp] def locals : Condition → List String
  | notNullOrEmpty name => [name]
  | _ => []

end Condition

namespace Statement

/-- The condition that a statement tests, if it does. -/
@[simp] def condition? : Statement → Option Condition
  | ifThen condition _ _ => some condition
  | _ => none

/-- The local variable that a statement declares, if it does. -/
@[simp] def declared? : Statement → Option String
  | declare name _ => some name
  | _ => none

/-- The field that a statement assigns or checks, if it does. -/
@[simp] def target? : Statement → Option String
  | assign field _ => some field
  | require field _ => some field
  | _ => none

/-- All fields that a statement names. -/
@[simp] def fields (statement : Statement) : List String :=
  statement.target?.toList ++ statement.expressions.flatMap Expression.fields ++
    statement.condition?.toList.flatMap Condition.fields

/-- All bundle keys that a statement names. -/
@[simp] def bundleKeys (statement : Statement) : List String :=
  statement.expressions.flatMap Expression.bundleKeys ++
    statement.condition?.toList.flatMap Condition.bundleKeys

/-- All local variables that a statement uses. -/
@[simp] def locals (statement : Statement) : List String :=
  statement.expressions.flatMap Expression.locals ++
    statement.condition?.toList.flatMap Condition.locals

/-- The statement reads from the bound bundle or looks into it. -/
@[simp] def asksBundle (statement : Statement) : Bool :=
  statement.expressions.any Expression.isRead ||
    statement.condition?.any fun condition => condition.bundleKeys ≠ []

/-- The statement belongs to the prelude of an injector. -/
@[simp] def isPrelude : Statement → Bool
  | resolveDeserializer => true
  | bindTarget _ _ => true
  | _ => false

end Statement

/-! ### What is in scope -/

/-- What is in scope where a statement stands. -/
structure Surroundings where
  /-- The subject of the nearest `whenPresent` statement around it. -/
  subject : Option Expression
  /-- The local variables declared before it, in its own block or in a block around it. -/
  locals : List String

namespace Surroundings

/-- Nothing is in scope. -/
def outermost : Surroundings := ⟨none, []⟩

/-- Inside a `whenPresent` statement with the subject. -/
def within (around : Surroundings) (subject : Expression) : Surroundings :=
  { around with subject := some subject }

/-- After a statement of the same block. -/
def after (around : Surroundings) (statement : Statement) : Surroundings :=
  { around with locals := statement.declared?.toList ++ around.locals }

end Surroundings

mutual

/-- A statement and all statements inside it, each with what is in scope where it stands. -/
def placed (around : Surroundings) : Statement → List (Surroundings × Statement)
  | .whenPresent subject body =>
      (around, .whenPresent subject body) :: placedAll (around.within subject) body
  | .ifThen condition yes no =>
      (around, .ifThen condition yes no) :: (placedAll around yes ++ placedElse around no)
  | .resolveDeserializer => [(around, .resolveDeserializer)]
  | .bindTarget owner message => [(around, .bindTarget owner message)]
  | .assign field value => [(around, .assign field value)]
  | .declare name value => [(around, .declare name value)]
  | .require field failure => [(around, .require field failure)]
  | .log message => [(around, .log message)]

/-- The statements of a block and all statements inside them. -/
def placedAll (around : Surroundings) : List Statement → List (Surroundings × Statement)
  | [] => []
  | statement :: rest => placed around statement ++ placedAll (around.after statement) rest

/-- The statements of an else branch, if there is one. -/
def placedElse (around : Surroundings) :
    Option (List Statement) → List (Surroundings × Statement)
  | none => []
  | some statements => placedAll around statements

end

mutual

theorem map_snd_placed : ∀ (statement : Statement) (around : Surroundings),
    (placed around statement).map Prod.snd = statement.preorder
  | .whenPresent subject body, around => by
      rw [placed, List.map_cons, Statement.preorder, map_snd_placedAll body]
  | .ifThen condition yes no, around => by
      rw [placed, List.map_cons, List.map_append, Statement.preorder, map_snd_placedAll yes,
        map_snd_placedElse no]
  | .resolveDeserializer, _ => rfl
  | .bindTarget _ _, _ => rfl
  | .assign _ _, _ => rfl
  | .declare _ _, _ => rfl
  | .require _ _, _ => rfl
  | .log _, _ => rfl

/-- **No statement is left out**: those of a list with their surroundings are all of them, in
order. -/
theorem map_snd_placedAll : ∀ (statements : List Statement) (around : Surroundings),
    (placedAll around statements).map Prod.snd = preorderAll statements
  | [], _ => rfl
  | statement :: rest, around => by
      rw [placedAll, List.map_append, preorderAll, map_snd_placed statement,
        map_snd_placedAll rest]

theorem map_snd_placedElse : ∀ (no : Option (List Statement)) (around : Surroundings),
    (placedElse around no).map Prod.snd = preorderElse no
  | none, _ => rfl
  | some statements, around => by rw [placedElse, preorderElse, map_snd_placedAll statements]

end

/-- The local variables that a block declares. -/
def declaredIn (block : List Statement) : List String := block.filterMap Statement.declared?

@[simp] theorem declaredIn_nil : declaredIn [] = [] := rfl

@[simp] theorem declaredIn_cons (statement : Statement) (rest : List Statement) :
    declaredIn (statement :: rest) = statement.declared?.toList ++ declaredIn rest := by
  unfold declaredIn
  cases h : statement.declared? with
  | none => rw [List.filterMap_cons_none h, Option.toList_none, List.nil_append]
  | some name => rw [List.filterMap_cons_some h, Option.toList_some, List.singleton_append]

@[simp] theorem declaredIn_append (first second : List Statement) :
    declaredIn (first ++ second) = declaredIn first ++ declaredIn second :=
  List.filterMap_append

/-- A block without declarations leaves what is in scope as it is. -/
theorem placedAll_append {first : List Statement} (h : declaredIn first = [])
    (second : List Statement) (around : Surroundings) :
    placedAll around (first ++ second) = placedAll around first ++ placedAll around second := by
  induction first with
  | nil => rfl
  | cons statement rest ih =>
    rw [declaredIn_cons, List.append_eq_nil_iff] at h
    have hafter : around.after statement = around := by
      rw [Surroundings.after, h.1, List.nil_append]
    rw [List.cons_append, placedAll, placedAll, hafter, ih h.2, List.append_assoc]

/-! ### Well scoped statements -/

/-- What a statement uses is in scope where it stands, for an owner of the role. -/
structure WellPlaced (role : Role) (around : Surroundings) (statement : Statement) : Prop where
  /-- It looks into the bundle of the role. -/
  bundle : statement.asksBundle = true →
    ∃ source, role.source? = some source ∧ around.subject = some (.bundle source)
  /-- The bound value was read with a cast or built from a text. -/
  bound : statement.expressions.any Expression.isBound = true →
    ∃ subject, around.subject = some subject ∧ subject.isChecked = true
  /-- Its local variables have been declared. -/
  locals : ∀ name ∈ statement.locals, name ∈ around.locals

namespace WellPlaced

variable {role : Role} {around : Surroundings} {source : BundleSource}

/-- A statement that uses nothing can stand anywhere. -/
theorem of_plain {statement : Statement} (hasks : statement.asksBundle = false)
    (hbound : statement.expressions.any Expression.isBound = false)
    (hlocals : statement.locals = []) : WellPlaced role around statement where
  bundle h := absurd (hasks.symm.trans h) Bool.false_ne_true
  bound h := absurd (hbound.symm.trans h) Bool.false_ne_true
  locals _ h := absurd (hlocals ▸ h) List.not_mem_nil

/-- A read stands where the bundle of the role is bound. -/
theorem read (hsource : role.source? = some source)
    (hsubject : around.subject = some (.bundle source)) (field : String) (getter : Getter)
    (key : String) (fallback : Option String) :
    WellPlaced role around (.assign field (.read getter key fallback)) where
  bundle _ := ⟨source, hsource, hsubject⟩
  bound h := absurd h Bool.false_ne_true
  locals _ h := absurd h List.not_mem_nil

/-- So does a test for a key. -/
theorem containsKey (hsource : role.source? = some source)
    (hsubject : around.subject = some (.bundle source)) (key : String) (yes : List Statement)
    (no : Option (List Statement)) :
    WellPlaced role around (.ifThen (.containsKey key) yes no) where
  bundle _ := ⟨source, hsource, hsubject⟩
  bound h := absurd h Bool.false_ne_true
  locals _ h := absurd h List.not_mem_nil

/-- The bound value is assigned where a checked value is bound. -/
theorem assign_bound {subject : Expression} (hsubject : around.subject = some subject)
    (hchecked : subject.isChecked = true) (field : String) :
    WellPlaced role around (.assign field .bound) where
  bundle h := absurd h Bool.false_ne_true
  bound _ := ⟨subject, hsubject, hchecked⟩
  locals _ h := absurd h List.not_mem_nil

end WellPlaced

/-- At every depth what is used is in scope, and no block declares a local variable twice. -/
structure WellScoped (role : Role) (statements : List Statement) : Prop where
  /-- Each statement stands where it can. -/
  placed : ∀ inner ∈ placedAll .outermost statements, WellPlaced role inner.1 inner.2
  /-- The outermost block. -/
  declared : (declaredIn statements).Nodup
  /-- The blocks inside it. -/
  inner : ∀ statement ∈ preorderAll statements, ∀ block ∈ statement.children,
    (declaredIn block).Nodup

/-- The statements are well scoped and leave no local variable behind, so others can follow them. -/
structure FieldScope (role : Role) (statements : List Statement) : Prop
    extends WellScoped role statements where
  /-- The outermost block declares nothing. -/
  quiet : declaredIn statements = []
  /-- The prelude is not part of them. -/
  noPrelude : ∀ statement ∈ preorderAll statements, statement.isPrelude = false

namespace FieldScope

variable {role : Role} {first second : List Statement}

theorem nil : FieldScope role [] where
  placed _ h := absurd h List.not_mem_nil
  declared := List.nodup_nil
  inner _ h := absurd h List.not_mem_nil
  quiet := rfl
  noPrelude _ h := absurd h List.not_mem_nil

theorem append (h : FieldScope role first) (h' : FieldScope role second) :
    FieldScope role (first ++ second) := by
  have hquiet : declaredIn (first ++ second) = [] := by
    rw [declaredIn_append, h.quiet, h'.quiet, List.append_nil]
  refine ⟨⟨?_, ?_, ?_⟩, hquiet, ?_⟩
  · -- the first statements declare nothing, so the others stand as they would alone
    rw [placedAll_append h.quiet, List.forall_mem_append]
    exact ⟨h.placed, h'.placed⟩
  · rw [hquiet]
    exact List.nodup_nil
  · rw [preorderAll_append, List.forall_mem_append]
    exact ⟨h.inner, h'.inner⟩
  · rw [preorderAll_append, List.forall_mem_append]
    exact ⟨h.noPrelude, h'.noPrelude⟩

theorem flatMap {α : Type} {statementsOf : α → List Statement} :
    ∀ {xs : List α}, (∀ x ∈ xs, FieldScope role (statementsOf x)) →
      FieldScope role (xs.flatMap statementsOf) := by
  intro xs
  induction xs with
  | nil => exact fun _ => nil
  | cons x xs ih =>
    intro h
    rw [List.forall_mem_cons] at h
    rw [List.flatMap_cons]
    exact h.1.append (ih h.2)

/-- A single statement that declares nothing. -/
theorem single {statement : Statement} (hquiet : statement.declared? = none)
    (hplaced : ∀ inner ∈ Wiring.placed .outermost statement, WellPlaced role inner.1 inner.2)
    (hinner : ∀ inner ∈ statement.preorder,
      inner.isPrelude = false ∧ ∀ block ∈ inner.children, (declaredIn block).Nodup) :
    FieldScope role [statement] := by
  have hdeclared : declaredIn [statement] = [] := by
    rw [declaredIn_cons, hquiet, Option.toList_none, declaredIn_nil, List.append_nil]
  have hpreorder : preorderAll [statement] = statement.preorder := by
    rw [preorderAll, preorderAll, List.append_nil]
  refine ⟨⟨?_, ?_, ?_⟩, hdeclared, ?_⟩
  · rwa [placedAll, placedAll, List.append_nil]
  · rw [hdeclared]
    exact List.nodup_nil
  · rw [hpreorder]
    exact fun inner hmem => (hinner inner hmem).2
  · rw [hpreorder]
    exact fun inner hmem => (hinner inner hmem).1

end FieldScope

/-! ### Statements about a property -/

/-- The statement names nothing but the property's field, its keys, the source of its owner's role
and its type, from which null is taken away at the top. -/
structure Statement.About (property : Property) (owner : Owner)
    (statement : Statement) : Prop where
  /-- Whatever field is assigned, checked or passed as the default is that of the property. -/
  fields : ∀ field ∈ statement.fields, field = property.name
  /-- Whatever is looked up in a bundle is looked up under its bundle key. -/
  bundleKeys : ∀ key ∈ statement.bundleKeys, key = property.bundleKey
  /-- Whatever is looked up by name in the registry is looked up under its explicit key. -/
  serviceKeys : ∀ key ∈ statement.expressions.flatMap Expression.serviceKeys,
    property.request.key? = some key
  /-- Arguments come from the source of the owner's role. -/
  sources : ∀ source ∈ statement.expressions.flatMap Expression.sources,
    owner.role.source? = some source
  /-- Values are of its declared type. -/
  types : ∀ type ∈ statement.expressions.filterMap Expression.type?, type = property.type.nonNull

/-- A value names nothing but what a statement about the property may name. -/
structure Expression.About (property : Property) (owner : Owner) (value : Expression) : Prop where
  /-- The default. -/
  fields : ∀ field ∈ value.fields, field = property.name
  /-- The keys for a bundle. -/
  bundleKeys : ∀ key ∈ value.bundleKeys, key = property.bundleKey
  /-- The keys for the registry. -/
  serviceKeys : ∀ key ∈ value.serviceKeys, property.request.key? = some key
  /-- The argument sources. -/
  sources : ∀ source ∈ value.sources, owner.role.source? = some source
  /-- The type. -/
  types : ∀ type, value.type? = some type → type = property.type.nonNull

section

variable {property : Property} {owner : Owner} {source : BundleSource}

namespace Expression.About

theorem bound : Expression.bound.About property owner := by
  constructor <;> simp [type?]

theorem bundle (hsource : owner.role.source? = some source) :
    (Expression.bundle source).About property owner := by
  constructor <;> simp [type?, hsource]

/-- Whatever is passed as the default of a read is the field itself. -/
theorem read (getter : Getter) {fallback : Option String}
    (hfallback : ∀ field ∈ fallback, field = property.name) :
    (Expression.read getter property.bundleKey fallback).About property owner := by
  constructor <;> simp [type?]
  exact hfallback

theorem readString (hsource : owner.role.source? = some source) :
    (Expression.readString source property.bundleKey).About property owner := by
  constructor <;> simp [type?, hsource]

theorem readSerializable (hsource : owner.role.source? = some source) :
    (Expression.readSerializable source property.bundleKey property.type.nonNull).About
      property owner := by
  constructor <;> simp [type?, hsource]

theorem readParcelable (hsource : owner.role.source? = some source) :
    (Expression.readParcelable source property.bundleKey property.type.nonNull).About
      property owner := by
  constructor <;> simp [type?, hsource]

theorem serviceByType :
    (Expression.serviceByType property.type.nonNull).About property owner := by
  constructor <;> simp [type?]

theorem serviceByName {key : String} (hkey : property.request.key? = some key) (nullable : Bool) :
    (Expression.serviceByName key property.type.nonNull nullable).About property owner := by
  constructor <;> simp [type?, hkey]

theorem deserialize (raw : String) :
    (Expression.deserialize raw property.type.nonNull).About property owner := by
  constructor <;> simp [type?]

end Expression.About

namespace Statement.About

variable {value : Expression} {statement : Statement}

/-- A statement with one value and no condition is about what its value and its target are. -/
theorem of_value (hvalue : value.About property owner)
    (hexpressions : statement.expressions = [value]) (hcondition : statement.condition? = none)
    (htarget : ∀ field ∈ statement.target?, field = property.name) :
    statement.About property owner := by
  constructor
  · intro field hfield
    rw [Statement.fields, hexpressions, hcondition, List.flatMap_singleton, Option.toList_none,
      List.flatMap_nil, List.append_nil, List.mem_append, Option.mem_toList] at hfield
    exact hfield.elim (htarget field) (hvalue.fields field)
  · rw [Statement.bundleKeys, hexpressions, hcondition, List.flatMap_singleton, Option.toList_none,
      List.flatMap_nil, List.append_nil]
    exact hvalue.bundleKeys
  · rw [hexpressions, List.flatMap_singleton]
    exact hvalue.serviceKeys
  · rw [hexpressions, List.flatMap_singleton]
    exact hvalue.sources
  · intro type htype
    rw [hexpressions, List.mem_filterMap] at htype
    obtain ⟨value', hmem, htype⟩ := htype
    rw [List.mem_singleton.mp hmem] at htype
    exact hvalue.types type htype

/-- A value is assigned to the property's own field. -/
theorem assign (hvalue : value.About property owner) :
    (Statement.assign property.name value).About property owner :=
  of_value hvalue rfl rfl fun _ h => (Option.some.inj h).symm

theorem declare (name : String) (hvalue : value.About property owner) :
    (Statement.declare name value).About property owner :=
  of_value hvalue rfl rfl fun _ h => nomatch h

theorem whenPresent (hvalue : value.About property owner) (body : List Statement) :
    (Statement.whenPresent value body).About property owner :=
  of_value hvalue rfl rfl fun _ h => nomatch h

/-- A statement without a value names a field and keys only. -/
theorem of_no_value (hexpressions : statement.expressions = [])
    (hfields : ∀ field ∈ statement.fields, field = property.name)
    (hkeys : ∀ key ∈ statement.bundleKeys, key = property.bundleKey) :
    statement.About property owner := by
  refine ⟨hfields, hkeys, ?_, ?_, ?_⟩ <;> rw [hexpressions] <;> exact List.forall_mem_nil _

theorem require (failure : Failure) :
    (Statement.require property.name failure).About property owner :=
  of_no_value rfl (List.forall_mem_singleton.mpr rfl) (List.forall_mem_nil _)

theorem log (message : String) : (Statement.log message).About property owner :=
  of_no_value rfl (List.forall_mem_nil _) (List.forall_mem_nil _)

theorem ifThen {condition : Condition} (hfields : condition.fields = [])
    (hkeys : ∀ key ∈ condition.bundleKeys, key = property.bundleKey) (yes : List Statement)
    (no : Option (List Statement)) : (Statement.ifThen condition yes no).About property owner := by
  refine of_no_value rfl (fun field hfield => ?_) (fun key hkey => ?_)
  · obtain ⟨_, htested, hfield⟩ := List.mem_flatMap.mp hfield
    rw [List.mem_singleton.mp htested, hfields] at hfield
    exact absurd hfield List.not_mem_nil
  · obtain ⟨_, htested, hkey⟩ := List.mem_flatMap.mp hkey
    rw [List.mem_singleton.mp htested] at hkey
    exact hkeys key hkey

end Statement.About

end

namespace FieldPlan

section

variable {property : Property} {owner : Owner} {source : BundleSource} {role : Role}

/-! ### The scopes of a field -/

/-- A service is asked for where nothing is in scope. -/
theorem fieldScope_fromRegistry : FieldScope role (fromRegistry property) := by
  unfold fromRegistry
  cases property.request.key? <;>
    refine .single rfl ?_
      (by simp [Statement.preorder, Statement.isPrelude, Statement.children]) <;>
    exact List.forall_mem_singleton.mpr (.of_plain rfl rfl rfl)

/-- A primitive is read inside the bundle, and so is the test for its key. -/
theorem fieldScope_fromBundle (hsource : role.source? = some source) (getter : Getter) :
    FieldScope role (fromBundle property source getter) := by
  unfold fromBundle
  cases property.type.nullable with
  | true =>
    refine .single rfl ?_ (by simp [preorderAll, preorderElse, Statement.preorder,
      Statement.isPrelude, Statement.children, Statement.declared?])
    simp only [placed, placedAll, placedElse, if_true, List.append_nil, List.forall_mem_cons]
    exact ⟨.of_plain rfl rfl rfl, .containsKey hsource rfl _ _ _, .read hsource rfl _ _ _ _,
      List.forall_mem_nil _⟩
  | false =>
    refine .single rfl ?_ (by simp [preorderAll, Statement.preorder, Statement.isPrelude,
      Statement.children, Statement.declared?])
    simp only [Bool.false_eq_true, if_false, placed, placedAll, List.append_nil,
      List.forall_mem_cons]
    exact ⟨.of_plain rfl rfl rfl, .read hsource rfl _ _ _ _, List.forall_mem_nil _⟩

/-- A string is read inside the bundle. -/
theorem fieldScope_fromString (hsource : role.source? = some source) :
    FieldScope role (fromString property source) := by
  refine .single rfl ?_ (by simp [preorderAll, Statement.preorder, Statement.isPrelude,
    Statement.children, Statement.declared?])
  simp only [placed, placedAll, List.append_nil, List.forall_mem_cons]
  exact ⟨.of_plain rfl rfl rfl, .read hsource rfl _ _ _ _, List.forall_mem_nil _⟩

/-- An object that is read with a cast is assigned where it is bound. -/
theorem fieldScope_fromCast (kind : CastKind) :
    FieldScope role (fromCast property source kind) := by
  unfold fromCast
  cases kind <;>
    refine .single rfl ?_ (by simp [preorderAll, Statement.preorder, Statement.isPrelude,
      Statement.children, Statement.declared?]) <;>
    simp only [placed, placedAll, List.append_nil, List.forall_mem_cons] <;>
    exact ⟨.of_plain rfl rfl rfl, .assign_bound rfl rfl _, List.forall_mem_nil _⟩

/-- An object that is built from a text uses the local variable that its block declares first. -/
theorem fieldScope_fromText : FieldScope role (fromText property source owner) := by
  refine .single rfl ?_ (by simp [preorderAll, preorderElse, Statement.preorder,
    Statement.isPrelude, Statement.children, Statement.declared?])
  simp only [placed, placedAll, placedElse, List.append_nil, List.cons_append, List.nil_append,
    List.forall_mem_cons]
  -- the text is in scope for the test and for the object, since the declaration comes before them
  have hlocal : ∀ around : Surroundings, ∀ name ∈ [rawName],
      name ∈ (around.after (.declare rawName (.readString source property.bundleKey))).locals := by
    intro around name hname
    exact List.mem_cons.mpr (.inl (List.mem_singleton.mp hname))
  refine ⟨.of_plain rfl rfl rfl, .of_plain rfl rfl rfl, ?_, ?_, .assign_bound rfl rfl _,
    .of_plain rfl rfl rfl, List.forall_mem_nil _⟩
  · exact ⟨fun h => absurd h Bool.false_ne_true, fun h => absurd h Bool.false_ne_true,
      hlocal _⟩
  · exact ⟨fun h => absurd h Bool.false_ne_true, fun h => absurd h Bool.false_ne_true,
      hlocal _⟩

/-- However a property is filled, what is used is in scope. -/
theorem fieldScope_fromSource (hsource : role.source? = some source) : ∀ strategy : Strategy,
    FieldScope role (fromSource property source owner strategy)
  | .provider => fieldScope_fromRegistry
  | .primitive getter => fieldScope_fromBundle hsource getter
  | .str => fieldScope_fromString hsource
  | .cast kind => fieldScope_fromCast kind
  | .object => fieldScope_fromText

/-- A check uses nothing. -/
theorem fieldScope_checkFor (category : Category) :
    FieldScope role (checkFor property category owner).toList := by
  unfold checkFor
  split
  · exact .nil
  · refine .single rfl ?_ (by simp [Statement.preorder, Statement.isPrelude, Statement.children])
    exact List.forall_mem_singleton.mpr (.of_plain rfl rfl rfl)

/-- What fills a field and then checks it uses what is in scope. -/
theorem fieldScope_ofField {category : Category} {plan : FieldPlan}
    (h : make property category owner = .ok plan) :
    FieldScope owner.role (Injector.ofField plan) := by
  obtain ⟨-, hstatements, hcheck⟩ := eq_of_make h
  rw [Injector.ofField, hcheck]
  refine .append ?_ (fieldScope_checkFor category)
  rcases Runtime.statementsFor_eq_ok hstatements with ⟨-, hfill⟩ | ⟨source, hsource, -, hfill⟩
  · -- a service needs no bundle, so the role of the owner may have none
    rw [hfill]
    exact fieldScope_fromRegistry
  · rw [hfill]
    exact fieldScope_fromSource hsource _

/-! ### What a field is filled from -/

/-- The registry is asked for the type, or for the explicit key and the type. -/
theorem about_fromRegistry :
    ∀ inner ∈ preorderAll (fromRegistry property), inner.About property owner := by
  unfold fromRegistry
  cases hkey : property.request.key? with
  | none => exact List.forall_mem_singleton.mpr (.assign .serviceByType)
  | some key => exact List.forall_mem_singleton.mpr (.assign (.serviceByName hkey _))

/-- A field that admits null is read without a default, any other with itself as the default. -/
theorem about_fromBundle (hsource : owner.role.source? = some source) (getter : Getter) :
    ∀ inner ∈ preorderAll (fromBundle property source getter), inner.About property owner := by
  have hbundle : (Expression.bundle source).About property owner := .bundle hsource
  unfold fromBundle
  cases property.type.nullable with
  | true =>
    have htest : ∀ key ∈ (Condition.containsKey property.bundleKey).bundleKeys,
        key = property.bundleKey := fun _ h => List.mem_singleton.mp h
    refine List.forall_mem_cons.mpr ⟨.whenPresent hbundle _, List.forall_mem_cons.mpr
      ⟨.ifThen rfl htest _ _, List.forall_mem_singleton.mpr ?_⟩⟩
    exact .assign (.read getter fun _ h => nomatch h)
  | false =>
    refine List.forall_mem_cons.mpr ⟨.whenPresent hbundle _, List.forall_mem_singleton.mpr ?_⟩
    exact .assign (.read getter fun _ h => (Option.some.inj h).symm)

theorem about_fromString (hsource : owner.role.source? = some source) :
    ∀ inner ∈ preorderAll (fromString property source), inner.About property owner := by
  refine List.forall_mem_cons.mpr ⟨.whenPresent (.bundle hsource) _,
    List.forall_mem_singleton.mpr ?_⟩
  exact .assign (.read .string fun _ h => (Option.some.inj h).symm)

theorem about_fromCast (hsource : owner.role.source? = some source) (kind : CastKind) :
    ∀ inner ∈ preorderAll (fromCast property source kind), inner.About property owner := by
  unfold fromCast
  have hassign : (Statement.assign property.name .bound).About property owner := .assign .bound
  cases kind with
  | serializable =>
    exact List.forall_mem_cons.mpr
      ⟨.whenPresent (.readSerializable hsource) _, List.forall_mem_singleton.mpr hassign⟩
  | parcelable =>
    exact List.forall_mem_cons.mpr
      ⟨.whenPresent (.readParcelable hsource) _, List.forall_mem_singleton.mpr hassign⟩

theorem about_fromText (hsource : owner.role.source? = some source) :
    ∀ inner ∈ preorderAll (fromText property source owner), inner.About property owner := by
  simp only [fromText, preorderAll, preorderElse, Statement.preorder, List.append_nil,
    List.cons_append, List.nil_append, List.forall_mem_cons]
  exact ⟨.ifThen rfl (List.forall_mem_nil _) _ _, .declare _ (.readString hsource),
    .ifThen rfl (List.forall_mem_nil _) _ _, .whenPresent (.deserialize _) _, .assign .bound,
    .log _, List.forall_mem_nil _⟩

/-- However a property is filled, its statements are about it. -/
theorem about_fromSource (hsource : owner.role.source? = some source) : ∀ strategy : Strategy,
    ∀ inner ∈ preorderAll (fromSource property source owner strategy), inner.About property owner
  | .provider => about_fromRegistry
  | .primitive getter => about_fromBundle hsource getter
  | .str => about_fromString hsource
  | .cast kind => about_fromCast hsource kind
  | .object => about_fromText hsource

theorem about_checkFor (category : Category) :
    ∀ inner ∈ preorderAll (checkFor property category owner).toList,
      inner.About property owner := by
  unfold checkFor
  split
  · exact fun inner h => absurd h List.not_mem_nil
  · exact List.forall_mem_singleton.mpr (.require _)

/-- What fills a field and then checks it is about the property. -/
theorem about_ofField {category : Category} {plan : FieldPlan}
    (h : make property category owner = .ok plan) :
    ∀ inner ∈ preorderAll (Injector.ofField plan), inner.About property owner := by
  obtain ⟨-, hstatements, hcheck⟩ := eq_of_make h
  rw [Injector.ofField, hcheck, preorderAll_append, List.forall_mem_append]
  refine ⟨?_, about_checkFor category⟩
  rcases Runtime.statementsFor_eq_ok hstatements with ⟨-, hfill⟩ | ⟨source, hsource, -, hfill⟩
  · rw [hfill]
    exact about_fromRegistry
  · rw [hfill]
    exact about_fromSource hsource _

end

end FieldPlan

/-! ### The scopes of an injector -/

/-- The prelude is two statements that use nothing. -/
theorem placed_prelude (role : Role) (owner : Owner) :
    ∀ inner ∈ placedAll .outermost (Injector.preludeFor owner),
      WellPlaced role inner.1 inner.2 := by
  simp only [Injector.preludeFor, placedAll, placed, List.append_nil, List.singleton_append,
    List.forall_mem_cons]
  exact ⟨.of_plain rfl rfl rfl, .of_plain rfl rfl rfl, List.forall_mem_nil _⟩

/-- Statements that can follow others can follow the prelude. -/
theorem FieldScope.after_prelude {role : Role} {statements : List Statement}
    (h : FieldScope role statements) (owner : Owner) :
    WellScoped role (Injector.preludeFor owner ++ statements) := by
  have hquiet : declaredIn (Injector.preludeFor owner) = [] := by simp [Injector.preludeFor]
  refine ⟨?_, ?_, ?_⟩
  · rw [placedAll_append hquiet, List.forall_mem_append]
    exact ⟨placed_prelude role owner, h.placed⟩
  · rw [declaredIn_append, hquiet, List.nil_append]
    exact h.declared
  · rw [preorderAll_append, List.forall_mem_append]
    refine ⟨?_, h.inner⟩
    simp [Injector.preludeFor, preorderAll, Statement.preorder, Statement.children]

section

variable {settings : Settings} {properties : List Property} {injectors : List Injector}
  {injector : Injector}

/-- What fills the fields of an injector and checks them uses what is in scope. -/
theorem fieldScope_of_mem (h : injectorsOf settings properties = .ok injectors)
    (hmem : injector ∈ injectors) :
    FieldScope injector.owner.role (injector.fields.flatMap Injector.ofField) := by
  refine .flatMap fun plan hplan => ?_
  obtain ⟨property, -, hmade⟩ := exists_mem_zip_of_forall₂ (planned_of_mem h hmem).flip hplan
  exact FieldPlan.fieldScope_ofField hmade

/-- **The statements of an injector are well scoped**, at every depth: what is read is read from the
bundle of the owner's role, bound values are checked ones, and local variables are declared before
they are used and once in a block.  The prelude comes first and only there, and then the statements
of each property in turn, which are about that property. -/
theorem wellScoped_of_mem (h : injectorsOf settings properties = .ok injectors)
    (hmem : injector ∈ injectors) :
    WellScoped injector.owner.role injector.statements ∧
    (placedAll .outermost injector.statements).map Prod.snd = preorderAll injector.statements ∧
    injector.statements =
      .resolveDeserializer ::
        .bindTarget injector.owner.asType (Injector.wrongTarget injector.owner) ::
          injector.fields.flatMap Injector.ofField ∧
    (∀ inner ∈ preorderAll (injector.fields.flatMap Injector.ofField),
      inner.isPrelude = false) ∧
    List.Forall₂
      (fun property plan => plan.field = property.name ∧
        ∀ inner ∈ preorderAll (Injector.ofField plan), inner.About property injector.owner)
      (propertiesOf injector.owner.name properties) injector.fields := by
  have hfields := fieldScope_of_mem h hmem
  have hstatements : injector.statements =
      Injector.preludeFor injector.owner ++ injector.fields.flatMap Injector.ofField := by
    rw [Injector.statements, prelude_of_mem h hmem]
  refine ⟨?_, map_snd_placedAll _ _, hstatements, hfields.noPrelude, ?_⟩
  · rw [hstatements]
    exact hfields.after_prelude injector.owner
  · refine (planned_of_mem h hmem).imp fun property plan hmade => ?_
    exact ⟨(FieldPlan.eq_of_make hmade).1, FieldPlan.about_ofField hmade⟩

end

/-- Two objects of a fragment that are built from texts, the first with a key of its own. -/
def twoObjects : List Property :=
  [⟨"model", .ofName "y.Model", .visible, some ⟨"x.Main", none, .fragment, none⟩,
      ⟨some "key", true, none⟩⟩,
    ⟨"other", .ofName "y.Other", .visible, some ⟨"x.Main", none, .fragment, none⟩, .plain⟩]

/-- Both objects are built from a local variable of the same name, each in scope in its own block
only, and the one that has a key of its own is still assigned to its field. -/
theorem wellScoped_twoObjects :
    ∃ injector, injectorsOf {} twoObjects = .ok [injector] ∧
      WellScoped .fragment injector.statements ∧
      (injector.fields.map fun plan =>
          (preorderAll (Injector.ofField plan)).filterMap Statement.declared?) =
        [[FieldPlan.rawName], [FieldPlan.rawName]] ∧
      (injector.fields.map fun plan =>
          (preorderAll (Injector.ofField plan)).flatMap Statement.bundleKeys) =
        [["key"], ["other"]] ∧
      (injector.fields.map fun plan =>
          (preorderAll (Injector.ofField plan)).filterMap Statement.target?) =
        [["model", "model"], ["other"]] := by
  have hmade : ∃ injector, injectorsOf {} twoObjects = .ok [injector] ∧
      injector.owner.role = .fragment ∧
      (injector.fields.map fun plan =>
          (preorderAll (Injector.ofField plan)).filterMap Statement.declared?) =
        [[FieldPlan.rawName], [FieldPlan.rawName]] ∧
      (injector.fields.map fun plan =>
          (preorderAll (Injector.ofField plan)).flatMap Statement.bundleKeys) =
        [["key"], ["other"]] ∧
      (injector.fields.map fun plan =>
          (preorderAll (Injector.ofField plan)).filterMap Statement.target?) =
        [["model", "model"], ["other"]] := ⟨_, rfl, rfl, rfl, rfl, rfl⟩
  obtain ⟨injector, hmade, hrole, hnames⟩ := hmade
  have hscoped := (wellScoped_of_mem hmade List.mem_cons_self).1
  rw [hrole] at hscoped
  exact ⟨injector, hmade, hscoped, hnames⟩

end Wiring
