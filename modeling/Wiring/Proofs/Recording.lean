import Mathlib.Data.List.Basic
import Wiring.Injector

/-!
# What the analysis records

The analysis walks through the statements of a unit twice and records names on the way.  Both
visitors go into every statement, so what they record is what the statements mention one by
one, wherever in the trees they stand, and the order of the walk plays no part.

## Main definitions

* `Statement.preorder`, `preorderAll` — all statements of a tree.
* `Statement.typeNames`, `Statement.helperNames` — what a single statement makes the two
  visitors record.

## Main results

* `Visitor.visitAll_eq_foldl` — a visitor that goes into every statement meets all of them in
  preorder.
* `mem_types_ofStatements` — the names recorded from a list of statements.
* `mem_types_mentions` — the names recorded for an injector.
-/

namespace Wiring

/-! ### Trees of statements -/

mutual

/-- A statement and all statements inside it, each before those inside it. -/
def Statement.preorder : Statement → List Statement
  | .whenPresent subject body => .whenPresent subject body :: preorderAll body
  | .ifThen condition yes no =>
      .ifThen condition yes no :: (preorderAll yes ++ preorderElse no)
  | .resolveDeserializer => [.resolveDeserializer]
  | .bindTarget owner message => [.bindTarget owner message]
  | .assign field value => [.assign field value]
  | .declare name value => [.declare name value]
  | .require field failure => [.require field failure]
  | .log message => [.log message]

/-- The statements of a list, with all statements inside them. -/
def preorderAll : List Statement → List Statement
  | [] => []
  | statement :: rest => statement.preorder ++ preorderAll rest

/-- The statements of an else branch, if there is one. -/
def preorderElse : Option (List Statement) → List Statement
  | none => []
  | some statements => preorderAll statements

end

theorem Statement.mem_preorder_self (statement : Statement) :
    statement ∈ statement.preorder := by
  cases statement <;> simp [Statement.preorder]

theorem preorderAll_append (first second : List Statement) :
    preorderAll (first ++ second) = preorderAll first ++ preorderAll second := by
  induction first with
  | nil => rfl
  | cons statement rest ih =>
    rw [List.cons_append, preorderAll, preorderAll, ih, List.append_assoc]

theorem preorderAll_flatMap {α : Type} (statementsOf : α → List Statement) (xs : List α) :
    preorderAll (xs.flatMap statementsOf) = xs.flatMap fun x => preorderAll (statementsOf x) := by
  induction xs with
  | nil => rfl
  | cons x xs ih =>
    rw [List.flatMap_cons, List.flatMap_cons, preorderAll_append, ih]

/-- The statements of lists put one after the other are those of each list. -/
theorem preorderAll_flatten (forests : List (List Statement)) :
    preorderAll forests.flatten = forests.flatMap preorderAll := by
  rw [← List.flatMap_id, preorderAll_flatMap]
  rfl

namespace Visitor

variable {σ : Type} {v : Visitor σ}

mutual

/-- A visitor that goes into every statement and does nothing on leaving meets the statements
of a tree in preorder. -/
theorem visit_eq_foldl (henter : ∀ statement s, (v.enter statement s).1 = true)
    (hleave : ∀ statement s, v.leave statement s = s) : ∀ (statement : Statement) (s : σ),
      v.visit statement s =
        statement.preorder.foldl (fun t inner => (v.enter inner t).2) s
  | .whenPresent subject body, s => by
      rw [visit, Statement.preorder, List.foldl_cons, hleave, if_pos (henter _ _),
        visitAll_eq_foldl henter hleave body]
  | .ifThen condition yes no, s => by
      rw [visit, Statement.preorder, List.foldl_cons, List.foldl_append, hleave,
        if_pos (henter _ _), visitAll_eq_foldl henter hleave yes,
        visitElse_eq_foldl henter hleave no]
  | .resolveDeserializer, s => hleave _ _
  | .bindTarget _ _, s => hleave _ _
  | .assign _ _, s => hleave _ _
  | .declare _ _, s => hleave _ _
  | .require _ _, s => hleave _ _
  | .log _, s => hleave _ _

/-- The same for a list of statements. -/
theorem visitAll_eq_foldl (henter : ∀ statement s, (v.enter statement s).1 = true)
    (hleave : ∀ statement s, v.leave statement s = s) :
    ∀ (statements : List Statement) (s : σ),
      v.visitAll statements s =
        (preorderAll statements).foldl (fun t inner => (v.enter inner t).2) s
  | [], _ => rfl
  | statement :: rest, s => by
      rw [visitAll, preorderAll, List.foldl_append, visit_eq_foldl henter hleave statement,
        visitAll_eq_foldl henter hleave rest]

/-- The same for an else branch. -/
theorem visitElse_eq_foldl (henter : ∀ statement s, (v.enter statement s).1 = true)
    (hleave : ∀ statement s, v.leave statement s = s) :
    ∀ (no : Option (List Statement)) (s : σ),
      v.visitElse no s = (preorderElse no).foldl (fun t inner => (v.enter inner t).2) s
  | none, _ => rfl
  | some statements, s => by
      rw [visitElse, preorderElse, visitAll_eq_foldl henter hleave statements]

end

end Visitor

/-! ### What one statement records -/

/-- The names in the types that a statement is about. -/
def Statement.typeNames (statement : Statement) : List String :=
  (match statement with
    | .bindTarget owner _ => owner.names
    | _ => []) ++
  (statement.expressions.filterMap Expression.type?).flatMap DeclaredType.names

/-- A name is in the types of some values if it is in the type of one of them. -/
theorem mem_typeNames_iff {values : List Expression} {name : String} :
    name ∈ (values.filterMap Expression.type?).flatMap DeclaredType.names ↔
      ∃ value ∈ values, ∃ type, value.type? = some type ∧ name ∈ type.names := by
  simp only [List.mem_flatMap, List.mem_filterMap]
  constructor
  · rintro ⟨type, ⟨value, hvalue, htype⟩, hname⟩
    exact ⟨value, hvalue, type, htype, hname⟩
  · rintro ⟨value, hvalue, type, htype, hname⟩
    exact ⟨type, ⟨value, hvalue, htype⟩, hname⟩

/-- The runtime symbol that an expression needs, if any. -/
def Expression.helperNames (symbols : Symbols) : Expression → List String
  | .serviceByType _ => [symbols.registry]
  | .serviceByName _ _ _ => [symbols.registry]
  | .deserialize _ _ => [symbols.typeWrapper]
  | _ => []

/-- The runtime symbols that a statement needs. -/
def Statement.helperNames (symbols : Symbols) (statement : Statement) : List String :=
  (match statement with
    | .resolveDeserializer => [symbols.registry, symbols.serializationService]
    | .log _ => [symbols.logFacility]
    | .require _ (.diagnostic _) => [symbols.logFacility]
    | _ => []) ++
  statement.expressions.flatMap (Expression.helperNames symbols)

/-- All names that a statement makes the analysis record, where they have a dot. -/
def Statement.recordedNames (symbols : Symbols) (statement : Statement) : List String :=
  statement.typeNames ++ statement.helperNames symbols

/-- The step from one record to the next adds the dotted names of a list, and no others. -/
def Adds (names : List String) (before after : Mentions) : Prop :=
  ∀ name, name ∈ after.types ↔ name ∈ before.types ∨ (isDotted name = true ∧ name ∈ names)

namespace Adds

variable {names more : List String} {before middle after : Mentions}

theorem refl (mentions : Mentions) : Adds [] mentions mentions := by
  intro name
  simp

theorem trans (first : Adds names before middle) (second : Adds more middle after) :
    Adds (names ++ more) before after := by
  intro name
  rw [second name, first name, List.mem_append, or_assoc, ← and_or_left]

/-- A fold whose steps add the names of one member each adds the names of all members. -/
theorem foldl {α : Type} {step : Mentions → α → Mentions} {namesOf : α → List String}
    (hstep : ∀ mentions x, Adds (namesOf x) mentions (step mentions x)) :
    ∀ (xs : List α) (mentions : Mentions),
      Adds (xs.flatMap namesOf) mentions (xs.foldl step mentions) := by
  intro xs
  induction xs with
  | nil => exact refl
  | cons x xs ih =>
    intro mentions
    rw [List.foldl_cons, List.flatMap_cons]
    exact (hstep mentions x).trans (ih (step mentions x))

/-- A name is recorded unless it has no dot. -/
theorem note (mentions : Mentions) (noted : String) :
    Adds [noted] mentions (mentions.note noted) := by
  intro name
  unfold Mentions.note
  rw [List.mem_singleton]
  by_cases h : isDotted noted = true
  · rw [if_pos h, NameSet.mem_insert]
    constructor
    · rintro (rfl | hmem)
      · exact .inr ⟨h, rfl⟩
      · exact .inl hmem
    · rintro (hmem | ⟨-, rfl⟩)
      · exact .inr hmem
      · exact .inl rfl
  · rw [if_neg h]
    constructor
    · exact .inl
    · rintro (hmem | ⟨hdotted, rfl⟩)
      · exact hmem
      · exact absurd hdotted h

theorem noteType (mentions : Mentions) (type : DeclaredType) :
    Adds type.names mentions (mentions.noteType type) := by
  have hfold := foldl note type.names mentions
  rwa [List.flatMap_singleton'] at hfold

theorem noteHelpers (symbols : Symbols) (mentions : Mentions) (value : Expression) :
    Adds (value.helperNames symbols) mentions (mentions.noteHelpers symbols value) := by
  cases value with
  | serviceByType type => exact note _ _
  | serviceByName key type nullable => exact note _ _
  | deserialize raw type => exact note _ _
  | _ => exact refl _

/-- What the walk for types adds on entering a statement. -/
theorem enter_typeVisitor (mentions : Mentions) (statement : Statement) :
    Adds statement.typeNames mentions (typeVisitor.enter statement mentions).2 := by
  unfold typeVisitor Statement.typeNames
  refine trans ?_ (foldl noteType _ _)
  cases statement with
  | bindTarget owner message => exact noteType mentions owner
  | _ => exact refl mentions

/-- What the walk for runtime symbols adds on entering a statement. -/
theorem enter_runtimeVisitor (symbols : Symbols) (mentions : Mentions) (statement : Statement) :
    Adds (statement.helperNames symbols) mentions
      ((runtimeVisitor symbols).enter statement mentions).2 := by
  unfold runtimeVisitor Statement.helperNames
  refine trans ?_ (foldl (noteHelpers symbols) _ _)
  cases statement with
  | resolveDeserializer =>
    have hregistry : Adds [symbols.registry] mentions (mentions.noteRegistry symbols) := note _ _
    exact hregistry.trans (note _ symbols.serializationService)
  | log message => exact note _ _
  | require field failure =>
    cases failure with
    | fatal message => exact refl mentions
    | diagnostic message => exact note _ _
  | _ => exact refl mentions

/-- The two walks over a list of statements add what the statements of its trees mention. -/
theorem ofStatements (symbols : Symbols) (mentions : Mentions) (statements : List Statement) :
    Adds ((preorderAll statements).flatMap (Statement.recordedNames symbols)) mentions
      (Mentions.ofStatements (standardVisitors symbols) mentions statements) := by
  have htypes := foldl enter_typeVisitor (preorderAll statements) mentions
  have hruntime := foldl (enter_runtimeVisitor symbols) (preorderAll statements)
    (typeVisitor.visitAll statements mentions)
  rw [← Visitor.visitAll_eq_foldl (fun _ _ => rfl) fun _ _ => rfl] at htypes hruntime
  -- one walk records after the other, yet the names form one set
  intro name
  refine (htypes.trans hruntime name).trans ?_
  simp only [Statement.recordedNames, List.mem_append, List.mem_flatMap, ← exists_or,
    ← and_or_left]

/-- The walks over a plan add what its statements and its check mention. -/
theorem ofField (symbols : Symbols) (mentions : Mentions) (plan : FieldPlan) :
    Adds ((preorderAll (Injector.ofField plan)).flatMap (Statement.recordedNames symbols)) mentions
      (plan.check.elim
        (Mentions.ofStatements (standardVisitors symbols) mentions plan.statements)
        fun check => Mentions.ofStatements (standardVisitors symbols)
          (Mentions.ofStatements (standardVisitors symbols) mentions plan.statements)
          [check]) := by
  have hfilled := ofStatements symbols mentions plan.statements
  rw [Injector.ofField, preorderAll_append, List.flatMap_append]
  cases plan.check with
  | none => exact hfilled.trans (refl _)
  | some check => exact hfilled.trans (ofStatements symbols _ [check])

/-- The walks over an injector add what its prelude and its plans mention, and the interface
that it implements is added. -/
theorem mentions (symbols : Symbols) (owner : Owner) (fields : List FieldPlan) :
    Adds ((preorderAll (Injector.preludeFor owner)).flatMap (Statement.recordedNames symbols) ++
        (fields.flatMap fun plan =>
          (preorderAll (Injector.ofField plan)).flatMap (Statement.recordedNames symbols)) ++
        [symbols.injectorInterface])
      .none (Injector.mentions symbols owner fields) := by
  unfold Injector.mentions
  refine ((ofStatements symbols .none _).trans (foldl ?_ fields _)).trans (note _ _)
  intro mentions plan
  have hplan := ofField symbols mentions plan
  cases hcheck : plan.check with
  | none => rwa [hcheck] at hplan
  | some check => rwa [hcheck] at hplan

end Adds

/-! ### What an injector records -/

/-- The names recorded for an injector: those that its statements mention, wherever they stand,
and the interface that it implements. -/
theorem mem_types_mentions {symbols : Symbols} {owner : Owner} {fields : List FieldPlan}
    {name : String} :
    name ∈ (Injector.mentions symbols owner fields).types ↔
      isDotted name = true ∧ (name = symbols.injectorInterface ∨
        ∃ statement ∈ preorderAll (Injector.preludeFor owner ++ fields.flatMap Injector.ofField),
          name ∈ statement.recordedNames symbols) := by
  have hnone : name ∉ Mentions.none.types := NameSet.not_mem_empty name
  rw [Adds.mentions symbols owner fields name, or_iff_right hnone, preorderAll_append,
    preorderAll_flatMap, ← List.flatMap_assoc, ← List.flatMap_append, List.mem_append,
    List.mem_singleton, List.mem_flatMap, or_comm]

end Wiring
