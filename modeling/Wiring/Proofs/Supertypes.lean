import Wiring.Proofs.Spelling

/-!
# Supertypes are not written

The declared types of properties stand in the statement trees with all their supertypes.  The
supertypes decide the category of a property before there is a tree; after that nothing looks at
them.  Neither the lines of a statement nor the names that it makes the analysis record change
when the supertypes are taken out of its types, at any depth of the tree and of the types, so the
file of an injector stays the same down to its last mark.

## Main definitions

* `DeclaredType.bare`, `Expression.bare`, `Statement.bare`, `FieldPlan.bare` — types, values,
  statements and plans without supertypes.

## Main results

* `statementLinesAll_bareAll` — statements are written the same without supertypes.
* `types_mentions_bare` — fields mention the same names without supertypes.
* `ofInjector_make_bare` — **a file does not depend on the supertypes in its statements.**
-/

namespace Wiring

/-! ### Without supertypes -/

namespace DeclaredType

mutual

/-- The type without its supertypes and those of its arguments, at every depth. -/
def bare : DeclaredType → DeclaredType
  | ⟨name, nullable, arguments, _⟩ => ⟨name, nullable, bareAll arguments, []⟩

/-- The types of a list without supertypes. -/
def bareAll : List DeclaredType → List DeclaredType
  | [] => []
  | t :: rest => t.bare :: bareAll rest

end

@[simp] theorem bare_name (t : DeclaredType) : t.bare.name = t.name := by
  cases t
  rw [bare]

@[simp] theorem bare_nullable (t : DeclaredType) : t.bare.nullable = t.nullable := by
  cases t
  rw [bare]

theorem bare_nonNull (t : DeclaredType) : t.nonNull.bare = t.bare.nonNull := by
  cases t
  simp only [nonNull, bare]

@[simp] theorem bare_ofName (name : String) : (ofName name).bare = ofName name := rfl

mutual

@[simp] theorem names_bare : ∀ t : DeclaredType, t.bare.names = t.names
  | ⟨name, nullable, arguments, supertypes⟩ => by
      rw [bare, names, names, namesAll_bareAll arguments]

@[simp] theorem namesAll_bareAll : ∀ ts : List DeclaredType, namesAll (bareAll ts) = namesAll ts
  | [] => rfl
  | t :: rest => by rw [bareAll, namesAll, namesAll, names_bare t, namesAll_bareAll rest]

end

end DeclaredType

/-- The value without the supertypes of its type. -/
def Expression.bare : Expression → Expression
  | .bound => .bound
  | .bundle source => .bundle source
  | .read getter key fallback => .read getter key fallback
  | .readString source key => .readString source key
  | .readSerializable source key type => .readSerializable source key type.bare
  | .readParcelable source key type => .readParcelable source key type.bare
  | .serviceByType type => .serviceByType type.bare
  | .serviceByName key type nullable => .serviceByName key type.bare nullable
  | .deserialize raw type => .deserialize raw type.bare

mutual

/-- The statement without the supertypes of the types in it and in the statements inside it. -/
def Statement.bare : Statement → Statement
  | .resolveDeserializer => .resolveDeserializer
  | .bindTarget owner message => .bindTarget owner.bare message
  | .assign field value => .assign field value.bare
  | .declare name value => .declare name value.bare
  | .whenPresent subject body => .whenPresent subject.bare (bareAll body)
  | .ifThen condition yes no => .ifThen condition (bareAll yes) (bareElse no)
  | .require field failure => .require field failure
  | .log message => .log message

/-- The statements of a list without supertypes. -/
def bareAll : List Statement → List Statement
  | [] => []
  | statement :: rest => statement.bare :: bareAll rest

/-- The statements of an else branch without supertypes, if there is one. -/
def bareElse : Option (List Statement) → Option (List Statement)
  | none => none
  | some statements => some (bareAll statements)

end

/-- The plan without the supertypes in its statements and its check. -/
def FieldPlan.bare (plan : FieldPlan) : FieldPlan :=
  { plan with statements := bareAll plan.statements, check := plan.check.map Statement.bare }

@[simp] theorem FieldPlan.bare_field (plan : FieldPlan) : plan.bare.field = plan.field := rfl

theorem bareAll_append (first second : List Statement) :
    bareAll (first ++ second) = bareAll first ++ bareAll second := by
  induction first with
  | nil => rfl
  | cons statement rest ih => rw [List.cons_append, bareAll, ih, bareAll, List.cons_append]

theorem ofField_bare (plan : FieldPlan) :
    Injector.ofField plan.bare = bareAll (Injector.ofField plan) := by
  rw [Injector.ofField, Injector.ofField, bareAll_append, FieldPlan.bare]
  cases plan.check <;> rfl

theorem flatMap_ofField_bare (fields : List FieldPlan) :
    (fields.map FieldPlan.bare).flatMap Injector.ofField =
      bareAll (fields.flatMap Injector.ofField) := by
  induction fields with
  | nil => rfl
  | cons plan rest ih =>
    rw [List.map_cons, List.flatMap_cons, List.flatMap_cons, bareAll_append, ih, ofField_bare]

/-! ### What is written -/

namespace Kotlin

mutual

@[simp] theorem typePieces_bare : ∀ t : DeclaredType, typePieces t.bare = typePieces t
  | ⟨name, nullable, arguments, supertypes⟩ => by
      have hempty : (DeclaredType.bareAll arguments).isEmpty = arguments.isEmpty := by
        cases arguments <;> rfl
      rw [DeclaredType.bare, typePieces, typePieces, typePiecesAll_bareAll arguments, hempty]

@[simp] theorem typePiecesAll_bareAll : ∀ ts : List DeclaredType,
    typePiecesAll (DeclaredType.bareAll ts) = typePiecesAll ts
  | [] => rfl
  | t :: rest => by
      rw [DeclaredType.bareAll, typePiecesAll, typePiecesAll, typePieces_bare t,
        typePiecesAll_bareAll rest]

end

@[simp] theorem expressionPieces_bare (symbols : Symbols) (value : Expression) :
    expressionPieces symbols value.bare = expressionPieces symbols value := by
  cases value with
  | read getter key fallback => rfl
  | _ => simp only [Expression.bare, expressionPieces, typePieces_bare, DeclaredType.bare_name]

section

variable {symbols : Symbols}

mutual

/-- A statement is written the same without supertypes. -/
theorem statementLines_bare : ∀ (statement : Statement) (depth : Nat),
    statementLines symbols depth statement.bare = statementLines symbols depth statement
  | .resolveDeserializer, _ => rfl
  | .bindTarget owner message, _ => by
      rw [Statement.bare, statementLines, statementLines, bindPieces, bindPieces, typePieces_bare]
  | .assign field value, _ => by
      rw [Statement.bare, statementLines, statementLines, expressionPieces_bare]
  | .declare name value, _ => by
      rw [Statement.bare, statementLines, statementLines, expressionPieces_bare]
  | .whenPresent subject body, depth => by
      rw [Statement.bare, statementLines, statementLines, expressionPieces_bare,
        statementLinesAll_bareAll body]
  | .ifThen condition yes no, depth => by
      rw [Statement.bare, statementLines, statementLines, statementLinesAll_bareAll yes,
        statementLinesElse_bareElse no]
  | .require _ _, _ => rfl
  | .log _, _ => rfl

/-- Statements are written the same without supertypes. -/
theorem statementLinesAll_bareAll : ∀ (statements : List Statement) (depth : Nat),
    statementLinesAll symbols depth (bareAll statements) =
      statementLinesAll symbols depth statements
  | [], _ => rfl
  | statement :: rest, depth => by
      rw [bareAll, statementLinesAll, statementLinesAll, statementLines_bare statement,
        statementLinesAll_bareAll rest]

/-- And so is an else branch. -/
theorem statementLinesElse_bareElse : ∀ (no : Option (List Statement)) (depth : Nat),
    statementLinesElse symbols depth (bareElse no) = statementLinesElse symbols depth no
  | none, _ => rfl
  | some statements, depth => by
      rw [bareElse, statementLinesElse, statementLinesElse, statementLinesAll_bareAll statements]

end

/-- The marks of fields are the same without supertypes. -/
theorem fieldMarks_bare (depth : Nat) (fields : List FieldPlan) (start : Nat) :
    fieldMarks symbols depth start (fields.map FieldPlan.bare) =
      fieldMarks symbols depth start fields := by
  induction fields generalizing start with
  | nil => rfl
  | cons plan rest ih =>
    rw [List.map_cons, fieldMarks, fieldMarks, ih, ofField_bare, statementLinesAll_bareAll,
      FieldPlan.bare_field]

end

end Kotlin

/-! ### What is recorded -/

mutual

/-- The statements inside a statement without supertypes are those inside it, without theirs. -/
theorem Statement.preorder_bare : ∀ statement : Statement,
    statement.bare.preorder = statement.preorder.map Statement.bare
  | .resolveDeserializer => rfl
  | .bindTarget _ _ => rfl
  | .assign _ _ => rfl
  | .declare _ _ => rfl
  | .whenPresent subject body => by
      rw [Statement.bare, Statement.preorder, Statement.preorder, List.map_cons, Statement.bare,
        preorderAll_bareAll body]
  | .ifThen condition yes no => by
      rw [Statement.bare, Statement.preorder, Statement.preorder, List.map_cons, List.map_append,
        Statement.bare, preorderAll_bareAll yes, preorderElse_bareElse no]
  | .require _ _ => rfl
  | .log _ => rfl

/-- The same for a list of statements. -/
theorem preorderAll_bareAll : ∀ statements : List Statement,
    preorderAll (bareAll statements) = (preorderAll statements).map Statement.bare
  | [] => rfl
  | statement :: rest => by
      rw [bareAll, preorderAll, preorderAll, List.map_append, Statement.preorder_bare statement,
        preorderAll_bareAll rest]

/-- The same for an else branch. -/
theorem preorderElse_bareElse : ∀ no : Option (List Statement),
    preorderElse (bareElse no) = (preorderElse no).map Statement.bare
  | none => rfl
  | some statements => by rw [bareElse, preorderElse, preorderElse, preorderAll_bareAll statements]

end

theorem Expression.type?_bare (value : Expression) :
    value.bare.type? = value.type?.map DeclaredType.bare := by
  cases value <;> rfl

theorem Expression.helperNames_bare (symbols : Symbols) (value : Expression) :
    value.bare.helperNames symbols = value.helperNames symbols := by
  cases value <;> rfl

namespace Statement

theorem expressions_bare (statement : Statement) :
    statement.bare.expressions = statement.expressions.map Expression.bare := by
  cases statement <;> rfl

theorem typeNames_bare (statement : Statement) :
    statement.bare.typeNames = statement.typeNames := by
  have hvalues : (statement.bare.expressions.filterMap Expression.type?).flatMap
        DeclaredType.names =
      (statement.expressions.filterMap Expression.type?).flatMap DeclaredType.names := by
    rw [expressions_bare, List.filterMap_map]
    simp only [Function.comp_def, Expression.type?_bare, ← List.map_filterMap, List.flatMap_map,
      DeclaredType.names_bare]
  unfold typeNames
  rw [hvalues]
  cases statement with
  | bindTarget owner message => simp only [Statement.bare, DeclaredType.names_bare]
  | _ => rfl

theorem helperNames_bare (symbols : Symbols) (statement : Statement) :
    statement.bare.helperNames symbols = statement.helperNames symbols := by
  have hvalues : statement.bare.expressions.flatMap (Expression.helperNames symbols) =
      statement.expressions.flatMap (Expression.helperNames symbols) := by
    rw [expressions_bare, List.flatMap_map]
    simp only [Expression.helperNames_bare]
  unfold helperNames
  rw [hvalues]
  cases statement <;> rfl

/-- A statement makes the analysis record the same names without supertypes. -/
theorem recordedNames_bare (symbols : Symbols) (statement : Statement) :
    statement.bare.recordedNames symbols = statement.recordedNames symbols := by
  rw [recordedNames, recordedNames, typeNames_bare, helperNames_bare]

end Statement

section

variable {settings : Settings} {owner : Owner}

/-- Fields mention the same names without supertypes. -/
theorem types_mentions_bare (symbols : Symbols) (owner : Owner) (fields : List FieldPlan) :
    (Injector.mentions symbols owner (fields.map FieldPlan.bare)).types =
      (Injector.mentions symbols owner fields).types := by
  have hprelude : bareAll (Injector.preludeFor owner) = Injector.preludeFor owner := rfl
  refine NameSet.ext fun name => ?_
  rw [mem_types_mentions, mem_types_mentions, flatMap_ofField_bare, ← hprelude, ← bareAll_append,
    preorderAll_bareAll, hprelude]
  simp only [List.mem_map, exists_exists_and_eq_and, Statement.recordedNames_bare]

/-! ### The file -/

theorem make_bare (fields : List FieldPlan) :
    Injector.make settings owner (fields.map FieldPlan.bare) =
      { Injector.make settings owner fields with fields := fields.map FieldPlan.bare } := by
  have hshort := Mentions.simpleNames_congr
    (types_mentions_bare settings.symbols owner fields) owner.package
  unfold Injector.make Mentions.imports
  dsimp only
  rw [hshort]

/-- **A file does not depend on the supertypes in its statements**: taking them out of the plans of
the fields leaves its text and its marks as they are. -/
theorem ofInjector_make_bare (fields : List FieldPlan) :
    SourceFile.ofInjector settings (.make settings owner (fields.map FieldPlan.bare)) =
      SourceFile.ofInjector settings (.make settings owner fields) := by
  have hwritten : Kotlin.writeInjector settings (.make settings owner (fields.map FieldPlan.bare)) =
      Kotlin.writeInjector settings (.make settings owner fields) := by
    rw [Kotlin.writeInjector_eq, Kotlin.writeInjector_eq, make_bare]
    have hlines : Kotlin.injectorLines settings
          { Injector.make settings owner fields with fields := fields.map FieldPlan.bare } =
        Kotlin.injectorLines settings (.make settings owner fields) := by
      unfold Kotlin.injectorLines Injector.statements
      rw [Kotlin.statementLinesAll_append, flatMap_ofField_bare,
        Kotlin.statementLinesAll_bareAll, ← Kotlin.statementLinesAll_append]
      rfl
    rw [hlines, Kotlin.fieldMarks_bare]
    rfl
  unfold SourceFile.ofInjector
  rw [hwritten]
  rfl

end

end Wiring
