import Wiring.Proofs.Layout
import Wiring.Proofs.Recording

/-!
# Which names the writer writes

The walk that records names and the writer that spells them are two recursions over the same
statements, by different rules.  Here they are compared, for each kind of value and of statement:
the writer writes what is recorded, but for one thing.  A service that is looked up by its type is
asked for by a class literal, which has no type arguments, so those are recorded and not written.

## Main definitions

* `Expression.writtenNames`, `Statement.writtenNames` — what a single value and a single statement
  make the writer write.
* `Expression.literalArguments`, `Statement.literalArguments` — the names in the type arguments that
  a class literal leaves out.

## Main results

* `namesIn_typePieces` — the names written for a type.
* `mem_namesIn_expressionPieces`, `mem_namesInLines_statementLinesAll` — the names written for
  values and for statements, wherever they stand in the trees.
* `Statement.mem_recordedNames_iff` — **what is recorded is written, or left out by a class
  literal.**
* `mentionedNames_eq` — the names in an injector.
-/

namespace Wiring

/-! ### What single values and statements write -/

/-- The names that a value makes the writer write, by its kind. -/
def Expression.writtenNames (symbols : Symbols) : Expression → List String
  | .readSerializable _ _ type => type.names
  | .readParcelable _ _ type => type.names
  | .serviceByType type => [symbols.registry, type.name]
  | .serviceByName _ type _ => symbols.registry :: type.names
  | .deserialize _ type => symbols.typeWrapper :: type.names
  | _ => []

/-- The names in the type arguments that a class literal leaves out. -/
def Expression.literalArguments : Expression → List String
  | .serviceByType type => DeclaredType.namesAll type.arguments
  | _ => []

/-- The names that a statement makes the writer write for itself, without those inside it. -/
def Statement.writtenNames (symbols : Symbols) (statement : Statement) : List String :=
  (match statement with
    | .resolveDeserializer => [symbols.registry, symbols.serializationService]
    | .bindTarget owner _ => owner.names
    | .log _ => [symbols.logFacility]
    | .require _ (.diagnostic _) => [symbols.logFacility]
    | _ => []) ++
  statement.expressions.flatMap (Expression.writtenNames symbols)

/-- The names in the type arguments that the class literals of a statement leave out. -/
def Statement.literalArguments (statement : Statement) : List String :=
  statement.expressions.flatMap Expression.literalArguments

section

variable {symbols : Symbols} {name : String}

theorem DeclaredType.mem_names_iff {type : DeclaredType} :
    name ∈ type.names ↔ name = type.name ∨ name ∈ namesAll type.arguments := by
  cases type
  rw [names, List.mem_cons]

/-- What is recorded for a value is written, or left out by a class literal. -/
theorem Expression.mem_recordedNames_iff {value : Expression} :
    (∃ type, value.type? = some type ∧ name ∈ type.names) ∨ name ∈ value.helperNames symbols ↔
      name ∈ value.writtenNames symbols ∨ name ∈ value.literalArguments := by
  cases value with
  | serviceByType type =>
    simp only [type?, helperNames, writtenNames, literalArguments, Option.some.injEq,
      exists_eq_left', DeclaredType.mem_names_iff, List.mem_cons, List.not_mem_nil, or_false]
    exact or_comm.trans or_assoc.symm
  | _ => simp [type?, helperNames, writtenNames, literalArguments, or_comm]

/-- **What is recorded for a statement is written, or left out by a class literal.** -/
theorem Statement.mem_recordedNames_iff {statement : Statement} :
    name ∈ statement.recordedNames symbols ↔
      name ∈ statement.writtenNames symbols ∨ name ∈ statement.literalArguments := by
  have hvalues : name ∈ (statement.expressions.filterMap Expression.type?).flatMap
        DeclaredType.names ∨ name ∈ statement.expressions.flatMap (Expression.helperNames symbols) ↔
      name ∈ statement.expressions.flatMap (Expression.writtenNames symbols) ∨
        name ∈ statement.literalArguments := by
    rw [mem_typeNames_iff, literalArguments]
    simp only [List.mem_flatMap, ← exists_or, ← and_or_left, Expression.mem_recordedNames_iff]
  unfold recordedNames typeNames helperNames writtenNames
  simp only [List.mem_append]
  rw [or_or_or_comm, hvalues, ← or_assoc]
  -- apart from its values a statement writes what it makes the two walks record
  refine or_congr_left (or_congr_left ?_)
  cases statement with
  | require field failure => cases failure <;> simp
  | _ => simp

end

namespace Kotlin

/-! ### The names in a row of pieces -/

theorem namesIn_commaPieces (rows : List (List Piece)) :
    namesIn (commaPieces rows) = rows.flatMap namesIn := by
  induction rows with
  | nil => rfl
  | cons row rest ih =>
    cases rest with
    | nil => simp [commaPieces]
    | cons next more =>
      have htail : namesIn (commaPieces (row :: next :: more)) =
          namesIn row ++ namesIn (commaPieces (next :: more)) := by
        rw [commaPieces, namesIn_append, namesIn_cons]
        · rfl
        · simp
      rw [htail, ih]
      rfl

mutual

/-- The names spelled in a type are the names in it. -/
theorem namesIn_typePieces : ∀ type : DeclaredType, namesIn (typePieces type) = type.names
  | ⟨name, nullable, arguments, supertypes⟩ => by
      have ih := namesIn_typePiecesAll arguments
      have hnull : namesIn (if nullable then [.text "?"] else []) = [] := by
        cases nullable <;> rfl
      have hargs : namesIn (if arguments.isEmpty then []
            else .text "<" :: commaPieces (typePiecesAll arguments) ++ [.text ">"]) =
          DeclaredType.namesAll arguments := by
        cases arguments with
        | nil => rfl
        | cons first rest =>
          have hrow : namesIn (.text "<" ::
                commaPieces (typePiecesAll (first :: rest)) ++ [.text ">"]) =
              namesIn (commaPieces (typePiecesAll (first :: rest))) ++ [] := by
            rw [namesIn_append, namesIn_cons]
            rfl
          rw [if_neg (by simp), hrow, namesIn_commaPieces, List.append_nil, ih]
      rw [typePieces, namesIn_cons, namesIn_append, hargs, hnull, List.append_nil,
        DeclaredType.names]
      rfl

/-- The names spelled in a list of types are the names in it. -/
theorem namesIn_typePiecesAll : ∀ types : List DeclaredType,
    (typePiecesAll types).flatMap namesIn = DeclaredType.namesAll types
  | [] => rfl
  | type :: rest => by
      rw [typePiecesAll, List.flatMap_cons, namesIn_typePieces type,
        namesIn_typePiecesAll rest, DeclaredType.namesAll]

end

theorem name_mem_names (type : DeclaredType) : type.name ∈ type.names :=
  DeclaredType.mem_names_iff.mpr (.inl rfl)

theorem namesIn_conditionPieces (condition : Condition) :
    namesIn (conditionPieces condition) = [] := by
  unfold conditionPieces
  cases condition <;> rfl

theorem namesIn_ifPieces (condition : Condition) : namesIn (ifPieces condition) = [] := by
  have hrow : namesIn (ifPieces condition) = namesIn (conditionPieces condition) ++ [] := by
    rw [ifPieces, namesIn_append, namesIn_cons]
    rfl
  rw [hrow, namesIn_conditionPieces, List.append_nil]

/-- The names written for a value. -/
theorem mem_namesIn_expressionPieces {symbols : Symbols} {value : Expression} {name : String} :
    name ∈ namesIn (expressionPieces symbols value) ↔ name ∈ value.writtenNames symbols := by
  unfold expressionPieces registryPieces
  cases value with
  | read getter key fallback => cases fallback <;> exact Iff.rfl
  | _ => simp [namesIn_typePieces, Expression.writtenNames, Piece.name?, or_left_comm]

/-! ### The names in the lines of statements -/

section

variable {symbols : Symbols} {name : String}

mutual

/-- The names in the lines of a statement are those that it and the statements inside it make the
writer write. -/
theorem mem_namesInLines_statementLines : ∀ (statement : Statement) (depth : Nat),
    name ∈ namesInLines (statementLines symbols depth statement) ↔
      name ∈ statement.preorder.flatMap (Statement.writtenNames symbols)
  | .resolveDeserializer, depth => by
      simp [statementLines, resolvePieces, registryPieces, Piece.name?, Statement.preorder,
        Statement.writtenNames, Statement.expressions]
  | .bindTarget owner message, depth => by
      simp [statementLines, bindPieces, namesIn_typePieces, Piece.name?, Statement.preorder,
        Statement.writtenNames, Statement.expressions]
  | .assign field value, depth => by
      simp [statementLines, mem_namesIn_expressionPieces, Piece.name?, Statement.preorder,
        Statement.writtenNames, Statement.expressions]
  | .declare local_ value, depth => by
      simp [statementLines, mem_namesIn_expressionPieces, Piece.name?, Statement.preorder,
        Statement.writtenNames, Statement.expressions]
  | .whenPresent subject body, depth => by
      -- the body is one level deeper, and which level it is plays no part
      have hbody := mem_namesInLines_statementLinesAll body (depth + 1)
      simp only [List.mem_flatMap] at hbody
      simp [statementLines, mem_namesIn_expressionPieces, Piece.name?, Statement.preorder,
        Statement.writtenNames, Statement.expressions, hbody]
  | .ifThen condition yes no, depth => by
      have hyes := mem_namesInLines_statementLinesAll yes (depth + 1)
      have hno := mem_namesInLines_statementLinesElse no depth
      simp only [List.mem_flatMap] at hyes hno
      simp [statementLines, namesIn_ifPieces, Piece.name?, Statement.preorder,
        Statement.writtenNames, Statement.expressions, hyes, hno]
  | .require field failure, depth => by
      cases failure <;>
        simp [statementLines, failurePieces, logPieces, namesIn_ifPieces, Piece.name?,
          Statement.preorder, Statement.writtenNames, Statement.expressions]
  | .log message, depth => by
      simp [statementLines, logPieces, Piece.name?, Statement.preorder, Statement.writtenNames,
        Statement.expressions]

/-- The same for a list of statements. -/
theorem mem_namesInLines_statementLinesAll : ∀ (statements : List Statement) (depth : Nat),
    name ∈ namesInLines (statementLinesAll symbols depth statements) ↔
      name ∈ (preorderAll statements).flatMap (Statement.writtenNames symbols)
  | [], _ => Iff.rfl
  | statement :: rest, depth => by
      rw [statementLinesAll, namesInLines_append, List.mem_append, preorderAll, List.flatMap_append,
        List.mem_append, mem_namesInLines_statementLines statement,
        mem_namesInLines_statementLinesAll rest]

/-- The same for an else branch. -/
theorem mem_namesInLines_statementLinesElse :
    ∀ (no : Option (List Statement)) (depth : Nat),
      name ∈ namesInLines (statementLinesElse symbols depth no) ↔
        name ∈ (preorderElse no).flatMap (Statement.writtenNames symbols)
  | none, _ => Iff.rfl
  | some statements, depth => by
      rw [statementLinesElse, namesInLines_cons, List.mem_append,
        mem_namesInLines_statementLinesAll statements]
      exact or_iff_right List.not_mem_nil

end

/-- Every name in the lines of some statements is recorded by one of them or one inside them. -/
theorem recorded_of_statementLinesAll {statements : List Statement} {depth : Nat}
    (h : name ∈ namesInLines (statementLinesAll symbols depth statements)) :
    ∃ inner ∈ preorderAll statements, name ∈ inner.recordedNames symbols := by
  obtain ⟨inner, hinner, hname⟩ :=
    List.mem_flatMap.mp ((mem_namesInLines_statementLinesAll statements depth).mp h)
  exact ⟨inner, hinner, Statement.mem_recordedNames_iff.mpr (.inl hname)⟩

end

/-! ### The names in an injector -/

theorem namesInLines_eq_nil {lines : List Line}
    (h : ∀ line ∈ lines, namesIn line.pieces = []) : namesInLines lines = [] :=
  List.flatMap_eq_nil_iff.mpr h

/-- Above the class all names are written in full. -/
theorem namesInLines_headLines (settings : Settings) (injector : Injector) :
    namesInLines (headLines settings injector) = [] := by
  have hpackage : namesInLines (packageLines injector.owner.package) = [] := by
    unfold packageLines
    split <;> rfl
  have himports : namesInLines (importLines injector.imports.toList) = [] := by
    unfold importLines
    split
    · rfl
    · rw [namesInLines_append, namesInLines_eq_nil]
      · rfl
      · intro line hline
        obtain ⟨name, -, rfl⟩ := List.mem_map.mp hline
        rfl
  have hheader : namesInLines (headerLines settings.naming.header) = [] := by
    refine namesInLines_eq_nil fun line hline => ?_
    simp only [headerLines, List.cons_append, List.mem_cons, List.mem_append, List.mem_map,
      List.not_mem_nil, or_false] at hline
    rcases hline with rfl | ⟨words, -, rfl⟩ | rfl <;> rfl
  rw [headLines, namesInLines_append, namesInLines_append, hpackage, himports, hheader]
  rfl

/-- The names in an injector are those of the frame and those of its statements. -/
theorem mentionedNames_eq (settings : Settings) (injector : Injector) :
    mentionedNames settings injector =
      settings.symbols.injectorInterface :: settings.symbols.serializationService ::
        namesInLines (statementLinesAll settings.symbols 2 injector.statements) := by
  have hframe : namesInLines (frameLines settings.symbols injector) =
      [settings.symbols.injectorInterface, settings.symbols.serializationService] := rfl
  rw [mentionedNames, injectorLines, namesInLines_append, namesInLines_append,
    namesInLines_append, namesInLines_headLines, hframe]
  simp [Piece.name?]

end Kotlin

end Wiring
