import Wiring.Proofs.OwnerFiles
import Wiring.Proofs.Spelling
import Wiring.Proofs.UnitNames

/-!
# Which identifiers are quoted

The writer puts the name of the class and the names of fields between backticks where they are no
plain identifiers.  Qualified names it writes as they are: in the package line, in imports and where
a type is named.  So a file consists of identifiers exactly if every segment of the package, of its
imports and of the names in it, as they are spelled, is an identifier already.

## Main definitions

* `IsIdentifier` — a word that is plain or stands between backticks.
* `nameParts` — the segments of a qualified name.
* `identifiersIn` — the words of a layout that come from names.

## Main results

* `isIdentifier_identifier` — what is quoted where needed is an identifier.
* `fullNamesIn_injectorLines` — the package and the imports are the names that are written in full.
* `identifiers_iff` — **when a file consists of identifiers.**
-/

namespace Wiring.Kotlin

/-! ### Identifiers -/

/-- The word is a plain identifier, or it stands between backticks. -/
def IsIdentifier (word : String) : Prop :=
  isPlain word = true ∨ ∃ inner, word = "`" ++ inner ++ "`"

/-- What is quoted where needed is an identifier. -/
theorem isIdentifier_identifier (name : String) : IsIdentifier (identifier name) := by
  unfold identifier
  split
  · next hplain => exact .inl hplain
  · exact .inr ⟨name, rfl⟩

/-- The segments of a qualified name. -/
def nameParts (name : String) : List String :=
  (Text.segments '.' name.toList).map String.ofList

/-- Every segment of the name is an identifier. -/
def MadeOfIdentifiers (name : String) : Prop := ∀ part ∈ nameParts name, IsIdentifier part

theorem dot_not_mem_simpleName (name : String) : '.' ∉ (simpleName name).toList := by
  rw [← isDotted_iff, isDotted_simpleName]
  exact Bool.false_ne_true

theorem nameParts_simpleName (name : String) : nameParts (simpleName name) = [simpleName name] := by
  rw [nameParts, Text.segments_of_not_mem (dot_not_mem_simpleName name), List.map_singleton,
    String.ofList_toList]

/-- The simple name is the last segment. -/
theorem simpleName_mem_nameParts (name : String) : simpleName name ∈ nameParts name := by
  by_cases hdotted : isDotted name = true
  · have hcut : name.toList = (packageOf name).toList ++ '.' :: (simpleName name).toList := by
      conv_lhs => rw [eq_packageOf_append_simpleName hdotted]
      rw [String.toList_append, String.toList_append, List.append_assoc]
      rfl
    rw [nameParts, hcut, Text.segments_append,
      Text.segments_of_not_mem (dot_not_mem_simpleName name)]
    simp
  · -- the whole name is its only segment
    rw [Bool.not_eq_true] at hdotted
    have hparts := nameParts_simpleName name
    rw [(simpleName_of_not_isDotted hdotted).1] at hparts ⊢
    rw [hparts]
    exact List.mem_cons_self

/-- A name that is made of identifiers is spelled with identifiers, short or in full. -/
theorem MadeOfIdentifiers.spellName {name : String} (h : MadeOfIdentifiers name)
    (short : NameSet) : MadeOfIdentifiers (Kotlin.spellName short name) := by
  unfold Kotlin.spellName
  split
  · intro part hpart
    rw [nameParts_simpleName, List.mem_singleton] at hpart
    rw [hpart]
    exact h _ (simpleName_mem_nameParts name)
  · exact h

/-! ### The words of a layout -/

/-- The words of a piece that come from names. -/
def Piece.identifiers (short : NameSet) : Piece → List String
  | .text _ => []
  | .name qualified => nameParts (spellName short qualified)
  | .full qualified => nameParts qualified
  | .identifier plain => [Kotlin.identifier plain]
  | .literal _ => []

/-- The words of some lines that come from names. -/
def identifiersIn (short : NameSet) (lines : List Line) : List String :=
  lines.flatMap fun line => line.pieces.flatMap (Piece.identifiers short)

/-- The qualified name that a piece always writes in full, if it does. -/
def Piece.full? : Piece → Option String
  | .full qualified => some qualified
  | _ => none

/-- The names that a row of pieces always writes in full. -/
def fullNamesIn (pieces : List Piece) : List String := pieces.filterMap Piece.full?

/-- The names that some lines always write in full. -/
def fullNamesInLines (lines : List Line) : List String :=
  lines.flatMap fun line => fullNamesIn line.pieces

@[simp] theorem fullNamesIn_nil : fullNamesIn [] = [] := rfl

@[simp] theorem fullNamesIn_cons (piece : Piece) (rest : List Piece) :
    fullNamesIn (piece :: rest) = piece.full?.toList ++ fullNamesIn rest := by
  unfold fullNamesIn
  rw [List.filterMap_cons]
  cases piece.full? <;> rfl

@[simp] theorem fullNamesIn_append (first second : List Piece) :
    fullNamesIn (first ++ second) = fullNamesIn first ++ fullNamesIn second :=
  List.filterMap_append

@[simp] theorem fullNamesInLines_nil : fullNamesInLines [] = [] := rfl

@[simp] theorem fullNamesInLines_cons (line : Line) (rest : List Line) :
    fullNamesInLines (line :: rest) = fullNamesIn line.pieces ++ fullNamesInLines rest :=
  List.flatMap_cons

@[simp] theorem fullNamesInLines_append (first second : List Line) :
    fullNamesInLines (first ++ second) = fullNamesInLines first ++ fullNamesInLines second :=
  List.flatMap_append

theorem Piece.forall_identifiers (short : NameSet) (piece : Piece) :
    (∀ word ∈ piece.identifiers short, IsIdentifier word) ↔
      (∀ name ∈ piece.full?.toList, MadeOfIdentifiers name) ∧
        ∀ name ∈ piece.name?.toList, MadeOfIdentifiers (spellName short name) := by
  cases piece with
  | identifier plain => simp [identifiers, full?, name?, isIdentifier_identifier]
  | _ => simp [identifiers, full?, name?, MadeOfIdentifiers]

theorem forall_identifiers_row (short : NameSet) (pieces : List Piece) :
    (∀ word ∈ pieces.flatMap (Piece.identifiers short), IsIdentifier word) ↔
      (∀ name ∈ fullNamesIn pieces, MadeOfIdentifiers name) ∧
        ∀ name ∈ namesIn pieces, MadeOfIdentifiers (spellName short name) := by
  induction pieces with
  | nil => simp
  | cons piece rest ih =>
    rw [List.flatMap_cons, List.forall_mem_append, Piece.forall_identifiers, ih, fullNamesIn_cons,
      namesIn_cons, List.forall_mem_append, List.forall_mem_append, and_and_and_comm]

/-- Lines consist of identifiers exactly if the names in them do, as they are written. -/
theorem forall_identifiersIn (short : NameSet) (lines : List Line) :
    (∀ word ∈ identifiersIn short lines, IsIdentifier word) ↔
      (∀ name ∈ fullNamesInLines lines, MadeOfIdentifiers name) ∧
        ∀ name ∈ namesInLines lines, MadeOfIdentifiers (spellName short name) := by
  induction lines with
  | nil => simp [identifiersIn]
  | cons line rest ih =>
    rw [identifiersIn, List.flatMap_cons, List.forall_mem_append, forall_identifiers_row,
      ← identifiersIn, ih, fullNamesInLines_cons, namesInLines_cons, List.forall_mem_append,
      List.forall_mem_append, and_and_and_comm]

/-! ### Where names are always written in full -/

theorem fullNamesIn_commaPieces {rows : List (List Piece)}
    (h : ∀ row ∈ rows, fullNamesIn row = []) : fullNamesIn (commaPieces rows) = [] := by
  induction rows with
  | nil => rfl
  | cons row rest ih =>
    rw [List.forall_mem_cons] at h
    cases rest with
    | nil => exact h.1
    | cons next more =>
      rw [commaPieces, fullNamesIn_append, h.1, fullNamesIn_cons, ih h.2]
      · rfl
      · simp

mutual

/-- A type is not written in full for its own sake. -/
theorem fullNamesIn_typePieces : ∀ type : DeclaredType, fullNamesIn (typePieces type) = []
  | ⟨name, nullable, arguments, supertypes⟩ => by
      have harguments := fullNamesIn_commaPieces (fullNamesIn_typePiecesAll arguments)
      rw [typePieces, fullNamesIn_cons, fullNamesIn_append]
      split <;> cases nullable <;> simp [harguments, Piece.full?]

theorem fullNamesIn_typePiecesAll : ∀ types : List DeclaredType,
    ∀ row ∈ typePiecesAll types, fullNamesIn row = []
  | [] => fun _ hrow => absurd hrow List.not_mem_nil
  | type :: rest => by
      rw [typePiecesAll, List.forall_mem_cons]
      exact ⟨fullNamesIn_typePieces type, fullNamesIn_typePiecesAll rest⟩

end

theorem fullNamesIn_expressionPieces (symbols : Symbols) (value : Expression) :
    fullNamesIn (expressionPieces symbols value) = [] := by
  unfold expressionPieces registryPieces
  cases value with
  | read getter key fallback => cases fallback <;> rfl
  | _ => simp [fullNamesIn_typePieces, Piece.full?]

theorem fullNamesIn_ifPieces (condition : Condition) : fullNamesIn (ifPieces condition) = [] := by
  cases condition <;> rfl

mutual

/-- No statement writes a name in full for its own sake. -/
theorem fullNamesIn_statementLines (symbols : Symbols) : ∀ (statement : Statement) (depth : Nat),
    fullNamesInLines (statementLines symbols depth statement) = []
  | .resolveDeserializer, _ => rfl
  | .bindTarget owner message, depth => by
      simp [statementLines, bindPieces, fullNamesIn_typePieces, Piece.full?]
  | .assign field value, depth => by
      simp [statementLines, fullNamesIn_expressionPieces, Piece.full?]
  | .declare name value, depth => by
      simp [statementLines, fullNamesIn_expressionPieces, Piece.full?]
  | .whenPresent subject body, depth => by
      simp [statementLines, fullNamesIn_expressionPieces, Piece.full?,
        fullNamesIn_statementLinesAll symbols body]
  | .ifThen condition yes no, depth => by
      simp [statementLines, fullNamesIn_ifPieces, Piece.full?,
        fullNamesIn_statementLinesAll symbols yes, fullNamesIn_statementLinesElse symbols no]
  | .require field (.fatal message), _ => rfl
  | .require field (.diagnostic message), _ => rfl
  | .log message, _ => rfl

theorem fullNamesIn_statementLinesAll (symbols : Symbols) :
    ∀ (statements : List Statement) (depth : Nat),
      fullNamesInLines (statementLinesAll symbols depth statements) = []
  | [], _ => rfl
  | statement :: rest, depth => by
      rw [statementLinesAll, fullNamesInLines_append, fullNamesIn_statementLines symbols statement,
        fullNamesIn_statementLinesAll symbols rest]
      rfl

theorem fullNamesIn_statementLinesElse (symbols : Symbols) :
    ∀ (no : Option (List Statement)) (depth : Nat),
      fullNamesInLines (statementLinesElse symbols depth no) = []
  | none, _ => rfl
  | some statements, depth => by
      simp [statementLinesElse, Piece.full?, fullNamesIn_statementLinesAll symbols statements]

end

/-- The package and the imports are the names that an injector always writes in full. -/
theorem fullNamesIn_injectorLines (settings : Settings) (injector : Injector) :
    fullNamesInLines (injectorLines settings injector) =
      (if injector.owner.package = "" then [] else [injector.owner.package]) ++
        injector.imports.toList := by
  have hpackage : fullNamesInLines (packageLines injector.owner.package) =
      if injector.owner.package = "" then [] else [injector.owner.package] := by
    unfold packageLines
    split <;> rfl
  have himports : ∀ imports : List String, fullNamesInLines (importLines imports) = imports := by
    intro imports
    unfold importLines
    split
    · next hempty => rw [List.isEmpty_iff.mp hempty]; rfl
    · rw [fullNamesInLines_append, fullNamesInLines, List.flatMap_map]
      simp [Piece.full?]
  have hheader : fullNamesInLines (headerLines settings.naming.header) = [] := by
    refine List.flatMap_eq_nil_iff.mpr fun line hline => ?_
    simp only [headerLines, List.cons_append, List.mem_cons, List.mem_append, List.mem_map,
      List.not_mem_nil, or_false] at hline
    rcases hline with rfl | ⟨words, -, rfl⟩ | rfl <;> rfl
  have hframe : fullNamesInLines (frameLines settings.symbols injector) = [] := rfl
  rw [injectorLines, headLines, fullNamesInLines_append, fullNamesInLines_append,
    fullNamesInLines_append, fullNamesInLines_append, fullNamesInLines_append, hpackage, himports,
    hheader, hframe, fullNamesIn_statementLinesAll]
  simp [Piece.full?]

/-! ### Whole injectors -/

section

variable {settings : Settings} {properties : List Property} {injectors : List Injector}
  {injector : Injector}

/-- Every name in an injector is one of its unit. -/
theorem mem_unitNames_of_mem_mentionedNames (h : injectorsOf settings properties = .ok injectors)
    (hmem : injector ∈ injectors) {name : String}
    (hname : name ∈ mentionedNames settings injector) :
    name ∈ unitNames settings.symbols injector.owner.name
      (propertiesOf injector.owner.name properties) := by
  rw [mentionedNames_eq, List.mem_cons, List.mem_cons] at hname
  unfold unitNames
  rcases hname with rfl | rfl | hstatements
  · exact List.mem_cons_self
  · simp
  · obtain ⟨inner, hinner, hrecorded⟩ := recorded_of_statementLinesAll hstatements
    refine List.mem_cons_of_mem _ ((mem_neededNames_statements h hmem).mp ?_)
    exact List.mem_flatMap.mpr ⟨inner, hinner, hrecorded⟩

/-- Every name that an injector imports is one of its unit. -/
theorem mem_unitNames_of_mem_imports (h : injectorsOf settings properties = .ok injectors)
    (hmem : injector ∈ injectors) {name : String} (hname : name ∈ injector.imports) :
    name ∈ unitNames settings.symbols injector.owner.name
      (propertiesOf injector.owner.name properties) := by
  rw [eq_make_of_mem h hmem] at hname
  have hshort := (Mentions.mem_imports.mp hname).1
  exact ((mem_types_iff h hmem).mp (Mentions.mem_types_of_mem_simpleNames hshort)).2

/-- **When a file consists of identifiers.**  The text of an injector is its layout, spelled.  The
words in it that come from names are all identifiers exactly if the segments of its package, of its
imports and of the names in it, as they are spelled, are; for the name of the class and those of
fields nothing has to be asked.  So it is enough that the package and the names of the unit are made
of identifiers. -/
theorem identifiers_iff (h : injectorsOf settings properties = .ok injectors)
    (hmem : injector ∈ injectors) :
    (SourceFile.ofInjector settings injector).code =
      Text.unlines ((injectorLines settings injector).map (Line.spell injector.simpleNames)) ++
        "\n" ∧
    ((∀ word ∈ identifiersIn injector.simpleNames (injectorLines settings injector),
        IsIdentifier word) ↔
      (injector.owner.package ≠ "" → MadeOfIdentifiers injector.owner.package) ∧
      (∀ name ∈ injector.imports, MadeOfIdentifiers name) ∧
      ∀ name ∈ mentionedNames settings injector,
        MadeOfIdentifiers (spellName injector.simpleNames name)) ∧
    ((injector.owner.package ≠ "" → MadeOfIdentifiers injector.owner.package) →
      (∀ name ∈ unitNames settings.symbols injector.owner.name
        (propertiesOf injector.owner.name properties), MadeOfIdentifiers name) →
      ∀ word ∈ identifiersIn injector.simpleNames (injectorLines settings injector),
        IsIdentifier word) := by
  have hpackage : (∀ name ∈ if injector.owner.package = "" then [] else [injector.owner.package],
      MadeOfIdentifiers name) ↔
      (injector.owner.package ≠ "" → MadeOfIdentifiers injector.owner.package) := by
    by_cases hempty : injector.owner.package = ""
    · simp [hempty]
    · simp [hempty]
  have hiff : (∀ word ∈ identifiersIn injector.simpleNames (injectorLines settings injector),
        IsIdentifier word) ↔
      (injector.owner.package ≠ "" → MadeOfIdentifiers injector.owner.package) ∧
      (∀ name ∈ injector.imports, MadeOfIdentifiers name) ∧
      ∀ name ∈ mentionedNames settings injector,
        MadeOfIdentifiers (spellName injector.simpleNames name) := by
    rw [forall_identifiersIn, fullNamesIn_injectorLines, List.forall_mem_append, hpackage,
      and_assoc]
    rfl
  refine ⟨code_eq_spelled_lines settings injector, hiff, fun hown hunit => ?_⟩
  refine hiff.mpr ⟨hown, fun name hname => ?_, fun name hname => ?_⟩
  · exact hunit name (mem_unitNames_of_mem_imports h hmem hname)
  · exact (hunit name (mem_unitNames_of_mem_mentionedNames h hmem hname)).spellName _

end

theorem madeOfIdentifiers_of_plain {name : String} (h : (nameParts name).all isPlain = true) :
    MadeOfIdentifiers name :=
  fun part hpart => .inl (List.all_eq_true.mp h part hpart)

theorem not_isIdentifier {word : String} (hplain : isPlain word = false)
    (hquote : word.toList.head? ≠ some '\x60') : ¬ IsIdentifier word := by
  rintro (hagain | ⟨inner, rfl⟩)
  · rw [hplain] at hagain
    cases hagain
  · rw [String.toList_append, String.toList_append] at hquote
    exact hquote rfl

/-- A field whose name is a keyword, in a class whose name has other characters. -/
theorem identifiers_keyword_field :
    ∃ injector,
      injectorsOf terseSettings [{ screenModel "x.Main" (.ofName "y.Box") with name := "in" }] =
        .ok [injector] ∧
      injector ∈ [injector] ∧
      "`in`" ∈ identifiersIn injector.simpleNames (injectorLines terseSettings injector) ∧
      ∀ word ∈ identifiersIn injector.simpleNames (injectorLines terseSettings injector),
        IsIdentifier word := by
  have hmade : ∃ injector,
      injectorsOf terseSettings [{ screenModel "x.Main" (.ofName "y.Box") with name := "in" }] =
        .ok [injector] ∧ injector.owner = ⟨"x.Main", none, .screen, none⟩ ∧
      "`in`" ∈ identifiersIn injector.simpleNames (injectorLines terseSettings injector) :=
    ⟨_, rfl, rfl, by decide +kernel⟩
  obtain ⟨injector, hmade, howner, hquoted⟩ := hmade
  refine ⟨injector, hmade, List.mem_cons_self, hquoted, ?_⟩
  refine (identifiers_iff hmade List.mem_cons_self).2.2 ?_ ?_
  · intro _
    rw [howner]
    exact madeOfIdentifiers_of_plain (by decide +kernel)
  · intro name hname
    rw [howner] at hname
    refine madeOfIdentifiers_of_plain ?_
    revert name
    decide +kernel

/-- The cast of the target names its class as it is, whatever characters are in the name. -/
theorem not_identifiers :
    ¬ ∀ settings properties injectors injector,
      injectorsOf settings properties = .ok injectors → injector ∈ injectors →
      ∀ word ∈ identifiersIn injector.simpleNames (injectorLines settings injector),
        IsIdentifier word := by
  intro hall
  have hmade : ∃ injector,
      injectorsOf {} [intOf "id" "com.example.Main$Page" none] = .ok [injector] ∧
      "Main$Page" ∈ identifiersIn injector.simpleNames (injectorLines {} injector) :=
    ⟨_, rfl, by decide +kernel⟩
  obtain ⟨injector, hmade, hword⟩ := hmade
  exact not_isIdentifier (by decide) (by decide)
    (hall {} _ _ injector hmade List.mem_cons_self "Main$Page" hword)

end Wiring.Kotlin
