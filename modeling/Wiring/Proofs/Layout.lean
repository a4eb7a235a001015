import Mathlib.Data.List.Basic
import Wiring.Kotlin.Writer
import Wiring.SourceFile

/-!
# The layout of a written injector

A written injector is a list of lines, and a line is indentation and a row of pieces: fixed
text, identifiers, literals, and qualified names.  Only the qualified names are spelled in one
way or another, depending on which names the unit writes short; everything else, and where
which name stands, does not depend on that.  So the layout of an injector is a function of its
statements alone, and the written text is the layout with every name in it spelled.

## Main definitions

* `Piece`, `Piece.spell`, `spellPieces` — pieces of a line and their spelling.
* `Line` — a line of pieces.
* `typePieces`, `expressionPieces`, `conditionPieces` — the pieces of types, values and tests.
* `statementLines`, `statementLinesAll` — the lines of statements.
* `injectorLines` — the lines of an injector.
* `mentionedNames` — the qualified names in an injector, in the order in which they are written.

## Main results

* `writeAll_eq` — writing statements adds their lines and changes nothing else.
* `code_eq_spelled_lines` — the written text is the layout, spelled.
-/

namespace Wiring.Kotlin

/-! ### Pieces of a line -/

/-- A piece of a line. -/
inductive Piece where
  /-- Text that is written as it is. -/
  | text (words : String)
  /-- A qualified name, written short or in full as the unit has it. -/
  | name (qualified : String)
  /-- A qualified name that is always written in full. -/
  | full (qualified : String)
  /-- An identifier. -/
  | identifier (plain : String)
  /-- A string literal. -/
  | literal (words : String)
  deriving Repr, DecidableEq, Inhabited

/-- How a piece is written when the names in `short` are spelled short. -/
def Piece.spell (short : NameSet) : Piece → String
  | .text words => words
  | .name qualified => spellName short qualified
  | .full qualified => qualified
  | .identifier plain => Kotlin.identifier plain
  | .literal words => stringLiteral words

/-- The qualified name that a piece spells, if it does. -/
def Piece.name? : Piece → Option String
  | .name qualified => some qualified
  | _ => none

/-- How a row of pieces is written. -/
def spellPieces (short : NameSet) : List Piece → String
  | [] => ""
  | piece :: rest => piece.spell short ++ spellPieces short rest

/-- The qualified names spelled in a row of pieces. -/
def namesIn (pieces : List Piece) : List String := pieces.filterMap Piece.name?

@[simp] theorem spellPieces_nil (short : NameSet) : spellPieces short [] = "" := rfl

@[simp] theorem spellPieces_cons (short : NameSet) (piece : Piece) (rest : List Piece) :
    spellPieces short (piece :: rest) = piece.spell short ++ spellPieces short rest := rfl

@[simp] theorem spellPieces_append (short : NameSet) (first second : List Piece) :
    spellPieces short (first ++ second) = spellPieces short first ++ spellPieces short second := by
  induction first with
  | nil => simp
  | cons piece rest ih => simp [ih, String.append_assoc]

@[simp] theorem namesIn_append (first second : List Piece) :
    namesIn (first ++ second) = namesIn first ++ namesIn second := List.filterMap_append

@[simp] theorem namesIn_nil : namesIn [] = [] := rfl

@[simp] theorem namesIn_cons (piece : Piece) (rest : List Piece) :
    namesIn (piece :: rest) = piece.name?.toList ++ namesIn rest := by
  unfold namesIn
  rw [List.filterMap_cons]
  cases piece.name? <;> rfl

/-! ### Types -/

/-- Rows of pieces with a comma and a blank between neighbours. -/
def commaPieces : List (List Piece) → List Piece
  | [] => []
  | [pieces] => pieces
  | pieces :: rest => pieces ++ .text ", " :: commaPieces rest

mutual

/-- The pieces of a type. -/
def typePieces : DeclaredType → List Piece
  | ⟨name, nullable, arguments, _⟩ =>
      .name name ::
        ((if arguments.isEmpty then []
          else .text "<" :: commaPieces (typePiecesAll arguments) ++ [.text ">"]) ++
        (if nullable then [.text "?"] else []))

/-- The pieces of a list of types. -/
def typePiecesAll : List DeclaredType → List (List Piece)
  | [] => []
  | type :: rest => typePieces type :: typePiecesAll rest

end

theorem spell_commaPieces (short : NameSet) (rows : List (List Piece)) :
    spellPieces short (commaPieces rows) = commaSeparated (rows.map (spellPieces short)) := by
  induction rows with
  | nil => rfl
  | cons row rest ih =>
    cases rest with
    | nil => rfl
    | cons next more =>
      rw [commaPieces, spellPieces_append, spellPieces_cons, ih]
      · simp [commaSeparated, Piece.spell, String.append_assoc]
      · simp

mutual

/-- A type is written as its pieces are. -/
theorem spell_typePieces (short : NameSet) :
    ∀ type : DeclaredType, spellPieces short (typePieces type) = spellType short type
  | ⟨name, nullable, arguments, supertypes⟩ => by
      have ih := spell_typePiecesAll short arguments
      have hnull : spellPieces short (if nullable then [.text "?"] else []) =
          if nullable then "?" else "" := by
        cases nullable <;> simp [Piece.spell]
      have hargs : spellPieces short (if arguments.isEmpty then []
            else .text "<" :: commaPieces (typePiecesAll arguments) ++ [.text ">"]) =
          if arguments.isEmpty then ""
          else "<" ++ commaSeparated (spellTypes short arguments) ++ ">" := by
        by_cases h : arguments.isEmpty
        · rw [if_pos h, if_pos h, spellPieces_nil]
        · rw [if_neg h, if_neg h, spellPieces_append, spellPieces_cons, spell_commaPieces, ih]
          simp [Piece.spell]
      rw [typePieces, spellType, spellPieces_cons, spellPieces_append, hnull, hargs, Piece.spell]
      exact String.append_assoc.symm

/-- Each type of a list is written as its pieces are. -/
theorem spell_typePiecesAll (short : NameSet) :
    ∀ types : List DeclaredType,
      (typePiecesAll types).map (spellPieces short) = spellTypes short types
  | [] => rfl
  | type :: rest => by
      rw [typePiecesAll, List.map_cons, spell_typePieces short type,
        spell_typePiecesAll short rest, spellTypes]

end

/-! ### Values and tests -/

/-- The pieces of the call that yields the service registry. -/
def registryPieces (symbols : Symbols) : List Piece :=
  [.name symbols.registry, .text ".getInstance()"]

/-- The pieces of the call that writes a message to the log. -/
def logPieces (symbols : Symbols) (message : String) : List Piece :=
  [.name symbols.logFacility, .text ".e(", .literal symbols.logTag, .text ", ", .literal message,
    .text ")"]

/-- The pieces of a value. -/
def expressionPieces (symbols : Symbols) : Expression → List Piece
  | .bound => [.text "it"]
  | .bundle source => [.text (bundleText source)]
  | .read getter key none => [.text ("it." ++ getterText getter ++ "("), .literal key, .text ")"]
  | .read getter key (some field) =>
      [.text ("it." ++ getterText getter ++ "("), .literal key, .text (", " ++ boundTarget ++ "."),
        .identifier field, .text ")"]
  | .readString source key =>
      [.text (bundleText source ++ "?.getString("), .literal key, .text ")"]
  | .readSerializable source key type =>
      [.text ("(" ++ boundTarget ++ "." ++ serializableRead source ++ "("), .literal key,
        .text ") as? "] ++ typePieces type ++ [.text ")"]
  | .readParcelable source key type =>
      .text (boundTarget ++ "." ++ parcelableRead source ++ "<") :: typePieces type ++
        [.text ">(", .literal key, .text ")"]
  | .serviceByType type =>
      registryPieces symbols ++ [.text ".navigation(", .name type.name, .text "::class.java)"]
  | .serviceByName key type nullable =>
      registryPieces symbols ++ [.text ".build(", .literal key, .text ").navigation() ",
        .text (if nullable then "as?" else "as"), .text " "] ++ typePieces type
  | .deserialize raw type =>
      .text (deserializerName ++ "?.parseObject<") :: typePieces type ++
        [.text ">(", .identifier raw, .text ", (object : ", .name symbols.typeWrapper, .text "<"] ++
          typePieces type ++ [.text ">() \x7b\x7d).type)"]

/-- The pieces of a test. -/
def conditionPieces : Condition → List Piece
  | .containsKey key => [.text "it.containsKey(", .literal key, .text ")"]
  | .notNullOrEmpty name => [.text "!", .identifier name, .text ".isNullOrEmpty()"]
  | .deserializerAvailable => [.text (deserializerName ++ " != null")]
  | .fieldIsNull field => [.text (boundTarget ++ "."), .identifier field, .text " == null"]

/-- A value is written as its pieces are. -/
theorem spell_expressionPieces (d : Dialect) (value : Expression) :
    spellPieces d.short (expressionPieces d.symbols value) = d.expression value := by
  unfold expressionPieces Dialect.expression
  cases value with
  | read getter key fallback =>
    cases fallback <;>
      simp only [Piece.spell, spellPieces_nil, spellPieces_cons, String.append_empty,
        String.append_assoc]
  | _ =>
    simp only [Dialect.registry, Dialect.name, Dialect.type,
      registryPieces, Piece.spell, spell_typePieces, spellPieces_nil, spellPieces_cons,
      spellPieces_append, String.append_empty, String.append_assoc]

/-- A test is written as its pieces are, whatever is spelled short. -/
theorem spell_conditionPieces (short : NameSet) (condition : Condition) :
    spellPieces short (conditionPieces condition) = conditionText condition := by
  unfold conditionPieces conditionText
  cases condition <;>
    simp only [Piece.spell, spellPieces_nil, spellPieces_cons, String.append_empty,
      String.append_assoc]

theorem spell_logPieces (d : Dialect) (message : String) :
    spellPieces d.short (logPieces d.symbols message) = d.logCall message := by
  unfold logPieces Dialect.logCall
  simp only [Dialect.name, Piece.spell, spellPieces_nil, spellPieces_cons, String.append_empty,
    String.append_assoc]

/-! ### Lines of statements -/

/-- A line: its depth of indentation and its pieces. -/
structure Line where
  /-- The depth of indentation. -/
  depth : Nat
  /-- The pieces. -/
  pieces : List Piece
  deriving Repr, DecidableEq, Inhabited

/-- The qualified names spelled in lines. -/
def namesInLines (lines : List Line) : List String :=
  lines.flatMap fun line => namesIn line.pieces

@[simp] theorem namesInLines_nil : namesInLines [] = [] := rfl

@[simp] theorem namesInLines_cons (line : Line) (rest : List Line) :
    namesInLines (line :: rest) = namesIn line.pieces ++ namesInLines rest := List.flatMap_cons

@[simp] theorem namesInLines_append (first second : List Line) :
    namesInLines (first ++ second) = namesInLines first ++ namesInLines second :=
  List.flatMap_append

/-- How a line is written. -/
def Line.spell (short : NameSet) (line : Line) : String :=
  SourceText.indentation line.depth ++ spellPieces short line.pieces

/-- The line that opens a test. -/
def ifPieces (condition : Condition) : List Piece :=
  .text "if (" :: conditionPieces condition ++ [.text ") \x7b"]

/-- The line inside a check that has failed. -/
def failurePieces (symbols : Symbols) : Failure → List Piece
  | .fatal message => [.text "throw RuntimeException(", .literal message, .text ")"]
  | .diagnostic message => logPieces symbols message

/-- The line that looks up the service that builds objects. -/
def resolvePieces (symbols : Symbols) : List Piece :=
  .text (deserializerName ++ " = ") :: registryPieces symbols ++
    [.text ".navigation(", .name symbols.serializationService, .text "::class.java)"]

/-- The line that casts the target to the owner's type. -/
def bindPieces (owner : DeclaredType) (message : String) : List Piece :=
  .text ("val " ++ boundTarget ++ " = (" ++ targetName ++ " as? ") :: typePieces owner ++
    [.text ") ?: throw IllegalStateException(", .literal message, .text ")"]

mutual

/-- The lines of a statement at a depth. -/
def statementLines (symbols : Symbols) (depth : Nat) : Statement → List Line
  | .resolveDeserializer => [⟨depth, resolvePieces symbols⟩]
  | .bindTarget owner message => [⟨depth, bindPieces owner message⟩]
  | .assign field value =>
      [⟨depth, [.text (boundTarget ++ "."), .identifier field, .text " = "] ++
        expressionPieces symbols value⟩]
  | .declare name value =>
      [⟨depth, [.text "val ", .identifier name, .text " = "] ++ expressionPieces symbols value⟩]
  | .whenPresent subject body =>
      ⟨depth, expressionPieces symbols subject ++ [.text "?.let \x7b"]⟩ ::
        statementLinesAll symbols (depth + 1) body ++ [⟨depth, [.text "\x7d"]⟩]
  | .ifThen condition yes no =>
      ⟨depth, ifPieces condition⟩ :: statementLinesAll symbols (depth + 1) yes ++
        statementLinesElse symbols depth no ++ [⟨depth, [.text "\x7d"]⟩]
  | .require field failure =>
      [⟨depth, ifPieces (.fieldIsNull field)⟩, ⟨depth + 1, failurePieces symbols failure⟩,
        ⟨depth, [.text "\x7d"]⟩]
  | .log message => [⟨depth, logPieces symbols message⟩]

/-- The lines of statements, one after the other. -/
def statementLinesAll (symbols : Symbols) (depth : Nat) : List Statement → List Line
  | [] => []
  | statement :: rest =>
      statementLines symbols depth statement ++ statementLinesAll symbols depth rest

/-- The lines of an else branch, if there is one. -/
def statementLinesElse (symbols : Symbols) (depth : Nat) : Option (List Statement) → List Line
  | none => []
  | some statements =>
      ⟨depth, [.text "\x7d else \x7b"]⟩ :: statementLinesAll symbols (depth + 1) statements

end

theorem statementLinesAll_append (symbols : Symbols) (depth : Nat)
    (first second : List Statement) :
    statementLinesAll symbols depth (first ++ second) =
      statementLinesAll symbols depth first ++ statementLinesAll symbols depth second := by
  induction first with
  | nil => rfl
  | cons statement rest ih =>
    rw [List.cons_append, statementLinesAll, statementLinesAll, ih, List.append_assoc]

theorem spell_ifPieces (short : NameSet) (condition : Condition) :
    spellPieces short (ifPieces condition) = Dialect.ifLine condition := by
  unfold ifPieces Dialect.ifLine
  simp only [spell_conditionPieces, Piece.spell, spellPieces_nil, spellPieces_cons,
    spellPieces_append, String.append_empty, String.append_assoc]

theorem spell_failurePieces (d : Dialect) (failure : Failure) :
    spellPieces d.short (failurePieces d.symbols failure) = d.failureLine failure := by
  unfold failurePieces Dialect.failureLine
  cases failure with
  | fatal message =>
    simp only [Piece.spell, spellPieces_nil, spellPieces_cons, String.append_empty,
      String.append_assoc]
  | diagnostic message => exact spell_logPieces d message

theorem spell_resolvePieces (d : Dialect) :
    spellPieces d.short (resolvePieces d.symbols) = d.resolveLine := by
  unfold resolvePieces Dialect.resolveLine
  simp only [registryPieces, Dialect.registry, Dialect.name, Piece.spell, spellPieces_nil,
    spellPieces_cons, spellPieces_append, String.append_empty, String.append_assoc]

theorem spell_bindPieces (d : Dialect) (owner : DeclaredType) (message : String) :
    spellPieces d.short (bindPieces owner message) = d.bindLine owner message := by
  unfold bindPieces Dialect.bindLine
  simp only [Dialect.type, Piece.spell, spell_typePieces, spellPieces_nil, spellPieces_cons,
    spellPieces_append, String.append_empty, String.append_assoc]

/-! ### Writing adds lines -/

/-- The buffer with more lines, at a depth. -/
def addLines (short : NameSet) (out : SourceText) (lines : List Line) (depth : Nat) : SourceText :=
  { out with lines := out.lines ++ lines.map (Line.spell short), depth }

section

variable (short : NameSet) {out : SourceText}

@[simp] theorem addLines_depth (lines : List Line) (depth : Nat) :
    (addLines short out lines depth).depth = depth := rfl

@[simp] theorem addLines_nil : addLines short out [] out.depth = out := by simp [addLines]

@[simp] theorem addLines_addLines (first second : List Line) (depth below : Nat) :
    addLines short (addLines short out first below) second depth =
      addLines short out (first ++ second) depth := by
  simp [addLines, List.append_assoc]

/-- A whole line on a fresh buffer. -/
theorem line_eq_addLines (h : out.current = "") (pieces : List Piece) :
    out.line (spellPieces short pieces) = addLines short out [⟨out.depth, pieces⟩] out.depth := by
  rw [SourceText.line_fresh h]
  rfl

/-- A line that opens a block, on a fresh buffer. -/
theorem openBlock_eq_addLines (h : out.current = "") (pieces : List Piece) :
    out.openBlock (spellPieces short pieces) =
      addLines short out [⟨out.depth, pieces⟩] (out.depth + 1) := by
  rw [SourceText.openBlock, line_eq_addLines _ h]
  rfl

/-- A line that closes a block, on a fresh buffer. -/
theorem closeBlock_eq_addLines (h : out.current = "") (pieces : List Piece) :
    out.closeBlock (spellPieces short pieces) =
      addLines short out [⟨out.depth - 1, pieces⟩] (out.depth - 1) := by
  have hfresh : ({ out with depth := out.depth - 1 } : SourceText).current = "" := h
  rw [SourceText.closeBlock, line_eq_addLines _ hfresh]
  rfl

/-- The line of a closing brace. -/
theorem close_eq_addLines (h : out.current = "") :
    out.closeBlock "\x7d" =
      addLines short out [⟨out.depth - 1, [.text "\x7d"]⟩] (out.depth - 1) :=
  closeBlock_eq_addLines short h [.text "\x7d"]

/-- The line between two branches. -/
theorem reopen_eq_addLines (h : out.current = "") :
    out.reopenBlock "\x7d else \x7b" =
      addLines short out [⟨out.depth - 1, [.text "\x7d else \x7b"]⟩] (out.depth - 1 + 1) := by
  have hclose := closeBlock_eq_addLines short h [.text "\x7d else \x7b"]
  unfold SourceText.reopenBlock
  exact congrArg (fun written => { written with depth := written.depth + 1 }) hclose

end

mutual

/-- Writing a statement on a fresh buffer adds its lines and changes nothing else. -/
theorem write_eq (d : Dialect) : ∀ (statement : Statement) (out : SourceText),
    out.current = "" →
      d.write statement out =
        addLines d.short out (statementLines d.symbols out.depth statement) out.depth
  | .resolveDeserializer, out, h => by
      rw [Dialect.write, ← spell_resolvePieces, line_eq_addLines _ h, statementLines]
  | .bindTarget owner message, out, h => by
      rw [Dialect.write, ← spell_bindPieces, line_eq_addLines _ h, statementLines]
  | .assign field value, out, h => by
      have htext : spellPieces d.short ([.text (boundTarget ++ "."), .identifier field,
            .text " = "] ++ expressionPieces d.symbols value) =
          boundTarget ++ "." ++ identifier field ++ " = " ++ d.expression value := by
        simp only [spell_expressionPieces, Piece.spell, spellPieces_nil, spellPieces_cons,
          spellPieces_append, String.append_empty, String.append_assoc]
      rw [Dialect.write, ← htext, line_eq_addLines _ h, statementLines]
  | .declare name value, out, h => by
      have htext : spellPieces d.short ([.text "val ", .identifier name, .text " = "] ++
            expressionPieces d.symbols value) =
          "val " ++ identifier name ++ " = " ++ d.expression value := by
        simp only [spell_expressionPieces, Piece.spell, spellPieces_nil, spellPieces_cons,
          spellPieces_append, String.append_empty, String.append_assoc]
      rw [Dialect.write, ← htext, line_eq_addLines _ h, statementLines]
  | .whenPresent subject body, out, h => by
      have htext : spellPieces d.short (expressionPieces d.symbols subject ++
            [.text "?.let \x7b"]) = d.expression subject ++ "?.let \x7b" := by
        simp only [spell_expressionPieces, Piece.spell, spellPieces_nil, spellPieces_cons,
          spellPieces_append, String.append_empty]
      rw [Dialect.write, ← htext, openBlock_eq_addLines _ h, writeAll_eq d body (addLines ..) h,
        addLines_addLines, close_eq_addLines d.short (by exact h), addLines_addLines,
        statementLines]
      simp
  | .ifThen condition yes no, out, h => by
      rw [Dialect.write, ← spell_ifPieces d.short, openBlock_eq_addLines _ h,
        writeAll_eq d yes (addLines ..) h, addLines_addLines, writeElse_eq d no (addLines ..) h,
        addLines_addLines, close_eq_addLines d.short (by exact h), addLines_addLines,
        statementLines]
      simp
  | .require field failure, out, h => by
      rw [Dialect.write, ← spell_ifPieces d.short, openBlock_eq_addLines _ h,
        ← spell_failurePieces d, line_eq_addLines _ (by exact h), addLines_addLines,
        close_eq_addLines d.short (by exact h), addLines_addLines, statementLines]
      simp
  | .log message, out, h => by
      rw [Dialect.write, ← spell_logPieces, line_eq_addLines _ h, statementLines]

/-- Writing statements on a fresh buffer adds their lines and changes nothing else. -/
theorem writeAll_eq (d : Dialect) : ∀ (statements : List Statement) (out : SourceText),
    out.current = "" →
      d.writeAll statements out =
        addLines d.short out (statementLinesAll d.symbols out.depth statements) out.depth
  | [], out, _ => by rw [Dialect.writeAll, statementLinesAll, addLines_nil]
  | statement :: rest, out, h => by
      rw [Dialect.writeAll, write_eq d statement out h, writeAll_eq d rest (addLines ..) h,
        addLines_addLines, addLines_depth, statementLinesAll]

/-- Writing an else branch inside a block adds its lines and changes nothing else. -/
theorem writeElse_eq (d : Dialect) : ∀ (no : Option (List Statement)) (out : SourceText),
    out.current = "" →
      d.writeElse no out =
        addLines d.short out (statementLinesElse d.symbols (out.depth - 1) no)
          (if no.isSome then out.depth - 1 + 1 else out.depth)
  | none, out, _ => by rw [Dialect.writeElse, statementLinesElse]; simp
  | some statements, out, h => by
      rw [Dialect.writeElse, reopen_eq_addLines d.short h,
        writeAll_eq d statements (addLines ..) h, addLines_addLines, addLines_depth,
        statementLinesElse]
      rfl

end

/-! ### A whole injector -/

/-- A line of one text, not indented. -/
def textLine (words : String) : Line := ⟨0, [.text words]⟩

/-- The package line and a blank line; none in the default package. -/
def packageLines (package : String) : List Line :=
  if package = "" then [] else [⟨0, [.text "package ", .full package]⟩, ⟨0, []⟩]

/-- A line for each import and a blank line; none without imports. -/
def importLines (imports : List String) : List Line :=
  if imports.isEmpty then []
  else imports.map (fun name => ⟨0, [.text "import ", .full name]⟩) ++ [⟨0, []⟩]

/-- The comment above the class. -/
def headerLines (header : String) : List Line :=
  textLine "/**" :: (Text.linesOf header).map (fun words => textLine (" * " ++ words)) ++
    [textLine " */"]

/-- The lines above the class. -/
def headLines (settings : Settings) (injector : Injector) : List Line :=
  packageLines injector.owner.package ++ importLines injector.imports.toList ++
    headerLines settings.naming.header

/-- The pieces of the line that opens the class. -/
def classPieces (symbols : Symbols) (injector : Injector) : List Piece :=
  [.text "public class ", .identifier injector.className, .text " : ",
    .name symbols.injectorInterface, .text " \x7b"]

/-- The pieces of the member that holds the service that builds objects. -/
def memberPieces (symbols : Symbols) : List Piece :=
  [.text ("private var " ++ deserializerName ++ ": "), .name symbols.serializationService,
    .text "? = null"]

/-- The lines from the class down to the opening line of the function. -/
def frameLines (symbols : Symbols) (injector : Injector) : List Line :=
  [⟨0, classPieces symbols injector⟩, ⟨1, memberPieces symbols⟩, ⟨0, []⟩,
    ⟨1, [.text functionLine]⟩]

/-- The lines of an injector. -/
def injectorLines (settings : Settings) (injector : Injector) : List Line :=
  headLines settings injector ++ frameLines settings.symbols injector ++
    statementLinesAll settings.symbols 2 injector.statements ++
    [⟨1, [.text "\x7d"]⟩, ⟨0, [.text "\x7d"]⟩]

/-- The qualified names in an injector, in the order in which they are written. -/
def mentionedNames (settings : Settings) (injector : Injector) : List String :=
  namesInLines (injectorLines settings injector)

/-- Whole lines on a fresh buffer, each of one text. -/
theorem writeLines_eq (short : NameSet) (lines : List (List Piece)) :
    ∀ out : SourceText, out.current = "" → out.depth = 0 →
      writeLines (lines.map (spellPieces short)) out =
        addLines short out (lines.map fun pieces => ⟨0, pieces⟩) 0 := by
  induction lines with
  | nil =>
    intro out _ hdepth
    rw [List.map_nil, List.map_nil, ← hdepth, addLines_nil]
    rfl
  | cons pieces rest ih =>
    intro out h hdepth
    rw [List.map_cons, List.map_cons, writeLines, List.foldl_cons, line_eq_addLines _ h, hdepth]
    rw [← writeLines, ih (addLines ..) h rfl, addLines_addLines]
    rfl

/-- A blank line on a fresh buffer. -/
theorem newline_eq_addLines {out : SourceText} (short : NameSet) (h : out.current = "") :
    out.newline = addLines short out [⟨0, []⟩] out.depth := by
  cases out
  subst h
  rfl

/-- Writing the package line adds it. -/
theorem writePackage_eq (short : NameSet) (package : String) {out : SourceText}
    (h : out.current = "") (hdepth : out.depth = 0) :
    (if package = "" then out else (out.line ("package " ++ package)).newline) =
      addLines short out (packageLines package) 0 := by
  unfold packageLines
  by_cases hempty : package = ""
  · rw [if_pos hempty, if_pos hempty, ← hdepth, addLines_nil]
  · have htext : "package " ++ package =
        spellPieces short [.text "package ", .full package] := by
      simp only [Piece.spell, spellPieces_cons, spellPieces_nil, String.append_empty]
    rw [if_neg hempty, if_neg hempty, htext, line_eq_addLines _ h, hdepth,
      newline_eq_addLines short (by exact h), addLines_addLines]
    rfl

/-- Writing the imports adds them. -/
theorem writeImports_eq (short : NameSet) (imports : List String) {out : SourceText}
    (h : out.current = "") (hdepth : out.depth = 0) :
    (if imports.isEmpty then out
      else (writeLines (imports.map ("import " ++ ·)) out).newline) =
      addLines short out (importLines imports) 0 := by
  unfold importLines
  by_cases hempty : imports.isEmpty
  · rw [if_pos hempty, if_pos hempty, ← hdepth, addLines_nil]
  · have htexts : imports.map ("import " ++ ·) =
        (imports.map fun name => [.text "import ", .full name]).map (spellPieces short) := by
      rw [List.map_map]
      refine List.map_congr_left fun name _ => ?_
      simp only [Function.comp, Piece.spell, spellPieces_cons, spellPieces_nil,
        String.append_empty]
    rw [if_neg hempty, if_neg hempty, htexts, writeLines_eq short _ out h hdepth,
      newline_eq_addLines short (by exact h), addLines_addLines, List.map_map]
    rfl

/-- Writing the header adds its lines. -/
theorem writeHeader_eq (short : NameSet) (header : String) {out : SourceText}
    (h : out.current = "") (hdepth : out.depth = 0) :
    (writeLines ((Text.linesOf header).map (" * " ++ ·)) (out.line "/**")).line " */" =
      addLines short out (headerLines header) 0 := by
  have hopen : out.line "/**" = addLines short out [textLine "/**"] 0 := by
    have hline := line_eq_addLines short h [.text "/**"]
    rwa [hdepth] at hline
  have hclose : ∀ lines, (addLines short out lines 0).line " */" =
      addLines short out (lines ++ [textLine " */"]) 0 := by
    intro lines
    have hfresh : (addLines short out lines 0).current = "" := h
    have hline := line_eq_addLines short hfresh [.text " */"]
    rwa [addLines_depth, addLines_addLines] at hline
  have hwords : (Text.linesOf header).map (" * " ++ ·) =
      ((Text.linesOf header).map fun words => [.text (" * " ++ words)]).map
        (spellPieces short) := by
    rw [List.map_map]
    refine List.map_congr_left fun words _ => ?_
    simp only [Function.comp, Piece.spell, spellPieces_cons, spellPieces_nil, String.append_empty]
  rw [hopen, hwords, writeLines_eq short _ (addLines ..) h rfl, addLines_addLines, hclose,
    List.map_map]
  rfl

/-- Writing the package line, the imports and the header adds their lines. -/
theorem writeHead_eq (short : NameSet) (settings : Settings) (injector : Injector) :
    writeHead settings injector .empty =
      addLines short .empty (headLines settings injector) 0 := by
  unfold writeHead
  dsimp only
  rw [writePackage_eq short _ rfl rfl, writeImports_eq short _ (by rfl) (by rfl),
    addLines_addLines, writeHeader_eq short _ (by rfl) (by rfl), addLines_addLines]
  rfl

/-! ### Fields and their marks -/

/-- The marks of fields, the first of which starts at line `start`. -/
def fieldMarks (symbols : Symbols) (depth : Nat) : Nat → List FieldPlan → List FieldMark
  | _, [] => []
  | start, plan :: rest =>
      ⟨start, plan.field⟩ ::
        fieldMarks symbols depth
          (start + (statementLinesAll symbols depth (Injector.ofField plan)).length) rest

/-- Writing fields on a fresh buffer adds their lines and marks. -/
theorem foldl_writeField_eq (d : Dialect) (fields : List FieldPlan) :
    ∀ out : SourceText, out.current = "" →
      fields.foldl d.writeField out =
        { addLines d.short out
            (statementLinesAll d.symbols out.depth (fields.flatMap Injector.ofField)) out.depth with
          marks := out.marks ++ fieldMarks d.symbols out.depth out.lines.length fields } := by
  induction fields with
  | nil => intro out _; simp [addLines, statementLinesAll, fieldMarks]
  | cons plan rest ih =>
    intro out h
    have hfield : d.writeField out plan =
        addLines d.short (out.markField plan.field)
          (statementLinesAll d.symbols out.depth (Injector.ofField plan)) out.depth := by
      have hfresh : (out.markField plan.field).current = "" := h
      rw [Dialect.writeField, writeAll_eq d _ _ hfresh, writeAll_eq d _ _ (by exact h),
        addLines_addLines, Injector.ofField, statementLinesAll_append]
      rfl
    rw [List.foldl_cons, hfield, ih _ (by exact h), List.flatMap_cons, statementLinesAll_append]
    simp [addLines, fieldMarks, SourceText.markField, List.append_assoc]

/-! ### The written text -/

theorem spell_classPieces (d : Dialect) (injector : Injector) :
    spellPieces d.short (classPieces d.symbols injector) = classLine d injector := by
  unfold classPieces classLine
  simp only [Dialect.name, Piece.spell, spellPieces_nil, spellPieces_cons, String.append_empty,
    String.append_assoc]

theorem spell_memberPieces (d : Dialect) :
    spellPieces d.short (memberPieces d.symbols) = memberLine d := by
  unfold memberPieces memberLine
  simp only [Dialect.name, Piece.spell, spellPieces_nil, spellPieces_cons, String.append_empty,
    String.append_assoc]

/-- Writing the lines from the class down to the function adds them. -/
theorem writeFrame_eq (d : Dialect) (injector : Injector) {out : SourceText}
    (h : out.current = "") (hdepth : out.depth = 0) :
    (((out.openBlock (classLine d injector)).line (memberLine d)).newline).openBlock functionLine =
      addLines d.short out (frameLines d.symbols injector) 2 := by
  have hfunction : functionLine = spellPieces d.short [.text functionLine] := by
    rw [spellPieces_cons, spellPieces_nil, String.append_empty, Piece.spell]
  rw [← spell_classPieces, openBlock_eq_addLines _ h, hdepth, ← spell_memberPieces,
    line_eq_addLines _ (by exact h), addLines_addLines, newline_eq_addLines d.short (by exact h),
    addLines_addLines, hfunction, openBlock_eq_addLines _ (by exact h), addLines_addLines]
  rfl

/-- **A written injector is its layout, spelled**: the lines of the layout, with the names in
`simpleNames` spelled short, and a mark where each field starts. -/
theorem writeInjector_eq (settings : Settings) (injector : Injector) :
    writeInjector settings injector =
      { lines := (injectorLines settings injector).map (Line.spell injector.simpleNames)
        current := ""
        depth := 0
        marks := fieldMarks settings.symbols 2
          (headLines settings injector ++ frameLines settings.symbols injector ++
            statementLinesAll settings.symbols 2 injector.prelude).length injector.fields } := by
  unfold writeInjector
  dsimp only
  rw [writeHead_eq injector.simpleNames,
    writeFrame_eq ⟨settings.symbols, injector.simpleNames⟩ injector rfl rfl, addLines_addLines,
    writeAll_eq _ _ _ rfl, addLines_addLines, foldl_writeField_eq _ _ _ rfl]
  rw [close_eq_addLines injector.simpleNames rfl,
    close_eq_addLines injector.simpleNames rfl]
  simp [addLines, injectorLines, Injector.statements, statementLinesAll_append,
    SourceText.empty, List.append_assoc]

/-- The text of the file of an injector is its layout, spelled, each line ended by a line
feed. -/
theorem code_eq_spelled_lines (settings : Settings) (injector : Injector) :
    (SourceFile.ofInjector settings injector).code =
      Text.unlines ((injectorLines settings injector).map (Line.spell injector.simpleNames)) ++
        "\n" := by
  unfold SourceFile.ofInjector
  rw [writeInjector_eq]
  rfl

end Wiring.Kotlin
