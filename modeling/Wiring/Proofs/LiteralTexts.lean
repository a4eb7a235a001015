import Mathlib.Data.List.Basic
import Wiring.Proofs.InlineText

/-!
# Texts in string literals

The keys of arguments, the messages and the tag of the log may be any texts.  Generated code has
them between quotation marks, with a backslash before each character that would mean something
else there.  A literal is a row of units, each of them a character or a backslash with the
character after it, and every character of the text is written as one unit; so a reader is back in
step after each of them, whatever follows.  The texts of an injector are written nowhere else:
with other texts it is the same code, but for what stands inside its literals.

## Main definitions

* `literalUnits` — the units of a literal.
* `Statement.mapTexts`, `Injector.mapTexts` — the same statements with other texts.

## Main results

* `readInside?_escapeChar`, `literalUnits_escapeChar` — one character of a text.
* `statementLinesAll_mapTexts`, `injectorLines_mapTexts` — other texts, written in the same lines.
* `stringLiteral_closed` — **no text gets out of its literal.**
-/

namespace Wiring

/-! ### Other texts -/

/-- The value with another key. -/
def Expression.mapTexts (change : String → String) : Expression → Expression
  | .bound => .bound
  | .bundle source => .bundle source
  | .read getter key fallback => .read getter (change key) fallback
  | .readString source key => .readString source (change key)
  | .readSerializable source key type => .readSerializable source (change key) type
  | .readParcelable source key type => .readParcelable source (change key) type
  | .serviceByType type => .serviceByType type
  | .serviceByName key type nullable => .serviceByName (change key) type nullable
  | .deserialize raw type => .deserialize raw type

/-- The test with another key. -/
def Condition.mapTexts (change : String → String) : Condition → Condition
  | .containsKey key => .containsKey (change key)
  | .notNullOrEmpty name => .notNullOrEmpty name
  | .deserializerAvailable => .deserializerAvailable
  | .fieldIsNull field => .fieldIsNull field

/-- The failed check with another message. -/
def Failure.mapTexts (change : String → String) : Failure → Failure
  | .fatal message => .fatal (change message)
  | .diagnostic message => .diagnostic (change message)

mutual

/-- The statement with other keys and messages, those of the statements inside it included. -/
def Statement.mapTexts (change : String → String) : Statement → Statement
  | .resolveDeserializer => .resolveDeserializer
  | .bindTarget owner message => .bindTarget owner (change message)
  | .assign field value => .assign field (value.mapTexts change)
  | .declare name value => .declare name (value.mapTexts change)
  | .whenPresent subject body => .whenPresent (subject.mapTexts change) (mapTextsAll change body)
  | .ifThen condition yes no =>
      .ifThen (condition.mapTexts change) (mapTextsAll change yes) (mapTextsElse change no)
  | .require field failure => .require field (failure.mapTexts change)
  | .log message => .log (change message)

/-- The statements with other keys and messages. -/
def mapTextsAll (change : String → String) : List Statement → List Statement
  | [] => []
  | statement :: rest => statement.mapTexts change :: mapTextsAll change rest

/-- The else branch with other keys and messages, if there is one. -/
def mapTextsElse (change : String → String) : Option (List Statement) → Option (List Statement)
  | none => none
  | some statements => some (mapTextsAll change statements)

end

/-- The runtime symbols with another tag of the log. -/
def Symbols.mapTexts (change : String → String) (symbols : Symbols) : Symbols :=
  { symbols with logTag := change symbols.logTag }

/-- The settings with another tag of the log. -/
def Settings.mapTexts (change : String → String) (settings : Settings) : Settings :=
  { settings with symbols := settings.symbols.mapTexts change }

/-- The plan with other keys and messages. -/
def FieldPlan.mapTexts (change : String → String) (plan : FieldPlan) : FieldPlan :=
  { plan with
    statements := mapTextsAll change plan.statements
    check := plan.check.map (Statement.mapTexts change) }

/-- The injector with other keys and messages. -/
def Injector.mapTexts (change : String → String) (injector : Injector) : Injector :=
  { injector with
    prelude := mapTextsAll change injector.prelude
    fields := injector.fields.map (FieldPlan.mapTexts change) }

theorem mapTextsAll_append (change : String → String) (first second : List Statement) :
    mapTextsAll change (first ++ second) =
      mapTextsAll change first ++ mapTextsAll change second := by
  induction first with
  | nil => rfl
  | cons statement rest ih => rw [List.cons_append, mapTextsAll, ih, mapTextsAll, List.cons_append]

theorem Injector.ofField_mapTexts (change : String → String) (plan : FieldPlan) :
    ofField (plan.mapTexts change) = mapTextsAll change (ofField plan) := by
  rw [ofField, ofField, mapTextsAll_append]
  unfold FieldPlan.mapTexts
  cases plan.check <;> rfl

theorem Injector.statements_mapTexts (change : String → String) (injector : Injector) :
    (injector.mapTexts change).statements = mapTextsAll change injector.statements := by
  have hfields : ∀ plans : List FieldPlan,
      (plans.map (FieldPlan.mapTexts change)).flatMap ofField =
        mapTextsAll change (plans.flatMap ofField) := by
    intro plans
    induction plans with
    | nil => rfl
    | cons plan rest ih =>
      rw [List.map_cons, List.flatMap_cons, List.flatMap_cons, mapTextsAll_append, ih,
        ofField_mapTexts]
  rw [statements, statements, mapTextsAll_append, ← hfields]
  rfl

namespace Kotlin

/-! ### One character of a text -/

/-- The units of a literal: a backslash with the character after it, or any other character. -/
def literalUnits : List Char → List (List Char)
  | [] => []
  | '\\' :: c :: rest => ['\\', c] :: literalUnits rest
  | c :: rest => [c] :: literalUnits rest

/-- What is written for a character is read as that character, whatever follows. -/
theorem readInside?_escapeChar (c : Char) (rest : List Char) :
    readInside? (escapeChar c ++ rest) =
      (readInside? rest).map fun read => (c :: read.1, read.2) := by
  rcases escapeChar_cases c with ⟨hquote, hbackslash, -, -, -, hself⟩ | ⟨letter, hletter, hback⟩
  · rw [hself, List.singleton_append, readInside?]
    · cases readInside? rest <;> rfl
    · exact fun h => hquote h
    · exact fun _ _ h => absurd h hbackslash
  · rw [hletter, List.cons_append, List.singleton_append, readInside?, hback]
    cases readInside? rest <;> rfl

/-- What is written for a character is one unit, whatever follows. -/
theorem literalUnits_escapeChar (c : Char) (rest : List Char) :
    literalUnits (escapeChar c ++ rest) = escapeChar c :: literalUnits rest := by
  rcases escapeChar_cases c with ⟨-, hbackslash, -, -, -, hself⟩ | ⟨letter, hletter, -⟩
  · rw [hself, List.singleton_append, literalUnits]
    exact fun _ _ h => absurd h hbackslash
  · rw [hletter]
    rfl

/-- No character is written as a dollar sign alone. -/
theorem escapeChar_ne_dollar (c : Char) : escapeChar c ≠ ['$'] := by
  rcases escapeChar_cases c with ⟨-, -, hdollar, -, -, hself⟩ | ⟨letter, hletter, -⟩
  · rw [hself]
    simpa using hdollar
  · rw [hletter]
    simp

/-! ### A whole literal -/

/-- A literal is read as its text, and what follows it is left. -/
theorem readLiteral?_stringLiteral (text : String) (rest : List Char) :
    readLiteral? ((stringLiteral text).toList ++ rest) = some (text.toList, rest) := by
  have hinside : ∀ cs : List Char,
      readInside? (cs.flatMap escapeChar ++ '"' :: rest) = some (cs, rest) := by
    intro cs
    induction cs with
    | nil => rfl
    | cons c cs ih =>
      -- after what is written for a character the reader is back in step
      rw [List.flatMap_cons, List.append_assoc, readInside?_escapeChar, ih]
      rfl
  rw [toList_stringLiteral, List.cons_append, List.append_assoc]
  exact hinside text.toList

/-- The units of a literal are the quotation marks at its ends and what is written for each
character of its text. -/
theorem literalUnits_stringLiteral (text : String) :
    literalUnits (stringLiteral text).toList =
      ['"'] :: (text.toList.map escapeChar ++ [['"']]) := by
  have hinside : ∀ cs : List Char, literalUnits (cs.flatMap escapeChar ++ ['"']) =
      cs.map escapeChar ++ [['"']] := by
    intro cs
    induction cs with
    | nil => rfl
    | cons c cs ih =>
      rw [List.flatMap_cons, List.append_assoc, literalUnits_escapeChar, ih, List.map_cons,
        List.cons_append]
  rw [toList_stringLiteral, ← hinside]
  rfl

/-! ### The lines that texts are written in -/

/-- The piece with another text, if it is a literal. -/
def Piece.mapTexts (change : String → String) : Piece → Piece
  | .text words => .text words
  | .name qualified => .name qualified
  | .full qualified => .full qualified
  | .identifier plain => .identifier plain
  | .literal words => .literal (change words)

/-- The line with other texts in its literals. -/
def Line.mapTexts (change : String → String) (line : Line) : Line :=
  { line with pieces := line.pieces.map (Piece.mapTexts change) }

section

variable (change : String → String)

theorem map_commaPieces {rows : List (List Piece)}
    (h : ∀ row ∈ rows, row.map (Piece.mapTexts change) = row) :
    (commaPieces rows).map (Piece.mapTexts change) = commaPieces rows := by
  induction rows with
  | nil => rfl
  | cons row rest ih =>
    rw [List.forall_mem_cons] at h
    cases rest with
    | nil => exact h.1
    | cons next more =>
      rw [commaPieces, List.map_append, List.map_cons, h.1, ih h.2]
      · rfl
      · simp

mutual

/-- A type has no literals. -/
theorem map_typePieces : ∀ type : DeclaredType,
    (typePieces type).map (Piece.mapTexts change) = typePieces type
  | ⟨name, nullable, arguments, supertypes⟩ => by
      have harguments := map_commaPieces change (map_typePiecesAll arguments)
      rw [typePieces]
      split <;> cases nullable <;> simp [Piece.mapTexts, harguments]

theorem map_typePiecesAll : ∀ types : List DeclaredType,
    ∀ row ∈ typePiecesAll types, row.map (Piece.mapTexts change) = row
  | [] => fun _ hrow => absurd hrow List.not_mem_nil
  | type :: rest => by
      rw [typePiecesAll, List.forall_mem_cons]
      exact ⟨map_typePieces type, map_typePiecesAll rest⟩

end

theorem expressionPieces_mapTexts (symbols : Symbols) (value : Expression) :
    expressionPieces (symbols.mapTexts change) (value.mapTexts change) =
      (expressionPieces symbols value).map (Piece.mapTexts change) := by
  unfold expressionPieces Expression.mapTexts
  cases value with
  | read getter key fallback => cases fallback <;> rfl
  | _ => simp [Piece.mapTexts, registryPieces, Symbols.mapTexts, map_typePieces]

theorem ifPieces_mapTexts (condition : Condition) :
    ifPieces (condition.mapTexts change) = (ifPieces condition).map (Piece.mapTexts change) := by
  cases condition <;> rfl

theorem failurePieces_mapTexts (symbols : Symbols) (failure : Failure) :
    failurePieces (symbols.mapTexts change) (failure.mapTexts change) =
      (failurePieces symbols failure).map (Piece.mapTexts change) := by
  cases failure <;> rfl

mutual

/-- A statement with other texts is written in the same lines, with the other texts in its
literals. -/
theorem statementLines_mapTexts (symbols : Symbols) : ∀ (statement : Statement) (depth : Nat),
    statementLines (symbols.mapTexts change) depth (statement.mapTexts change) =
      (statementLines symbols depth statement).map (Line.mapTexts change)
  | .resolveDeserializer, _ => rfl
  | .bindTarget owner message, depth => by
      simp [Statement.mapTexts, statementLines, bindPieces, Line.mapTexts, Piece.mapTexts,
        map_typePieces]
  | .assign field value, depth => by
      simp [Statement.mapTexts, statementLines, Line.mapTexts, Piece.mapTexts,
        expressionPieces_mapTexts]
  | .declare name value, depth => by
      simp [Statement.mapTexts, statementLines, Line.mapTexts, Piece.mapTexts,
        expressionPieces_mapTexts]
  | .whenPresent subject body, depth => by
      simp [Statement.mapTexts, statementLines, Line.mapTexts, Piece.mapTexts,
        expressionPieces_mapTexts, statementLinesAll_mapTexts symbols body]
  | .ifThen condition yes no, depth => by
      simp [Statement.mapTexts, statementLines, Line.mapTexts, Piece.mapTexts, ifPieces_mapTexts,
        statementLinesAll_mapTexts symbols yes, statementLinesElse_mapTexts symbols no]
  | .require field failure, depth => by
      simp [Statement.mapTexts, statementLines, Line.mapTexts, Piece.mapTexts,
        failurePieces_mapTexts, ← ifPieces_mapTexts, Condition.mapTexts]
  | .log message, _ => rfl

/-- The same for a list of statements. -/
theorem statementLinesAll_mapTexts (symbols : Symbols) :
    ∀ (statements : List Statement) (depth : Nat),
      statementLinesAll (symbols.mapTexts change) depth (mapTextsAll change statements) =
        (statementLinesAll symbols depth statements).map (Line.mapTexts change)
  | [], _ => rfl
  | statement :: rest, depth => by
      rw [mapTextsAll, statementLinesAll, statementLinesAll, List.map_append,
        statementLines_mapTexts symbols statement, statementLinesAll_mapTexts symbols rest]

/-- The same for an else branch. -/
theorem statementLinesElse_mapTexts (symbols : Symbols) :
    ∀ (no : Option (List Statement)) (depth : Nat),
      statementLinesElse (symbols.mapTexts change) depth (mapTextsElse change no) =
        (statementLinesElse symbols depth no).map (Line.mapTexts change)
  | none, _ => rfl
  | some statements, depth => by
      rw [mapTextsElse, statementLinesElse, statementLinesElse, List.map_cons,
        statementLinesAll_mapTexts symbols statements]
      rfl

end

/-- The lines above the class have no literals. -/
theorem map_headLines (settings : Settings) (injector : Injector) :
    (headLines settings injector).map (Line.mapTexts change) = headLines settings injector := by
  have hpackage : ∀ package, (packageLines package).map (Line.mapTexts change) =
      packageLines package := by
    intro package
    unfold packageLines
    split <;> rfl
  have himports : ∀ imports, (importLines imports).map (Line.mapTexts change) =
      importLines imports := by
    intro imports
    unfold importLines
    split
    · rfl
    · rw [List.map_append, List.map_map]
      rfl
  have hheader : ∀ header, (headerLines header).map (Line.mapTexts change) =
      headerLines header := by
    intro header
    rw [headerLines, List.map_append, List.map_cons, List.map_map]
    rfl
  rw [headLines, List.map_append, List.map_append, hpackage, himports, hheader]

/-- An injector with other texts is written in the same lines, with the other texts in its
literals. -/
theorem injectorLines_mapTexts (settings : Settings) (injector : Injector) :
    injectorLines (settings.mapTexts change) (injector.mapTexts change) =
      (injectorLines settings injector).map (Line.mapTexts change) := by
  have hhead : headLines (settings.mapTexts change) (injector.mapTexts change) =
      (headLines settings injector).map (Line.mapTexts change) :=
    (map_headLines change settings injector).symm
  have hframe : frameLines (settings.mapTexts change).symbols (injector.mapTexts change) =
      (frameLines settings.symbols injector).map (Line.mapTexts change) := rfl
  rw [injectorLines, injectorLines, List.map_append, List.map_append, List.map_append, ← hhead,
    ← hframe, ← statementLinesAll_mapTexts, Injector.statements_mapTexts]
  rfl

end

/-! ### Line feeds in generated code -/

/-- A line has the line feeds of its words, whatever texts are in its literals. -/
theorem count_spell_mapTexts (change : String → String) (short : NameSet) (line : Line) :
    ((line.mapTexts change).spell short).toList.count '\n' =
      (line.spell short).toList.count '\n' := by
  have hpieces : ∀ pieces : List Piece,
      (spellPieces short (pieces.map (Piece.mapTexts change))).toList.count '\n' =
        (spellPieces short pieces).toList.count '\n' := by
    intro pieces
    induction pieces with
    | nil => rfl
    | cons piece rest ih =>
      rw [List.map_cons, spellPieces_cons, spellPieces_cons, String.toList_append,
        String.toList_append, List.count_append, List.count_append, ih, Nat.add_right_cancel_iff]
      cases piece with
      | literal words =>
        rw [Piece.mapTexts, Piece.spell, Piece.spell,
          List.count_eq_zero_of_not_mem (inline_stringLiteral words),
          List.count_eq_zero_of_not_mem (inline_stringLiteral (change words))]
      | _ => rfl
  rw [Line.spell, Line.spell, String.toList_append, String.toList_append, List.count_append,
    List.count_append, Line.mapTexts, hpieces]

theorem count_unlines_mapTexts (change : String → String) (short : NameSet) (lines : List Line) :
    (Text.unlines ((lines.map (Line.mapTexts change)).map (Line.spell short))).toList.count '\n' =
      (Text.unlines (lines.map (Line.spell short))).toList.count '\n' := by
  induction lines with
  | nil => rfl
  | cons line rest ih =>
    cases rest with
    | nil => exact count_spell_mapTexts change short line
    | cons next more =>
      simp only [List.map_cons, Text.unlines, String.toList_append, List.count_append,
        count_spell_mapTexts] at ih ⊢
      rw [ih]

/-! ### Literals in generated code -/

/-- **No text gets out of its literal.**  A reader of the literal of a text finds the text, and
what is left is what follows the literal, whatever that is; the literal has no line feed and no
carriage return, and no unit of it is a dollar sign without a backslash.  The keys, the messages
and the tag of an injector stand in such literals and nowhere else: if they are replaced by any
other texts, its code is the same lines with the other texts in the literals, and has as many line
feeds as before. -/
theorem stringLiteral_closed (text : String) (rest : List Char) (settings : Settings)
    (injector : Injector) (change : String → String) :
    readLiteral? ((stringLiteral text).toList ++ rest) = some (text.toList, rest) ∧
    '\n' ∉ (stringLiteral text).toList ∧ '\r' ∉ (stringLiteral text).toList ∧
    ['$'] ∉ literalUnits (stringLiteral text).toList ∧
    (SourceFile.ofInjector (settings.mapTexts change) (injector.mapTexts change)).code =
      Text.unlines ((injectorLines settings injector).map fun line =>
        (line.mapTexts change).spell injector.simpleNames) ++ "\n" ∧
    (SourceFile.ofInjector (settings.mapTexts change) (injector.mapTexts change)).code.toList.count
        '\n' =
      (SourceFile.ofInjector settings injector).code.toList.count '\n' := by
  have hcode : (SourceFile.ofInjector (settings.mapTexts change) (injector.mapTexts change)).code =
      Text.unlines (((injectorLines settings injector).map (Line.mapTexts change)).map
        (Line.spell injector.simpleNames)) ++ "\n" := by
    rw [code_eq_spelled_lines, injectorLines_mapTexts]
    rfl
  have hreturn : '\r' ∉ (stringLiteral text).toList :=
    not_mem_stringLiteral (by decide) (fun c => (lineEnds_not_mem_escapeChar c).2) text
  refine ⟨readLiteral?_stringLiteral text rest, inline_stringLiteral text, hreturn, ?_, ?_, ?_⟩
  · rw [literalUnits_stringLiteral]
    simp [escapeChar_ne_dollar]
  · rw [hcode, List.map_map]
    rfl
  · rw [hcode, code_eq_spelled_lines, String.toList_append, String.toList_append,
      List.count_append, List.count_append, count_unlines_mapTexts]

end Kotlin

end Wiring
