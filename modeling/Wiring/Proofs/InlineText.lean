import Mathlib.Data.List.Basic
import Wiring.Proofs.Spelling

/-!
# Text on one line

A written injector is a row of lines, each ended by a line feed.  Cutting the text at its line feeds
gives these lines back, as long as none of them has a line feed of its own.  Fixed text has none,
literals write theirs with a backslash, and the header is cut into lines first; what is left are the
names and identifiers, and the name of the package.

## Main definitions

* `Text.Inline` — a text without line feeds.
* `Text.cutLines` — the pieces of a text between its line feeds.
* `Piece.Inline`, `Line.Inline` — pieces and lines whose own words have no line feed.
* `Statement.words` — the names and identifiers that a statement is written with.

## Main results

* `Text.cutLines_unlines` — cutting gives back lines without line feeds.
* `Line.Inline.spell` — such a line is written without line feeds.
* `inline_statementLinesAll` — the lines of statements whose words have no line feed.
* `inline_headerLines` — the lines of the header, whatever text it is.
-/

namespace Wiring

/-! ### Texts -/

namespace Text

/-- The text has no line feed. -/
def Inline (text : String) : Prop := '\n' ∉ text.toList

instance (text : String) : Decidable (Inline text) := inferInstanceAs (Decidable (_ ∉ _))

/-- The pieces of a text between its line feeds. -/
def cutLines (text : String) : List String := (segments '\n' text.toList).map String.ofList

@[simp] theorem inline_append {first second : String} :
    Inline (first ++ second) ↔ Inline first ∧ Inline second := by
  rw [Inline, String.toList_append, List.mem_append, not_or]
  rfl

@[simp] theorem inline_ofList {cs : List Char} : Inline (String.ofList cs) ↔ '\n' ∉ cs := by
  rw [Inline, String.toList_ofList]

theorem toList_unlines (lines : List String) :
    (unlines lines).toList = joined '\n' (lines.map String.toList) := by
  induction lines with
  | nil => rfl
  | cons line rest ih =>
    cases rest with
    | nil => rfl
    | cons next more =>
      rw [unlines, String.toList_append, String.toList_append, ih]
      · simp [joined]
      · simp

/-- Cutting gives back lines without line feeds, and an empty text after the last of them. -/
theorem cutLines_unlines {lines : List String} (hne : lines ≠ [])
    (h : ∀ line ∈ lines, Inline line) : cutLines (unlines lines ++ "\n") = lines ++ [""] := by
  -- the line feed at the end stands between the last line and an empty piece
  have hpieces : segments '\n' (joined '\n' (lines.map String.toList)) =
      lines.map String.toList := by
    refine segments_joined (by simpa using hne) fun piece hpiece => ?_
    obtain ⟨line, hline, rfl⟩ := List.mem_map.mp hpiece
    exact h line hline
  have htext : (unlines lines ++ "\n").toList =
      joined '\n' (lines.map String.toList) ++ '\n' :: [] := by
    rw [String.toList_append, toList_unlines]
    rfl
  rw [cutLines, htext, segments_append, hpieces, List.map_append, List.map_map]
  simp [Function.comp_def]

/-- The lines of a text have no line feed. -/
theorem inline_of_mem_linesOf {text line : String} (h : line ∈ linesOf text) : Inline line :=
  fun hfeed => (mem_of_mem_linesOf h hfeed).2 rfl

end Text

/-- The simple name of a name is a part of it. -/
theorem inline_simpleName {name : String} (h : Text.Inline name) :
    Text.Inline (simpleName name) := by
  unfold simpleName
  cases hcut : Text.splitLast? '.' name.toList with
  | none => exact h
  | some parts =>
    obtain ⟨before, after⟩ := parts
    refine Text.inline_ofList.mpr fun hmem => h ?_
    rw [(Text.eq_of_splitLast? hcut).1]
    exact List.mem_append_right _ (List.mem_cons_of_mem _ hmem)

/-! ### The words of a statement -/

/-- The names and identifiers that a value is written with. -/
def Expression.words (symbols : Symbols) : Expression → List String
  | .bound => []
  | .bundle _ => []
  | .read _ _ fallback => fallback.toList
  | .readString _ _ => []
  | .readSerializable _ _ type => type.names
  | .readParcelable _ _ type => type.names
  | .serviceByType type => symbols.registry :: type.names
  | .serviceByName _ type _ => symbols.registry :: type.names
  | .deserialize raw type => raw :: symbols.typeWrapper :: type.names

/-- The identifiers that a test is written with. -/
def Condition.words : Condition → List String
  | .containsKey _ => []
  | .notNullOrEmpty name => [name]
  | .deserializerAvailable => []
  | .fieldIsNull field => [field]

/-- The names that a failed check is written with. -/
def Failure.words (symbols : Symbols) : Failure → List String
  | .fatal _ => []
  | .diagnostic _ => [symbols.logFacility]

/-- The names and identifiers that a statement is written with, those of the statements inside it
not counted. -/
def Statement.words (symbols : Symbols) : Statement → List String
  | .resolveDeserializer => [symbols.registry, symbols.serializationService]
  | .bindTarget owner _ => owner.names
  | .assign field value => field :: value.words symbols
  | .declare name value => name :: value.words symbols
  | .whenPresent subject _ => subject.words symbols
  | .ifThen condition _ _ => condition.words
  | .require field failure => field :: failure.words symbols
  | .log _ => [symbols.logFacility]

/-- What a value makes the analysis record is among its words. -/
theorem Expression.mem_words {symbols : Symbols} {value : Expression} {name : String}
    (h : (∃ type, value.type? = some type ∧ name ∈ type.names) ∨
      name ∈ value.helperNames symbols) : name ∈ value.words symbols := by
  cases value with
  | readSerializable source key type => simpa [type?, helperNames, words] using h
  | readParcelable source key type => simpa [type?, helperNames, words] using h
  | serviceByType type => simpa [type?, helperNames, words, or_comm] using h
  | serviceByName key type nullable => simpa [type?, helperNames, words, or_comm] using h
  | deserialize raw type =>
    refine List.mem_cons_of_mem _ ?_
    simpa [type?, helperNames, words, or_comm] using h
  | _ => simp [type?, helperNames] at h

/-- What a statement makes the analysis record is among its words. -/
theorem Statement.mem_words {symbols : Symbols} {statement : Statement} {name : String}
    (h : name ∈ statement.recordedNames symbols) : name ∈ statement.words symbols := by
  unfold recordedNames typeNames helperNames at h
  cases statement with
  | resolveDeserializer => simpa [expressions, words] using h
  | bindTarget owner message => simpa [expressions, words] using h
  | assign field value =>
    refine List.mem_cons_of_mem _ (Expression.mem_words ?_)
    simpa [expressions] using h
  | declare raw value =>
    refine List.mem_cons_of_mem _ (Expression.mem_words ?_)
    simpa [expressions] using h
  | whenPresent subject body =>
    refine Expression.mem_words ?_
    simpa [expressions] using h
  | ifThen condition yes no => simp [expressions] at h
  | require field failure =>
    refine List.mem_cons_of_mem _ ?_
    cases failure with
    | fatal message => simp [expressions] at h
    | diagnostic message => simpa [expressions, Failure.words] using h
  | log message => simpa [expressions, words] using h

namespace Kotlin

/-! ### Characters of a literal -/

/-- A character is written as it is unless it is one of the six that have an escape. -/
theorem escapeChar_cases (c : Char) :
    (c ≠ '"' ∧ c ≠ '\\' ∧ c ≠ '$' ∧ c ≠ '\n' ∧ c ≠ '\r' ∧ escapeChar c = [c]) ∨
      ∃ letter, escapeChar c = ['\\', letter] ∧ unescapeChar? letter = some c := by
  unfold escapeChar
  split_ifs with hquote hbackslash hdollar hfeed hreturn htab
  · exact .inr ⟨'"', rfl, by rw [hquote]; rfl⟩
  · exact .inr ⟨'\\', rfl, by rw [hbackslash]; rfl⟩
  · exact .inr ⟨'$', rfl, by rw [hdollar]; rfl⟩
  · exact .inr ⟨'n', rfl, by rw [hfeed]; rfl⟩
  · exact .inr ⟨'r', rfl, by rw [hreturn]; rfl⟩
  · exact .inr ⟨'t', rfl, by rw [htab]; rfl⟩
  · exact .inl ⟨hquote, hbackslash, hdollar, hfeed, hreturn, rfl⟩

/-- No character is written with a line feed or a carriage return. -/
theorem lineEnds_not_mem_escapeChar (c : Char) : '\n' ∉ escapeChar c ∧ '\r' ∉ escapeChar c := by
  rcases escapeChar_cases c with ⟨-, -, -, hfeed, hreturn, hself⟩ | ⟨letter, hletter, hback⟩
  · rw [hself]
    exact ⟨by simpa using hfeed.symm, by simpa using hreturn.symm⟩
  · -- the letter after the backslash is one that has a meaning
    have hfeed : letter ≠ '\n' := by rintro rfl; cases hback
    have hreturn : letter ≠ '\r' := by rintro rfl; cases hback
    rw [hletter]
    exact ⟨by simpa using hfeed.symm, by simpa using hreturn.symm⟩

theorem toList_stringLiteral (text : String) :
    (stringLiteral text).toList = '"' :: (text.toList.flatMap escapeChar ++ ['"']) := by
  rw [stringLiteral, String.toList_ofList, List.cons_append]

theorem not_mem_stringLiteral {c : Char} (hquote : c ≠ '"') (h : ∀ d, c ∉ escapeChar d)
    (text : String) : c ∉ (stringLiteral text).toList := by
  rw [toList_stringLiteral, List.mem_cons, List.mem_append, List.mem_flatMap,
    List.mem_singleton]
  rintro (hmem | ⟨d, -, hd⟩ | hmem)
  · exact hquote hmem
  · exact h d hd
  · exact hquote hmem

/-- A literal writes its line feeds with a backslash. -/
theorem inline_stringLiteral (text : String) : Text.Inline (stringLiteral text) :=
  not_mem_stringLiteral (by decide) (fun c => (lineEnds_not_mem_escapeChar c).1) text

/-! ### Pieces of a line -/

theorem inline_identifier {plain : String} (h : Text.Inline plain) :
    Text.Inline (identifier plain) := by
  unfold identifier
  split
  · exact h
  · rw [Text.inline_append, Text.inline_append]
    exact ⟨⟨by decide, h⟩, by decide⟩

theorem inline_spellName (short : NameSet) {name : String} (h : Text.Inline name) :
    Text.Inline (spellName short name) := by
  unfold spellName
  split
  · exact inline_simpleName h
  · exact h

/-- The words in a piece have no line feed; those of a literal may have some. -/
def Piece.Inline : Piece → Prop
  | .text words => Text.Inline words
  | .name qualified => Text.Inline qualified
  | .full qualified => Text.Inline qualified
  | .identifier plain => Text.Inline plain
  | .literal _ => True

instance : DecidablePred Piece.Inline
  | .text words => inferInstanceAs (Decidable (Text.Inline words))
  | .name qualified => inferInstanceAs (Decidable (Text.Inline qualified))
  | .full qualified => inferInstanceAs (Decidable (Text.Inline qualified))
  | .identifier plain => inferInstanceAs (Decidable (Text.Inline plain))
  | .literal _ => inferInstanceAs (Decidable True)

theorem Piece.Inline.spell (short : NameSet) : ∀ {piece : Piece}, piece.Inline →
    Text.Inline (piece.spell short)
  | .text _, h => h
  | .name _, h => inline_spellName short h
  | .full _, h => h
  | .identifier _, h => inline_identifier h
  | .literal words, _ => inline_stringLiteral words

/-- The words in a row of pieces have no line feed. -/
def InlineRow (pieces : List Piece) : Prop := ∀ piece ∈ pieces, piece.Inline

instance (pieces : List Piece) : Decidable (InlineRow pieces) :=
  inferInstanceAs (Decidable (∀ piece ∈ pieces, piece.Inline))

@[simp] theorem inlineRow_nil : InlineRow [] := fun _ h => absurd h List.not_mem_nil

@[simp] theorem inlineRow_cons {piece : Piece} {rest : List Piece} :
    InlineRow (piece :: rest) ↔ piece.Inline ∧ InlineRow rest := List.forall_mem_cons

@[simp] theorem inlineRow_append {first second : List Piece} :
    InlineRow (first ++ second) ↔ InlineRow first ∧ InlineRow second := List.forall_mem_append

theorem InlineRow.spell (short : NameSet) {pieces : List Piece} (h : InlineRow pieces) :
    Text.Inline (spellPieces short pieces) := by
  induction pieces with
  | nil => exact List.not_mem_nil
  | cons piece rest ih =>
    rw [inlineRow_cons] at h
    rw [spellPieces_cons, Text.inline_append]
    exact ⟨h.1.spell short, ih h.2⟩

/-- The words in a line have no line feed. -/
def Line.Inline (line : Line) : Prop := InlineRow line.pieces

/-- A line whose words have no line feed is written without one. -/
theorem Line.Inline.spell (short : NameSet) {line : Line} (h : line.Inline) :
    Text.Inline (line.spell short) := by
  rw [Line.spell, Text.inline_append]
  refine ⟨Text.inline_ofList.mpr fun hmem => ?_, InlineRow.spell short h⟩
  exact absurd (List.eq_of_mem_replicate hmem) (by decide)

/-! ### Types -/

theorem inlineRow_commaPieces {rows : List (List Piece)} (h : ∀ row ∈ rows, InlineRow row) :
    InlineRow (commaPieces rows) := by
  induction rows with
  | nil => exact inlineRow_nil
  | cons row rest ih =>
    rw [List.forall_mem_cons] at h
    cases rest with
    | nil => exact h.1
    | cons next more =>
      rw [commaPieces, inlineRow_append, inlineRow_cons]
      · exact ⟨h.1, by decide, ih h.2⟩
      · simp

mutual

/-- The pieces of a type whose names have no line feed. -/
theorem inlineRow_typePieces : ∀ type : DeclaredType, (∀ name ∈ type.names, Text.Inline name) →
    InlineRow (typePieces type)
  | ⟨name, nullable, arguments, supertypes⟩, h => by
      rw [DeclaredType.names, List.forall_mem_cons] at h
      have harguments := inlineRow_commaPieces (inlineRow_typePiecesAll arguments h.2)
      have hnull : InlineRow (if nullable then [.text "?"] else []) := by
        cases nullable <;> decide
      rw [typePieces, inlineRow_cons, inlineRow_append]
      refine ⟨h.1, ?_, hnull⟩
      split
      · exact inlineRow_nil
      · rw [inlineRow_append, inlineRow_cons, inlineRow_cons]
        exact ⟨⟨by decide, harguments⟩, by decide, inlineRow_nil⟩

/-- The pieces of types whose names have no line feed. -/
theorem inlineRow_typePiecesAll : ∀ types : List DeclaredType,
    (∀ name ∈ DeclaredType.namesAll types, Text.Inline name) →
      ∀ row ∈ typePiecesAll types, InlineRow row
  | [], _ => fun _ hrow => absurd hrow List.not_mem_nil
  | type :: rest, h => by
      rw [DeclaredType.namesAll, List.forall_mem_append] at h
      rw [typePiecesAll, List.forall_mem_cons]
      exact ⟨inlineRow_typePieces type h.1, inlineRow_typePiecesAll rest h.2⟩

end

/-! ### Values and tests -/

section

variable {symbols : Symbols}

theorem inlineRow_registryPieces (h : Text.Inline symbols.registry) :
    InlineRow (registryPieces symbols) :=
  inlineRow_cons.mpr ⟨h, by decide⟩

/-- The pieces of a value whose words have no line feed. -/
theorem inlineRow_expressionPieces {value : Expression}
    (h : ∀ word ∈ value.words symbols, Text.Inline word) :
    InlineRow (expressionPieces symbols value) := by
  unfold expressionPieces
  cases value with
  | bound => exact inlineRow_cons.mpr ⟨by decide, inlineRow_nil⟩
  | bundle source =>
    have hsource : Piece.Inline (.text (bundleText source)) := by cases source <;> decide
    exact inlineRow_cons.mpr ⟨hsource, inlineRow_nil⟩
  | read getter key fallback =>
    have hget : Piece.Inline (.text ("it." ++ getterText getter ++ "(")) := by
      cases getter <;> decide
    cases fallback with
    | none =>
      simp only [inlineRow_cons]
      exact ⟨hget, trivial, by decide, inlineRow_nil⟩
    | some field =>
      have hfield : Text.Inline field := h field List.mem_cons_self
      simp only [inlineRow_cons]
      exact ⟨hget, trivial, by decide, hfield, by decide, inlineRow_nil⟩
  | readString source key =>
    have hsource : Piece.Inline (.text (bundleText source ++ "?.getString(")) := by
      cases source <;> decide
    simp only [inlineRow_cons]
    exact ⟨hsource, trivial, by decide, inlineRow_nil⟩
  | readSerializable source key type =>
    have hsource : Piece.Inline (.text ("(" ++ boundTarget ++ "." ++ serializableRead source ++
        "(")) := by
      cases source <;> decide
    simp only [inlineRow_append, inlineRow_cons]
    exact ⟨⟨⟨hsource, trivial, by decide, inlineRow_nil⟩, inlineRow_typePieces type h⟩,
      by decide, inlineRow_nil⟩
  | readParcelable source key type =>
    have hsource : Piece.Inline (.text (boundTarget ++ "." ++ parcelableRead source ++ "<")) := by
      cases source <;> decide
    simp only [inlineRow_append, inlineRow_cons]
    exact ⟨⟨hsource, inlineRow_typePieces type h⟩, by decide, trivial, by decide, inlineRow_nil⟩
  | serviceByType type =>
    rw [Expression.words, List.forall_mem_cons] at h
    have hname : Text.Inline type.name := h.2 type.name (name_mem_names type)
    simp only [inlineRow_append, inlineRow_cons]
    exact ⟨inlineRow_registryPieces h.1, by decide, hname, by decide, inlineRow_nil⟩
  | serviceByName key type nullable =>
    rw [Expression.words, List.forall_mem_cons] at h
    have hcast : Piece.Inline (.text (if nullable then "as?" else "as")) := by
      cases nullable <;> decide
    simp only [inlineRow_append, inlineRow_cons]
    exact ⟨⟨inlineRow_registryPieces h.1, by decide, trivial, by decide, hcast, by decide,
      inlineRow_nil⟩, inlineRow_typePieces type h.2⟩
  | deserialize raw type =>
    rw [Expression.words, List.forall_mem_cons, List.forall_mem_cons] at h
    obtain ⟨hraw, hwrapper, hnames⟩ := h
    have htype := inlineRow_typePieces type hnames
    simp only [inlineRow_append, inlineRow_cons]
    exact ⟨⟨⟨⟨by decide, htype⟩, by decide, hraw, by decide, hwrapper, by decide,
      inlineRow_nil⟩, htype⟩, by decide, inlineRow_nil⟩

/-- The line that opens a test whose words have no line feed. -/
theorem inlineRow_ifPieces {condition : Condition}
    (h : ∀ word ∈ condition.words, Text.Inline word) : InlineRow (ifPieces condition) := by
  have hcondition : InlineRow (conditionPieces condition) := by
    unfold conditionPieces
    cases condition with
    | containsKey key =>
      simp only [inlineRow_cons]
      exact ⟨by decide, trivial, by decide, inlineRow_nil⟩
    | notNullOrEmpty name =>
      simp only [inlineRow_cons]
      exact ⟨by decide, h name List.mem_cons_self, by decide, inlineRow_nil⟩
    | deserializerAvailable => decide
    | fieldIsNull field =>
      simp only [inlineRow_cons]
      exact ⟨by decide, h field List.mem_cons_self, by decide, inlineRow_nil⟩
  rw [ifPieces, inlineRow_append, inlineRow_cons]
  exact ⟨⟨by decide, hcondition⟩, by decide⟩

theorem inlineRow_logPieces (h : Text.Inline symbols.logFacility) (message : String) :
    InlineRow (logPieces symbols message) := by
  unfold logPieces
  simp only [inlineRow_cons]
  exact ⟨h, by decide, trivial, by decide, trivial, by decide, inlineRow_nil⟩

theorem inlineRow_failurePieces {failure : Failure}
    (h : ∀ word ∈ failure.words symbols, Text.Inline word) :
    InlineRow (failurePieces symbols failure) := by
  cases failure with
  | fatal message =>
    unfold failurePieces
    simp only [inlineRow_cons]
    exact ⟨by decide, trivial, by decide, inlineRow_nil⟩
  | diagnostic message => exact inlineRow_logPieces (h _ List.mem_cons_self) message

/-! ### Lines of statements -/

/-- The words in lines have no line feed. -/
def InlineLines (lines : List Line) : Prop := ∀ line ∈ lines, line.Inline

instance (lines : List Line) : Decidable (InlineLines lines) :=
  inferInstanceAs (Decidable (∀ line ∈ lines, InlineRow line.pieces))

@[simp] theorem inlineLines_nil : InlineLines [] := fun _ h => absurd h List.not_mem_nil

@[simp] theorem inlineLines_cons {line : Line} {rest : List Line} :
    InlineLines (line :: rest) ↔ InlineRow line.pieces ∧ InlineLines rest := List.forall_mem_cons

@[simp] theorem inlineLines_append {first second : List Line} :
    InlineLines (first ++ second) ↔ InlineLines first ∧ InlineLines second :=
  List.forall_mem_append

mutual

/-- The lines of a statement: if no word of it or of a statement inside it has a line feed, then
neither do the lines. -/
theorem inline_statementLines : ∀ (statement : Statement) (depth : Nat),
    (∀ inner ∈ statement.preorder, ∀ word ∈ inner.words symbols, Text.Inline word) →
      InlineLines (statementLines symbols depth statement)
  | .resolveDeserializer, depth, h => by
      have hwords := h _ (Statement.mem_preorder_self _)
      have hregistry : Text.Inline symbols.registry := hwords _ List.mem_cons_self
      have hservice : Text.Inline symbols.serializationService :=
        hwords _ (List.mem_cons_of_mem _ List.mem_cons_self)
      rw [statementLines, resolvePieces]
      simp only [inlineLines_cons, inlineRow_append, inlineRow_cons]
      exact ⟨⟨⟨by decide, inlineRow_registryPieces hregistry⟩, by decide, hservice, by decide,
        inlineRow_nil⟩, inlineLines_nil⟩
  | .bindTarget owner message, depth, h => by
      have howner := inlineRow_typePieces owner (h _ (Statement.mem_preorder_self _))
      rw [statementLines, bindPieces]
      simp only [inlineLines_cons, inlineRow_append, inlineRow_cons]
      exact ⟨⟨⟨by decide, howner⟩, by decide, trivial, by decide, inlineRow_nil⟩,
        inlineLines_nil⟩
  | .assign field value, depth, h => by
      obtain ⟨hfield, hvalue⟩ := List.forall_mem_cons.mp (h _ (Statement.mem_preorder_self _))
      rw [statementLines]
      simp only [inlineLines_cons, inlineRow_append, inlineRow_cons]
      exact ⟨⟨⟨by decide, hfield, by decide, inlineRow_nil⟩, inlineRow_expressionPieces hvalue⟩,
        inlineLines_nil⟩
  | .declare name value, depth, h => by
      obtain ⟨hname, hvalue⟩ := List.forall_mem_cons.mp (h _ (Statement.mem_preorder_self _))
      rw [statementLines]
      simp only [inlineLines_cons, inlineRow_append, inlineRow_cons]
      exact ⟨⟨⟨by decide, hname, by decide, inlineRow_nil⟩, inlineRow_expressionPieces hvalue⟩,
        inlineLines_nil⟩
  | .whenPresent subject body, depth, h => by
      rw [Statement.preorder, List.forall_mem_cons] at h
      have hbody := inline_statementLinesAll body (depth + 1) h.2
      rw [statementLines]
      simp only [inlineLines_append, inlineLines_cons, inlineRow_append]
      exact ⟨⟨⟨inlineRow_expressionPieces h.1, by decide⟩, hbody⟩, by decide, inlineLines_nil⟩
  | .ifThen condition yes no, depth, h => by
      rw [Statement.preorder, List.forall_mem_cons, List.forall_mem_append] at h
      have hyes := inline_statementLinesAll yes (depth + 1) h.2.1
      have hno := inline_statementLinesElse no depth h.2.2
      rw [statementLines]
      simp only [inlineLines_append, inlineLines_cons]
      exact ⟨⟨⟨inlineRow_ifPieces h.1, hyes⟩, hno⟩, by decide, inlineLines_nil⟩
  | .require field failure, depth, h => by
      obtain ⟨hfield, hfailure⟩ := List.forall_mem_cons.mp (h _ (Statement.mem_preorder_self _))
      have hopen : InlineRow (ifPieces (.fieldIsNull field)) :=
        inlineRow_ifPieces (List.forall_mem_singleton.mpr hfield)
      rw [statementLines]
      simp only [inlineLines_cons]
      exact ⟨hopen, inlineRow_failurePieces hfailure, by decide, inlineLines_nil⟩
  | .log message, depth, h => by
      have hlog := h _ (Statement.mem_preorder_self _) symbols.logFacility List.mem_cons_self
      rw [statementLines]
      exact inlineLines_cons.mpr ⟨inlineRow_logPieces hlog message, inlineLines_nil⟩

/-- The same for a list of statements. -/
theorem inline_statementLinesAll : ∀ (statements : List Statement) (depth : Nat),
    (∀ inner ∈ preorderAll statements, ∀ word ∈ inner.words symbols, Text.Inline word) →
      InlineLines (statementLinesAll symbols depth statements)
  | [], _, _ => inlineLines_nil
  | statement :: rest, depth, h => by
      rw [preorderAll, List.forall_mem_append] at h
      rw [statementLinesAll, inlineLines_append]
      exact ⟨inline_statementLines statement depth h.1, inline_statementLinesAll rest depth h.2⟩

/-- The same for an else branch. -/
theorem inline_statementLinesElse : ∀ (no : Option (List Statement)) (depth : Nat),
    (∀ inner ∈ preorderElse no, ∀ word ∈ inner.words symbols, Text.Inline word) →
      InlineLines (statementLinesElse symbols depth no)
  | none, _, _ => inlineLines_nil
  | some statements, depth, h => by
      rw [statementLinesElse, inlineLines_cons]
      exact ⟨inlineRow_cons.mpr ⟨by decide, inlineRow_nil⟩,
        inline_statementLinesAll statements (depth + 1) h⟩

end

end

/-! ### Lines above the class -/

theorem inline_packageLines {package : String} (h : Text.Inline package) :
    InlineLines (packageLines package) := by
  unfold packageLines
  split
  · exact inlineLines_nil
  · simp only [inlineLines_cons, inlineRow_cons]
    exact ⟨⟨by decide, h, inlineRow_nil⟩, inlineRow_nil, inlineLines_nil⟩

theorem inline_importLines {imports : List String} (h : ∀ name ∈ imports, Text.Inline name) :
    InlineLines (importLines imports) := by
  unfold importLines
  split
  · exact inlineLines_nil
  · rw [inlineLines_append, inlineLines_cons]
    refine ⟨fun line hline => ?_, inlineRow_nil, inlineLines_nil⟩
    obtain ⟨name, hname, rfl⟩ := List.mem_map.mp hline
    exact inlineRow_cons.mpr ⟨by decide, inlineRow_cons.mpr ⟨h name hname, inlineRow_nil⟩⟩

/-- The header may be any text: it is written line by line. -/
theorem inline_headerLines (header : String) : InlineLines (headerLines header) := by
  rw [headerLines, inlineLines_append, inlineLines_cons, inlineLines_cons]
  refine ⟨⟨by decide, fun line hline => ?_⟩, by decide, inlineLines_nil⟩
  obtain ⟨words, hwords, rfl⟩ := List.mem_map.mp hline
  have htext : Text.Inline (" * " ++ words) :=
    Text.inline_append.mpr ⟨by decide, Text.inline_of_mem_linesOf hwords⟩
  exact inlineRow_cons.mpr ⟨htext, inlineRow_nil⟩

end Kotlin

end Wiring
