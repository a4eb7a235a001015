import Wiring.Proofs.Filling
import Wiring.Proofs.InlineText
import Wiring.Proofs.OwnerFiles

/-!
# The lines of the fields

The marks of a file count the lines written before each field.  They are right about the text as it
is read, cut at its line feeds, as long as the names written into it have no line feed: the lines
from one mark up to the next are those of one field, its statements and then its check.

## Main definitions

* `Symbols.written`, `Property.words` — the names that a file is written with.
* `InlineNames` — none of these names has a line feed.
* `Dialect.fieldText` — the lines of a field in the body of the function.
* `SourceFile.textLines` — the lines of a file.
* `SourceFile.SharedOut` — the lines of a file belong to the fields as its marks say.

## Main results

* `getElem?_fieldMarks` — each mark counts the lines before its field.
* `textLines_ofInjector` — the lines of a file are those of its layout.
* `SourceFile.sharedOut_of_compile` — **the marks share out the lines of every file** among the
  properties of its owner.
-/

namespace Wiring

/-! ### The words of a field -/

/-- The runtime symbols that files are written with. -/
def Symbols.written (symbols : Symbols) : List String :=
  [symbols.registry, symbols.injectorInterface, symbols.serializationService, symbols.typeWrapper,
    symbols.logFacility]

/-- The names and identifiers that the statements of a property are written with. -/
def Property.words (symbols : Symbols) (property : Property) : List String :=
  property.name :: FieldPlan.rawName :: (property.type.names ++ symbols.written)

section

variable {symbols : Symbols} {property : Property} {owner : Owner}

namespace Property

@[simp] theorem name_mem_words : property.name ∈ property.words symbols := List.mem_cons_self

@[simp] theorem rawName_mem_words : FieldPlan.rawName ∈ property.words symbols :=
  List.mem_cons_of_mem _ List.mem_cons_self

@[simp] theorem names_subset_words : property.type.names ⊆ property.words symbols := by
  intro name h
  exact List.mem_cons_of_mem _ (List.mem_cons_of_mem _ (List.mem_append_left _ h))

theorem written_subset_words : symbols.written ⊆ property.words symbols := by
  intro name h
  exact List.mem_cons_of_mem _ (List.mem_cons_of_mem _ (List.mem_append_right _ h))

@[simp] theorem registry_mem_words : symbols.registry ∈ property.words symbols :=
  written_subset_words (by simp [Symbols.written])

@[simp] theorem typeWrapper_mem_words : symbols.typeWrapper ∈ property.words symbols :=
  written_subset_words (by simp [Symbols.written])

@[simp] theorem logFacility_mem_words : symbols.logFacility ∈ property.words symbols :=
  written_subset_words (by simp [Symbols.written])

end Property

namespace FieldPlan

theorem words_fromRegistry : ∀ inner ∈ preorderAll (fromRegistry property),
    inner.words symbols ⊆ property.words symbols := by
  unfold fromRegistry
  cases property.request.key? <;>
    simp [preorderAll, Statement.preorder, Statement.words, Expression.words]

theorem words_fromBundle (source : BundleSource) (getter : Getter) :
    ∀ inner ∈ preorderAll (fromBundle property source getter),
      inner.words symbols ⊆ property.words symbols := by
  unfold fromBundle
  cases property.type.nullable <;>
    simp [preorderAll, preorderElse, Statement.preorder, Statement.words, Condition.words,
      Expression.words]

theorem words_fromString (source : BundleSource) :
    ∀ inner ∈ preorderAll (fromString property source),
      inner.words symbols ⊆ property.words symbols := by
  simp [fromString, preorderAll, Statement.preorder, Statement.words, Expression.words]

theorem words_fromCast (source : BundleSource) (kind : CastKind) :
    ∀ inner ∈ preorderAll (fromCast property source kind),
      inner.words symbols ⊆ property.words symbols := by
  unfold fromCast
  cases kind <;> simp [preorderAll, Statement.preorder, Statement.words, Expression.words]

theorem words_fromText (source : BundleSource) :
    ∀ inner ∈ preorderAll (fromText property source owner),
      inner.words symbols ⊆ property.words symbols := by
  simp [fromText, preorderAll, preorderElse, Statement.preorder, Statement.words,
    Condition.words, Expression.words]

/-- However a property is filled, its own words and runtime symbols are all that is written. -/
theorem words_fromSource (source : BundleSource) : ∀ strategy : Strategy,
    ∀ inner ∈ preorderAll (fromSource property source owner strategy),
      inner.words symbols ⊆ property.words symbols
  | .provider => words_fromRegistry
  | .primitive getter => words_fromBundle source getter
  | .str => words_fromString source
  | .cast kind => words_fromCast source kind
  | .object => words_fromText source

theorem words_checkFor (category : Category) :
    ∀ inner ∈ preorderAll (checkFor property category owner).toList,
      inner.words symbols ⊆ property.words symbols := by
  unfold checkFor
  split
  · exact fun inner h => absurd h List.not_mem_nil
  · split <;> simp [preorderAll, Statement.preorder, Statement.words, Failure.words]

/-- Filling a property takes a statement at least. -/
theorem fromSource_ne_nil (source : BundleSource) (strategy : Strategy) :
    fromSource property source owner strategy ≠ [] := by
  cases strategy <;>
    simp [fromSource, fromRegistry, fromBundle, fromString, fromCast, fromText]

/-- All statements that fill a property come from a strategy. -/
theorem exists_fromSource {category : Category} {statements : List Statement}
    (h : statementsFor property (.ofCategory category) owner = .ok statements) :
    ∃ source strategy, statements = fromSource property source owner strategy := by
  rcases Runtime.statementsFor_eq_ok h with ⟨-, rfl⟩ | ⟨source, -, -, rfl⟩
  · -- the registry needs no source
    exact ⟨.arguments, .provider, rfl⟩
  · exact ⟨source, _, rfl⟩

/-- A plan is made of what fills the property and of its check. -/
theorem eq_of_make {category : Category} {plan : FieldPlan}
    (h : make property category owner = .ok plan) :
    plan.field = property.name ∧
      statementsFor property (.ofCategory category) owner = .ok plan.statements ∧
      plan.check = checkFor property category owner := by
  obtain ⟨statements, hstatements, rfl⟩ := dispatch_eq_ok_iff.mp (make_eq_ok_iff.mp h)
  exact ⟨rfl, hstatements, rfl⟩

/-- What the plan for a property is made from. -/
theorem exists_of_make {category : Category} {plan : FieldPlan}
    (h : make property category owner = .ok plan) :
    plan.field = property.name ∧ plan.check = checkFor property category owner ∧
      ∃ source strategy, plan.statements = fromSource property source owner strategy := by
  obtain ⟨hfield, hstatements, hcheck⟩ := eq_of_make h
  exact ⟨hfield, hcheck, exists_fromSource hstatements⟩

/-- A plan is written with the words of its property and runtime symbols only. -/
theorem words_ofField {category : Category} {plan : FieldPlan}
    (h : make property category owner = .ok plan) :
    ∀ inner ∈ preorderAll (Injector.ofField plan),
      inner.words symbols ⊆ property.words symbols := by
  obtain ⟨-, hcheck, source, strategy, hstatements⟩ := exists_of_make h
  rw [Injector.ofField, preorderAll_append, hcheck, hstatements, List.forall_mem_append]
  exact ⟨words_fromSource source strategy, words_checkFor category⟩

/-- A plan has a statement at least. -/
theorem statements_ne_nil {category : Category} {plan : FieldPlan}
    (h : make property category owner = .ok plan) : plan.statements ≠ [] := by
  obtain ⟨-, -, source, strategy, hstatements⟩ := exists_of_make h
  rw [hstatements]
  exact fromSource_ne_nil source strategy

end FieldPlan

end

/-! ### The words of an injector -/

/-- No name that is written into a file has a line feed: not the suffix of the classes, no runtime
symbol, and no name of a property, of a type or of an owner, and no package. -/
structure InlineNames (settings : Settings) (properties : List Property) : Prop where
  /-- The suffix of the classes. -/
  suffix : Text.Inline settings.naming.suffix
  /-- The runtime symbols. -/
  symbols : ∀ name ∈ settings.symbols.written, Text.Inline name
  /-- The fields. -/
  fields : ∀ property ∈ properties, Text.Inline property.name
  /-- The types, their arguments included. -/
  types : ∀ property ∈ properties, ∀ name ∈ property.type.names, Text.Inline name
  /-- The owners. -/
  owners : ∀ property ∈ properties, ∀ owner ∈ property.owner, Text.Inline owner.name
  /-- Their packages. -/
  packages : ∀ property ∈ properties, ∀ owner ∈ property.owner, Text.Inline owner.package

/-- The plans of properties have their names, in order. -/
theorem Planned.map_field {settings : Settings} {owner : Owner} {properties : List Property}
    {plans : List FieldPlan} (h : Planned settings owner properties plans) :
    plans.map FieldPlan.field = properties.map Property.name := by
  induction h with
  | nil => rfl
  | cons hfirst _ ih => rw [List.map_cons, List.map_cons, ih, (FieldPlan.exists_of_make hfirst).1]

/-- The plan of a property stands where the property does. -/
theorem Planned.exists_plan {settings : Settings} {owner : Owner} {properties : List Property}
    {plans : List FieldPlan} (h : Planned settings owner properties plans) {i : Nat}
    {property : Property} (hproperty : properties[i]? = some property) :
    ∃ plan, plans[i]? = some plan ∧ Injector.planFor settings owner property = .ok plan := by
  obtain ⟨hlt, rfl⟩ := List.getElem?_eq_some_iff.mp hproperty
  have hlt' : i < plans.length := h.length_eq ▸ hlt
  exact ⟨plans[i], List.getElem?_eq_getElem hlt', List.Forall₂.get h hlt hlt'⟩

namespace InlineNames

variable {settings : Settings} {properties : List Property}

/-- Nothing in the plan for a property has a line feed. -/
theorem words (h : InlineNames settings properties) {property : Property}
    (hmem : property ∈ properties) :
    ∀ word ∈ property.words settings.symbols, Text.Inline word := by
  rw [Property.words, List.forall_mem_cons, List.forall_mem_cons, List.forall_mem_append]
  exact ⟨h.fields property hmem, by decide, h.types property hmem, h.symbols⟩

end InlineNames

theorem mem_ownersOf {properties : List Property} {owner : Owner}
    (h : owner ∈ ownersOf properties) : ∃ property ∈ properties, property.owner = some owner := by
  obtain ⟨name, -, hfirst⟩ := List.mem_filterMap.mp h
  obtain ⟨property, hhead, howner⟩ := Option.bind_eq_some_iff.mp hfirst
  have hmem : property ∈ propertiesOf name properties := List.mem_of_head? hhead
  exact ⟨property, (mem_propertiesOf.mp hmem).1, howner⟩

namespace Kotlin

section

variable {settings : Settings} {properties : List Property} {injectors : List Injector}
  {injector : Injector}

/-- An injector is for the owner of some property. -/
theorem exists_property_of_owner (h : injectorsOf settings properties = .ok injectors)
    (hmem : injector ∈ injectors) : ∃ property ∈ properties, injector.owner ∈ property.owner := by
  refine mem_ownersOf ?_
  rw [← map_owner_injectorsOf h]
  exact List.mem_map_of_mem hmem

/-- The words of the statements of an injector have no line feed. -/
theorem inline_statements (h : injectorsOf settings properties = .ok injectors)
    (hmem : injector ∈ injectors) (hinline : InlineNames settings properties) :
    ∀ inner ∈ preorderAll injector.statements, ∀ word ∈ inner.words settings.symbols,
      Text.Inline word := by
  rw [Injector.statements, preorderAll_append, preorderAll_flatMap, List.forall_mem_append]
  constructor
  · obtain ⟨property, hproperty, howner⟩ := exists_property_of_owner h hmem
    have hname : Text.Inline injector.owner.name := hinline.owners property hproperty _ howner
    have hregistry : Text.Inline settings.symbols.registry :=
      hinline.symbols _ (by simp [Symbols.written])
    have hservice : Text.Inline settings.symbols.serializationService :=
      hinline.symbols _ (by simp [Symbols.written])
    rw [prelude_of_mem h hmem]
    simp [Injector.preludeFor, preorderAll, Statement.preorder, Statement.words, Owner.asType,
      DeclaredType.ofName, DeclaredType.names, DeclaredType.namesAll, hname, hregistry, hservice]
  · intro inner hinner
    obtain ⟨plan, hplan, hinner⟩ := List.mem_flatMap.mp hinner
    obtain ⟨property, hzip, hmade⟩ := exists_mem_zip_of_forall₂ (planned_of_mem h hmem).flip hplan
    have hproperty := (mem_propertiesOf.mp (List.of_mem_zip hzip).2).1
    intro word hword
    exact hinline.words hproperty word (FieldPlan.words_ofField hmade inner hinner hword)

/-- The imported names have no line feed. -/
theorem inline_imports (h : injectorsOf settings properties = .ok injectors)
    (hmem : injector ∈ injectors) (hinline : InlineNames settings properties) :
    ∀ name ∈ injector.imports.toList, Text.Inline name := by
  intro name hname
  have hwords := inline_statements h hmem hinline
  rw [eq_make_of_mem h hmem] at hname
  -- an imported name was recorded, and what is recorded is a word of some statement
  have hrecorded := Mentions.mem_types_of_mem_simpleNames (Mentions.mem_imports.mp hname).1
  obtain ⟨-, rfl | ⟨statement, hstatement, hrecorded⟩⟩ := mem_types_mentions.mp hrecorded
  · exact hinline.symbols _ (by simp [Symbols.written])
  · rw [Injector.statements, prelude_of_mem h hmem] at hwords
    exact hwords statement hstatement name (Statement.mem_words hrecorded)

/-- The lines of an injector have no line feed in their words. -/
theorem inline_injectorLines (h : injectorsOf settings properties = .ok injectors)
    (hmem : injector ∈ injectors) (hinline : InlineNames settings properties) :
    InlineLines (injectorLines settings injector) := by
  obtain ⟨property, hproperty, howner⟩ := exists_property_of_owner h hmem
  have hpackage := inline_packageLines (hinline.packages property hproperty _ howner)
  have himports := inline_importLines (inline_imports h hmem hinline)
  have hclass : Text.Inline injector.className := by
    rw [eq_make_of_mem h hmem]
    exact Text.inline_append.mpr
      ⟨inline_simpleName (hinline.owners property hproperty _ howner), hinline.suffix⟩
  have hinterface : Text.Inline settings.symbols.injectorInterface :=
    hinline.symbols _ (by simp [Symbols.written])
  have hservice : Text.Inline settings.symbols.serializationService :=
    hinline.symbols _ (by simp [Symbols.written])
  have hframe : InlineLines (frameLines settings.symbols injector) := by
    rw [frameLines, classPieces, memberPieces]
    simp only [inlineLines_cons, inlineRow_cons]
    exact ⟨⟨by decide, hclass, by decide, hinterface, by decide, inlineRow_nil⟩,
      ⟨by decide, hservice, by decide, inlineRow_nil⟩, inlineRow_nil,
      ⟨by decide, inlineRow_nil⟩, inlineLines_nil⟩
  have hstatements := inline_statementLinesAll injector.statements 2
    (inline_statements h hmem hinline)
  rw [injectorLines, headLines]
  simp only [inlineLines_append]
  exact ⟨⟨⟨⟨⟨hpackage, himports⟩, inline_headerLines _⟩, hframe⟩, hstatements⟩, by decide⟩

end

/-! ### What the marks count -/

/-- The lines of a field. -/
def blockLines (symbols : Symbols) (depth : Nat) (plan : FieldPlan) : List Line :=
  statementLinesAll symbols depth (Injector.ofField plan)

/-- The lines of several fields. -/
def fieldLines (symbols : Symbols) (depth : Nat) (plans : List FieldPlan) : List Line :=
  statementLinesAll symbols depth (plans.flatMap Injector.ofField)

section

variable (symbols : Symbols) (depth : Nat)

theorem fieldLines_cons (plan : FieldPlan) (rest : List FieldPlan) :
    fieldLines symbols depth (plan :: rest) =
      blockLines symbols depth plan ++ fieldLines symbols depth rest :=
  statementLinesAll_append _ _ _ _

theorem fieldLines_append (first second : List FieldPlan) :
    fieldLines symbols depth (first ++ second) =
      fieldLines symbols depth first ++ fieldLines symbols depth second := by
  rw [fieldLines, List.flatMap_append]
  exact statementLinesAll_append _ _ _ _

/-- The lines of the fields around one of them. -/
theorem fieldLines_split {plans : List FieldPlan} {i : Nat} {plan : FieldPlan}
    (h : plans[i]? = some plan) :
    fieldLines symbols depth plans = fieldLines symbols depth (plans.take i) ++
      (blockLines symbols depth plan ++ fieldLines symbols depth (plans.drop (i + 1))) := by
  obtain ⟨hlt, rfl⟩ := List.getElem?_eq_some_iff.mp h
  rw [← fieldLines_cons, ← List.drop_eq_getElem_cons hlt, ← fieldLines_append,
    List.take_append_drop]

/-- A field of the list adds its lines to those before it. -/
theorem fieldLines_take_succ {plans : List FieldPlan} {i : Nat} {plan : FieldPlan}
    (h : plans[i]? = some plan) :
    fieldLines symbols depth (plans.take (i + 1)) =
      fieldLines symbols depth (plans.take i) ++ blockLines symbols depth plan := by
  obtain ⟨hlt, rfl⟩ := List.getElem?_eq_some_iff.mp h
  rw [List.take_succ_eq_append_getElem hlt, fieldLines_append, fieldLines_cons]
  exact congrArg _ (List.append_nil _)

/-- Each mark counts the lines before its field. -/
theorem getElem?_fieldMarks : ∀ (plans : List FieldPlan) (start i : Nat),
    (fieldMarks symbols depth start plans)[i]? = plans[i]?.map fun plan =>
      ⟨start + (fieldLines symbols depth (plans.take i)).length, plan.field⟩
  | [], _, _ => rfl
  | plan :: rest, start, 0 => rfl
  | plan :: rest, start, i + 1 => by
      -- the marks of the rest start after the lines of the first field
      rw [fieldMarks, List.getElem?_cons_succ, List.getElem?_cons_succ,
        getElem?_fieldMarks rest]
      refine Option.map_congr fun next _ => ?_
      rw [List.take_succ_cons, fieldLines_cons, List.length_append, Nat.add_assoc]
      rfl

theorem map_field_fieldMarks : ∀ (plans : List FieldPlan) (start : Nat),
    (fieldMarks symbols depth start plans).map FieldMark.field = plans.map FieldPlan.field
  | [], _ => rfl
  | plan :: rest, start => by
      rw [fieldMarks, List.map_cons, List.map_cons, map_field_fieldMarks rest]

theorem statementLines_ne_nil (statement : Statement) :
    statementLines symbols depth statement ≠ [] := by
  cases statement <;> simp [statementLines]

/-- A field with statements has a line. -/
theorem blockLines_length_pos {plan : FieldPlan} (h : plan.statements ≠ []) :
    0 < (blockLines symbols depth plan).length := by
  obtain ⟨first, rest, hstatements⟩ := List.exists_cons_of_ne_nil h
  rw [blockLines, Injector.ofField, hstatements, List.cons_append, statementLinesAll,
    List.length_append]
  have hfirst := List.length_pos_of_ne_nil (statementLines_ne_nil symbols depth first)
  omega

/-- Each field starts after the ones before it, and after the last of them the count has grown
again. -/
theorem increasing_fieldMarks : ∀ (plans : List FieldPlan) (start : Nat),
    (∀ plan ∈ plans, plan.statements ≠ []) →
      ((fieldMarks symbols depth start plans).map FieldMark.line ++
          [start + (fieldLines symbols depth plans).length]).Pairwise (· < ·) ∧
        ∀ line ∈ (fieldMarks symbols depth start plans).map FieldMark.line ++
          [start + (fieldLines symbols depth plans).length], start ≤ line
  | [], start, _ => ⟨List.pairwise_singleton _ _, by simp [fieldMarks]⟩
  | plan :: rest, start, h => by
      rw [List.forall_mem_cons] at h
      -- the lower bound carries the induction: all later lines are past this whole field
      have hblock := blockLines_length_pos symbols depth h.1
      obtain ⟨hrest, hlater⟩ := increasing_fieldMarks rest
        (start + (blockLines symbols depth plan).length) h.2
      have hend : start + (fieldLines symbols depth (plan :: rest)).length =
          start + (blockLines symbols depth plan).length +
            (fieldLines symbols depth rest).length := by
        rw [fieldLines_cons, List.length_append, Nat.add_assoc]
      rw [fieldMarks, List.map_cons, List.cons_append, hend, List.pairwise_cons,
        List.forall_mem_cons]
      refine ⟨⟨fun line hline => ?_, hrest⟩, le_refl _, fun line hline => ?_⟩
      · exact lt_of_lt_of_le (Nat.lt_add_of_pos_right hblock) (hlater line hline)
      · exact le_trans (Nat.le_add_right _ _) (hlater line hline)

end

end Kotlin

/-! ### The lines of a file -/

namespace Kotlin.Dialect

/-- The lines of a field in the body of the function: its statements and then its check. -/
def fieldText (d : Dialect) (plan : FieldPlan) : List String :=
  (d.writeAll plan.check.toList
    (d.writeAll plan.statements { SourceText.empty with depth := 2 })).lines

theorem fieldText_eq (d : Dialect) (plan : FieldPlan) :
    d.fieldText plan = (blockLines d.symbols 2 plan).map (Line.spell d.short) := by
  rw [fieldText, writeAll_eq d plan.statements _ rfl, writeAll_eq d plan.check.toList _ (by rfl),
    addLines_addLines, blockLines, Injector.ofField, statementLinesAll_append]
  rfl

end Kotlin.Dialect

namespace SourceFile

/-- The lines of a file: its text, cut at the line feeds. -/
def textLines (file : SourceFile) : List String := Text.cutLines file.code

/-- The number of the line that closes the function: after it come the line that closes the class
and the empty text behind the last line feed. -/
def closingLine (file : SourceFile) : Nat := file.textLines.length - 3

/-- Where the lines of a field end: where those of the next one start, and for the last one at the
line that closes the function. -/
def endOfField (file : SourceFile) (i : Nat) : Nat :=
  match file.marks[i + 1]? with
  | some next => next.line
  | none => file.closingLine

/-- The lines of a file belong to the properties of the owner as the marks of the file say. -/
structure SharedOut (settings : Settings) (owner : Owner) (short : NameSet)
    (properties : List Property) (file : SourceFile) : Prop where
  /-- There is a mark for each property, in order. -/
  fields : file.marks.map FieldMark.field = properties.map Property.name
  /-- Each mark is at a later line, and all of them before the end of the function. -/
  increasing : (file.marks.map FieldMark.line ++ [file.closingLine]).Pairwise (· < ·)
  /-- The function and the class are closed at the end. -/
  closing : file.textLines.drop file.closingLine = ["    \x7d", "\x7d", ""]
  /-- The lines from the mark of a property on, up to the end of the field, are those of its plan:
  its statements and then its check. -/
  lines : ∀ i property, properties[i]? = some property →
    ∃ plan mark, Injector.planFor settings owner property = .ok plan ∧
      file.marks[i]? = some mark ∧
      (file.textLines.take (file.endOfField i)).drop mark.line =
        Kotlin.Dialect.fieldText ⟨settings.symbols, short⟩ plan

end SourceFile

namespace Kotlin

section

variable {settings : Settings} {properties : List Property} {injectors : List Injector}
  {injector : Injector}

/-- The lines above the fields. -/
def openingLines (settings : Settings) (injector : Injector) : List Line :=
  headLines settings injector ++ frameLines settings.symbols injector ++
    statementLinesAll settings.symbols 2 injector.prelude

/-- The fields of an injector stand between what opens and what closes its function. -/
theorem injectorLines_eq (settings : Settings) (injector : Injector) :
    injectorLines settings injector =
      openingLines settings injector ++ fieldLines settings.symbols 2 injector.fields ++
        [⟨1, [.text "\x7d"]⟩, ⟨0, [.text "\x7d"]⟩] := by
  rw [injectorLines, openingLines, Injector.statements, statementLinesAll_append, fieldLines]
  simp only [List.append_assoc]

/-- The lines of a file are those of its layout. -/
theorem textLines_ofInjector (h : injectorsOf settings properties = .ok injectors)
    (hmem : injector ∈ injectors) (hinline : InlineNames settings properties) :
    (SourceFile.ofInjector settings injector).textLines =
      (openingLines settings injector ++
        fieldLines settings.symbols 2 injector.fields).map (Line.spell injector.simpleNames) ++
      ["    \x7d", "\x7d", ""] := by
  have hlines := inline_injectorLines h hmem hinline
  have hne : (injectorLines settings injector).map (Line.spell injector.simpleNames) ≠ [] := by
    simp [injectorLines]
  rw [SourceFile.textLines, code_eq_spelled_lines, Text.cutLines_unlines hne]
  · have hclosing : [⟨1, [.text "\x7d"]⟩, ⟨0, [.text "\x7d"]⟩].map
        (Line.spell injector.simpleNames) = ["    \x7d", "\x7d"] := by rfl
    rw [injectorLines_eq, List.map_append, hclosing, List.append_assoc]
    rfl
  · intro text htext
    obtain ⟨line, hline, rfl⟩ := List.mem_map.mp htext
    exact (hlines line hline).spell _

end

end Kotlin

/-- The part of a list between what stands before it and what stands after it. -/
theorem drop_take_middle {α : Type} {first second middle after : List α} {start stop : Nat}
    (hstart : start = first.length + second.length) (hstop : stop = start + middle.length) :
    ((first ++ (second ++ (middle ++ after))).take stop).drop start = middle := by
  rw [← List.append_assoc, ← List.append_assoc, List.take_left' (by simp; omega),
    List.drop_left' (by simp; omega)]

namespace SourceFile

section

variable {settings : Settings} {properties : List Property} {injectors : List Injector}
  {injector : Injector}

theorem marks_ofInjector (settings : Settings) (injector : Injector) :
    (ofInjector settings injector).marks =
      Kotlin.fieldMarks settings.symbols 2 (Kotlin.openingLines settings injector).length
        injector.fields := by
  unfold ofInjector
  rw [Kotlin.writeInjector_eq]
  rfl

theorem closingLine_ofInjector (h : injectorsOf settings properties = .ok injectors)
    (hmem : injector ∈ injectors) (hinline : InlineNames settings properties) :
    (ofInjector settings injector).closingLine =
      (Kotlin.openingLines settings injector).length +
        (Kotlin.fieldLines settings.symbols 2 injector.fields).length := by
  rw [closingLine, Kotlin.textLines_ofInjector h hmem hinline, List.length_append, List.length_map,
    List.length_append]
  rfl

/-- Up to the end of a field there are the lines of this field and those before it. -/
theorem endOfField_ofInjector (h : injectorsOf settings properties = .ok injectors)
    (hmem : injector ∈ injectors) (hinline : InlineNames settings properties) (i : Nat) :
    (ofInjector settings injector).endOfField i =
      (Kotlin.openingLines settings injector).length +
        (Kotlin.fieldLines settings.symbols 2 (injector.fields.take (i + 1))).length := by
  rw [endOfField, marks_ofInjector, Kotlin.getElem?_fieldMarks]
  cases hnext : injector.fields[i + 1]? with
  | some next => rfl
  | none =>
    have hall := List.take_of_length_le (List.getElem?_eq_none_iff.mp hnext)
    rw [hall]
    exact closingLine_ofInjector h hmem hinline

/-- The lines of a file belong to the properties of its owner as its marks say. -/
theorem sharedOut_ofInjector (h : injectorsOf settings properties = .ok injectors)
    (hmem : injector ∈ injectors) (hinline : InlineNames settings properties) :
    (ofInjector settings injector).SharedOut settings injector.owner injector.simpleNames
      (propertiesOf injector.owner.name properties) := by
  have hplanned := planned_of_mem h hmem
  have hlines := Kotlin.textLines_ofInjector h hmem hinline
  have hclosing := closingLine_ofInjector h hmem hinline
  have hstatements : ∀ plan ∈ injector.fields, plan.statements ≠ [] := by
    intro plan hplan
    obtain ⟨property, -, hmade⟩ := exists_mem_zip_of_forall₂ hplanned.flip hplan
    exact FieldPlan.statements_ne_nil hmade
  constructor
  case fields => rw [marks_ofInjector, Kotlin.map_field_fieldMarks, hplanned.map_field]
  case increasing =>
    rw [marks_ofInjector, hclosing]
    exact (Kotlin.increasing_fieldMarks settings.symbols 2 injector.fields _ hstatements).1
  case closing =>
    rw [hclosing, hlines]
    exact List.drop_left' (by rw [List.length_map, List.length_append])
  case lines =>
    intro i property hproperty
    obtain ⟨plan, hplan, hmade⟩ := hplanned.exists_plan hproperty
    have hmark : (ofInjector settings injector).marks[i]? =
        some ⟨(Kotlin.openingLines settings injector).length +
          (Kotlin.fieldLines settings.symbols 2 (injector.fields.take i)).length, plan.field⟩ := by
      rw [marks_ofInjector, Kotlin.getElem?_fieldMarks, hplan, Option.map_some]
    refine ⟨plan, _, hmade, hmark, ?_⟩
    -- the lines above the fields, those of the fields before, its own, and all others
    rw [hlines, endOfField_ofInjector h hmem hinline,
      Kotlin.fieldLines_take_succ settings.symbols 2 hplan,
      Kotlin.fieldLines_split settings.symbols 2 hplan, Kotlin.Dialect.fieldText_eq]
    simp only [List.map_append, List.append_assoc, List.length_append]
    exact drop_take_middle (by simp) (by simp [Nat.add_assoc])

/-- **The marks share out the lines of every file** among the properties of its owner, in the order
in which they are given: cut at its line feeds, the text has the statements of a property and its
check from the line of the property's mark up to that of the next mark, or up to the end of the
function.  Keys, messages and the header may have line feeds, names may not. -/
theorem sharedOut_of_compile (settings : Settings) (properties : List Property)
    (files : List SourceFile) (h : compile settings properties = .ok files)
    (hinline : InlineNames settings properties) :
    ∃ injectors, injectorsOf settings properties = .ok injectors ∧
      files = injectors.map (ofInjector settings) ∧
      ∀ injector ∈ injectors,
        (ofInjector settings injector).SharedOut settings injector.owner injector.simpleNames
          (propertiesOf injector.owner.name properties) := by
  obtain ⟨injectors, hinjectors, hfiles⟩ := exists_injectors_of_compile h
  exact ⟨injectors, hinjectors, hfiles, fun injector hmem =>
    sharedOut_ofInjector hinjectors hmem hinline⟩

end

/-- Settings with a header of two lines. -/
def twoLineHeader : Settings := { naming := { header := "One\nTwo" } }

/-- An integer and a text of a screen; the key of the text has a line feed. -/
def numberAndText : List Property :=
  [intOf "id" "app.Main" none,
    ⟨"title", .ofName "kotlin.String", .visible, some ⟨"app.Main", none, .screen, none⟩,
      ⟨some "a\nb", true, none⟩⟩]

/-- With a header of two lines and a line feed in a key, three lines are shared out to the integer
and then six to the text and its check. -/
theorem sharedOut_numberAndText :
    ∃ files, compile twoLineHeader numberAndText = .ok files ∧
      InlineNames twoLineHeader numberAndText ∧
      files.map SourceFile.marks = [[⟨17, "id"⟩, ⟨20, "title"⟩]] ∧
      ∃ injectors, injectorsOf twoLineHeader numberAndText = .ok injectors ∧
        files = injectors.map (ofInjector twoLineHeader) ∧
        ∀ injector ∈ injectors,
          (ofInjector twoLineHeader injector).SharedOut twoLineHeader injector.owner
            injector.simpleNames (propertiesOf injector.owner.name numberAndText) := by
  have hfiles : ∃ files, compile twoLineHeader numberAndText = .ok files ∧
      files.map SourceFile.marks = [[⟨17, "id"⟩, ⟨20, "title"⟩]] := ⟨_, rfl, by decide +kernel⟩
  obtain ⟨files, hcompile, hmarks⟩ := hfiles
  have hinline : InlineNames twoLineHeader numberAndText :=
    { suffix := by decide +kernel
      symbols := by decide +kernel
      fields := by decide +kernel
      types := by decide +kernel
      owners := by decide +kernel
      packages := by decide +kernel }
  exact ⟨files, hcompile, hinline, hmarks,
    sharedOut_of_compile twoLineHeader numberAndText files hcompile hinline⟩

end SourceFile

end Wiring
