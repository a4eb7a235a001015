import Mathlib.Data.List.Perm.Basic
import Wiring.Proofs.FieldLines

/-!
# The order of declarations

The names that a file spells short are found by looking at all of its fields together, and the text
of every field depends on them.  But what the fields mention is a set, so the order of the
properties does not show in it: rearranging the properties of an owner rearranges the blocks of
lines that fill them and leaves every line of them, and all other lines, as they are.

## Main definitions

* `fieldBlock` — the lines that fill a property.
* `SourceFile.opening`, `SourceFile.blocks`, `SourceFile.closing` — a file, cut at its marks.
* `Rearranged` — two files that differ in the order of their blocks only.

## Main results

* `injectorsOf_of_owner` — the one injector of an owner's properties.
* `types_mentions_of_perm` — what rearranged fields mention.
* `blocks_ofInjector` — the lines from each mark to the next are those of its property.
* `compile_of_perm` — **rearranging the properties of an owner rearranges the blocks of its file.**
-/

namespace Wiring

section

variable {settings : Settings} {owner : Owner} {properties : List Property}

/-! ### The properties of one owner -/

/-- The properties of one owner are all of its name. -/
theorem propertiesOf_of_owner (howner : ∀ property ∈ properties, property.owner = some owner) :
    propertiesOf owner.name properties = properties := by
  refine List.filter_eq_self.mpr fun property hmem => decide_eq_true ?_
  rw [Property.ownerName?, howner property hmem]
  rfl

/-- Properties of one owner form one group. -/
theorem groupByOwner_of_owner (howner : ∀ property ∈ properties, property.owner = some owner)
    (hne : properties ≠ []) (heligible : ∀ property ∈ properties, property.Eligible) :
    groupByOwner properties = .ok [⟨owner, properties⟩] := by
  obtain ⟨groups, hgroups⟩ := groupByOwner_ok_iff.mpr heligible
  have hall := propertiesOf_of_owner howner
  obtain ⟨first, hfirst⟩ := List.exists_mem_of_ne_nil properties hne
  have hnamed : owner.name ∈ ownerNames properties := by
    rw [← hall] at hfirst
    obtain ⟨hmem, hname⟩ := mem_propertiesOf.mp hfirst
    exact mem_ownerNames.mpr ⟨first, hmem, hname⟩
  -- the group of the name has all properties, and its owner is the one they carry
  have hgrouped := grouped_groupByOwner hgroups
  obtain ⟨group, hgroup, hsame⟩ : ∃ group ∈ groups, group.owner.name = owner.name := by
    rw [← hgrouped.names] at hnamed
    exact List.mem_map.mp hnamed
  have hmembers : group.properties = properties := by
    rw [hgrouped.members group hgroup, hsame, hall]
  obtain ⟨head, rest, hproperties, hhead⟩ := hgrouped.owners group hgroup
  rw [hmembers] at hproperties
  have hcarried : some group.owner = some owner := by
    rw [← hhead]
    exact howner head (by rw [hproperties]; exact List.mem_cons_self)
  have hgroupEq : group = ⟨owner, properties⟩ := by
    rw [← hmembers, ← Option.some.inj hcarried]
  have halone := groupByOwner_propertiesOf hgroups hgroup
  rwa [hsame, hall, hgroupEq] at halone

/-- The properties of one owner have one injector, made from the plans of all of them. -/
theorem injectorsOf_of_owner (howner : ∀ property ∈ properties, property.owner = some owner)
    (hne : properties ≠ []) {injectors : List Injector} :
    injectorsOf settings properties = .ok injectors ↔
      (∀ property ∈ properties, property.Eligible) ∧
        ∃ fields, Planned settings owner properties fields ∧
          injectors = [.make settings owner fields] := by
  rw [injectorsOf_eq_ok_iff]
  constructor
  · rintro ⟨groups, hgroups, hall⟩
    have heligible := groupByOwner_ok_iff.mp ⟨groups, hgroups⟩
    rw [groupByOwner_of_owner howner hne heligible] at hgroups
    obtain rfl := Except.ok.inj hgroups
    obtain ⟨injector, rest, hinjector, hrest, rfl⟩ := List.forall₂_cons_left_iff.mp hall
    obtain rfl := List.forall₂_nil_left_iff.mp hrest
    obtain ⟨fields, hplanned, rfl⟩ := ofGroup_eq_ok_iff.mp hinjector
    exact ⟨heligible, fields, hplanned, rfl⟩
  · rintro ⟨heligible, fields, hplanned, rfl⟩
    refine ⟨_, groupByOwner_of_owner howner hne heligible, .cons ?_ .nil⟩
    exact ofGroup_eq_ok_iff.mpr ⟨fields, hplanned, rfl⟩

/-! ### What rearranged fields mention -/

/-- Fields mention the same types in any order. -/
theorem types_mentions_of_perm {symbols : Symbols} {fields moved : List FieldPlan}
    (hperm : moved.Perm fields) :
    (Injector.mentions symbols owner moved).types =
      (Injector.mentions symbols owner fields).types := by
  refine NameSet.ext fun name => ?_
  have hstatements : ∀ statement,
      statement ∈ preorderAll (Injector.preludeFor owner ++ moved.flatMap Injector.ofField) ↔
        statement ∈ preorderAll (Injector.preludeFor owner ++ fields.flatMap Injector.ofField) := by
    intro statement
    simp only [preorderAll_append, preorderAll_flatMap, List.mem_append, List.mem_flatMap,
      hperm.mem_iff]
  simp only [mem_types_mentions, hstatements]

/-- Injectors made from rearranged fields differ in the order of the fields only. -/
theorem make_of_perm {fields moved : List FieldPlan} (hperm : moved.Perm fields) :
    Injector.make settings owner moved =
      { Injector.make settings owner fields with fields := moved } := by
  have htypes : (Injector.mentions settings.symbols owner moved).types =
      (Injector.mentions settings.symbols owner fields).types := types_mentions_of_perm hperm
  have hshort := Mentions.simpleNames_congr htypes owner.package
  unfold Injector.make Mentions.imports
  dsimp only
  rw [hshort]

end

/-! ### A file, cut at its marks -/

/-- The lines that fill a property, in a file that spells some names short. -/
def fieldBlock (settings : Settings) (owner : Owner) (short : NameSet) (property : Property) :
    List String :=
  match Injector.planFor settings owner property with
  | .ok plan => Kotlin.Dialect.fieldText ⟨settings.symbols, short⟩ plan
  | .error _ => []

/-- The blocks of an owner's properties are the lines of their plans. -/
theorem Planned.flatten_fieldBlock {settings : Settings} {owner : Owner}
    {properties : List Property} {plans : List FieldPlan}
    (h : Planned settings owner properties plans) (short : NameSet) :
    (properties.map (fieldBlock settings owner short)).flatten =
      (Kotlin.fieldLines settings.symbols 2 plans).map (Kotlin.Line.spell short) := by
  induction h with
  | nil => rfl
  | @cons property plan properties plans hplan _ ih =>
    have hblock : fieldBlock settings owner short property =
        (Kotlin.blockLines settings.symbols 2 plan).map (Kotlin.Line.spell short) := by
      rw [fieldBlock, hplan]
      exact Kotlin.Dialect.fieldText_eq _ plan
    rw [List.map_cons, List.flatten_cons, hblock, ih, Kotlin.fieldLines_cons, List.map_append]

namespace SourceFile

/-- The lines above the fields. -/
def opening (file : SourceFile) : List String :=
  match file.marks.head? with
  | some mark => file.textLines.take mark.line
  | none => file.textLines.take file.closingLine

/-- The lines of each field: those from its mark up to where the next field starts. -/
def blocks (file : SourceFile) : List (List String) :=
  file.marks.mapIdx fun i mark => (file.textLines.take (file.endOfField i)).drop mark.line

/-- The lines below the fields. -/
def closing (file : SourceFile) : List String := file.textLines.drop file.closingLine

section

variable {settings : Settings} {owner : Owner} {properties : List Property}
  {injectors : List Injector} {injector : Injector}

@[simp] theorem package_ofInjector (settings : Settings) (injector : Injector) :
    (ofInjector settings injector).package = injector.owner.package := rfl

@[simp] theorem className_ofInjector (settings : Settings) (injector : Injector) :
    (ofInjector settings injector).className = injector.className := rfl

@[simp] theorem source_ofInjector (settings : Settings) (injector : Injector) :
    (ofInjector settings injector).source = injector.owner.sourceFile := rfl

/-- Above the fields stand the lines that open the function. -/
theorem opening_ofInjector (h : injectorsOf settings properties = .ok injectors)
    (hmem : injector ∈ injectors) (hinline : InlineNames settings properties) :
    (ofInjector settings injector).opening =
      (Kotlin.openingLines settings injector).map (Kotlin.Line.spell injector.simpleNames) := by
  have hlines := Kotlin.textLines_ofInjector h hmem hinline
  rw [List.map_append, List.append_assoc] at hlines
  have hlength : (Kotlin.openingLines settings injector).length =
      ((Kotlin.openingLines settings injector).map
        (Kotlin.Line.spell injector.simpleNames)).length := (List.length_map _).symm
  unfold opening
  rw [closingLine_ofInjector h hmem hinline, marks_ofInjector, hlines]
  cases hfields : injector.fields with
  | nil =>
    exact List.take_left' hlength.symm
  | cons plan rest =>
    exact List.take_left' hlength.symm

/-- The lines from each mark to the next are those of its property. -/
theorem blocks_ofInjector (h : injectorsOf settings properties = .ok injectors)
    (hmem : injector ∈ injectors) (hinline : InlineNames settings properties) :
    (ofInjector settings injector).blocks =
      (propertiesOf injector.owner.name properties).map
        (fieldBlock settings injector.owner injector.simpleNames) := by
  have hshared := sharedOut_ofInjector h hmem hinline
  have hlength : (ofInjector settings injector).marks.length =
      (propertiesOf injector.owner.name properties).length := by
    have hfields := congrArg List.length hshared.fields
    rwa [List.length_map, List.length_map] at hfields
  refine List.ext_getElem? fun i => ?_
  rw [blocks, List.getElem?_mapIdx, List.getElem?_map]
  cases hproperty : (propertiesOf injector.owner.name properties)[i]? with
  | none =>
    have hnone : (ofInjector settings injector).marks[i]? = none := by
      rw [List.getElem?_eq_none_iff] at hproperty ⊢
      rwa [hlength]
    rw [hnone]
    rfl
  | some property =>
    obtain ⟨plan, mark, hplan, hmark, hlines⟩ := hshared.lines i property hproperty
    rw [hmark, Option.map_some, Option.map_some, hlines, fieldBlock, hplan]

/-- A file is what stands above its fields, the blocks of the fields, and what stands below. -/
theorem textLines_eq_blocks (h : injectorsOf settings properties = .ok injectors)
    (hmem : injector ∈ injectors) (hinline : InlineNames settings properties) :
    (ofInjector settings injector).textLines =
      (ofInjector settings injector).opening ++ (ofInjector settings injector).blocks.flatten ++
        (ofInjector settings injector).closing := by
  rw [closing, (sharedOut_ofInjector h hmem hinline).closing, blocks_ofInjector h hmem hinline,
    (planned_of_mem h hmem).flatten_fieldBlock, opening_ofInjector h hmem hinline,
    Kotlin.textLines_ofInjector h hmem hinline, List.map_append]

end

/-- Two files of an owner that differ in the order of their blocks only: the lines above and below
the fields are the same, and each property has the same block in both files, wherever it stands. -/
structure Rearranged (settings : Settings) (owner : Owner) (short : NameSet)
    (properties others : List Property) (file moved : SourceFile) : Prop where
  /-- The lines above the fields are the same, those of the imports among them. -/
  opening : moved.opening = file.opening
  /-- The lines below the fields are the same. -/
  closing : moved.closing = file.closing
  /-- In the one file there is a block for each property, in order. -/
  blocks : file.blocks = properties.map (fieldBlock settings owner short)
  /-- And so there is in the other. -/
  movedBlocks : moved.blocks = others.map (fieldBlock settings owner short)
  /-- The blocks are the same up to their order. -/
  perm : moved.blocks.Perm file.blocks
  /-- The one file has no other lines. -/
  whole : file.textLines = file.opening ++ file.blocks.flatten ++ file.closing
  /-- And neither has the other. -/
  movedWhole : moved.textLines = moved.opening ++ moved.blocks.flatten ++ moved.closing

/-- The files of injectors that differ in the order of their fields only. -/
theorem rearranged_ofInjector {settings : Settings} {owner : Owner}
    {properties others : List Property} {injector other : Injector}
    (howner : ∀ property ∈ properties, property.owner = some owner)
    (hperm : others.Perm properties) (h : injectorsOf settings properties = .ok [injector])
    (hother : injectorsOf settings others = .ok [other])
    (hinjector : injector.owner = owner) (hsame : other = { injector with fields := other.fields })
    (hinline : InlineNames settings properties) :
    Rearranged settings owner injector.simpleNames properties others
      (ofInjector settings injector) (ofInjector settings other) := by
  have hinlineOther : InlineNames settings others :=
    { suffix := hinline.suffix
      symbols := hinline.symbols
      fields := fun property hmem => hinline.fields property (hperm.mem_iff.mp hmem)
      types := fun property hmem => hinline.types property (hperm.mem_iff.mp hmem)
      owners := fun property hmem => hinline.owners property (hperm.mem_iff.mp hmem)
      packages := fun property hmem => hinline.packages property (hperm.mem_iff.mp hmem) }
  have hself : injector ∈ [injector] := List.mem_singleton_self injector
  have hselfOther : other ∈ [other] := List.mem_singleton_self other
  have hotherOwner : other.owner = owner := by rw [hsame]; exact hinjector
  have hshort : other.simpleNames = injector.simpleNames := by rw [hsame]
  have hblocks := blocks_ofInjector h hself hinline
  rw [hinjector, propertiesOf_of_owner howner] at hblocks
  have hmovedBlocks := blocks_ofInjector hother hselfOther hinlineOther
  rw [hotherOwner, hshort, propertiesOf_of_owner fun property hmem =>
    howner property (hperm.mem_iff.mp hmem)] at hmovedBlocks
  -- nothing above the fields depends on them
  have hopening : Kotlin.openingLines settings other = Kotlin.openingLines settings injector := by
    rw [hsame]
    rfl
  constructor
  case opening =>
    rw [opening_ofInjector hother hselfOther hinlineOther, opening_ofInjector h hself hinline,
      hopening, hshort]
  case closing =>
    rw [closing, closing, (sharedOut_ofInjector hother hselfOther hinlineOther).closing,
      (sharedOut_ofInjector h hself hinline).closing]
  case blocks => exact hblocks
  case movedBlocks => exact hmovedBlocks
  case perm =>
    rw [hblocks, hmovedBlocks]
    exact hperm.map _
  case whole => exact textLines_eq_blocks h hself hinline
  case movedWhole => exact textLines_eq_blocks hother hselfOther hinlineOther

/-- **Rearranging the properties of an owner rearranges the blocks of its file.**  If the properties
of an owner compile, they do so in any order; there is one file, and none without properties.  It
belongs to the same class in the same place, imports the same types and spells the same names
short, whatever the order is.  If no name that is written has a line feed, its lines are the same
above the fields and below them, and each property has the same block of lines. -/
theorem compile_of_perm (settings : Settings) (owner : Owner) (properties others : List Property)
    (howner : ∀ property ∈ properties, property.owner = some owner)
    (hperm : others.Perm properties) (files : List SourceFile)
    (h : compile settings properties = .ok files) :
    ∃ movedFiles, compile settings others = .ok movedFiles ∧
      (properties = [] → files = [] ∧ movedFiles = []) ∧
      (properties ≠ [] → ∃ injector other,
        injectorsOf settings properties = .ok [injector] ∧
        injectorsOf settings others = .ok [other] ∧
        files = [ofInjector settings injector] ∧ movedFiles = [ofInjector settings other] ∧
        (ofInjector settings other).package = (ofInjector settings injector).package ∧
        (ofInjector settings other).className = (ofInjector settings injector).className ∧
        (ofInjector settings other).source = (ofInjector settings injector).source ∧
        (ofInjector settings other).relativePath = (ofInjector settings injector).relativePath ∧
        other.imports = injector.imports ∧ other.simpleNames = injector.simpleNames ∧
        (InlineNames settings properties →
          Rearranged settings owner injector.simpleNames properties others
            (ofInjector settings injector) (ofInjector settings other))) := by
  by_cases hne : properties = []
  · subst hne
    obtain rfl := hperm.eq_nil
    have hfiles : files = [] := (Except.ok.inj h).symm
    exact ⟨files, h, fun _ => ⟨hfiles, hfiles⟩, fun hne => absurd rfl hne⟩
  · have hotherNe : others ≠ [] := fun hnil => hne (hnil ▸ hperm).symm.eq_nil
    have hotherOwner : ∀ property ∈ others, property.owner = some owner :=
      fun property hmem => howner property (hperm.mem_iff.mp hmem)
    obtain ⟨injectors, hinjectors, rfl⟩ := exists_injectors_of_compile h
    obtain ⟨heligible, fields, hplanned, rfl⟩ := (injectorsOf_of_owner howner hne).mp hinjectors
    -- the plans move along with their properties
    obtain ⟨moved, hmoved, hfields⟩ := List.perm_comp_forall₂ hperm hplanned
    have hothers : injectorsOf settings others = .ok [.make settings owner moved] :=
      (injectorsOf_of_owner hotherOwner hotherNe).mpr
        ⟨fun property hmem => heligible property (hperm.mem_iff.mp hmem), moved, hmoved, rfl⟩
    have hsame : Injector.make settings owner moved =
        { Injector.make settings owner fields with fields := moved } := make_of_perm hfields
    have hclass : (ofInjector settings (.make settings owner moved)).className =
        (ofInjector settings (.make settings owner fields)).className := by
      rw [className_ofInjector, className_ofInjector, hsame]
    have hpackage : (ofInjector settings (.make settings owner moved)).package =
        (ofInjector settings (.make settings owner fields)).package := by
      rw [package_ofInjector, package_ofInjector, hsame]
    have hcompile : compile settings others =
        .ok [ofInjector settings (.make settings owner moved)] := by
      unfold compile
      rw [hothers]
      rfl
    refine ⟨_, hcompile, fun hnil => absurd hnil hne, fun _ =>
      ⟨_, _, hinjectors, hothers, List.map_singleton, rfl, hpackage, hclass, ?_, ?_, ?_, ?_, ?_⟩⟩
    · rw [source_ofInjector, source_ofInjector, hsame]
    · rw [relativePath, relativePath, hpackage, hclass]
    · rw [hsame]
    · rw [hsame]
    · intro hinline
      exact rearranged_ofInjector howner hperm hinjectors hothers rfl hsame hinline

/-- The owner of two properties. -/
def basket : Owner := ⟨"app.Basket", none, .screen, none⟩

/-- Two properties whose types have the same simple name. -/
def twoItems : List Property :=
  [⟨"first", .ofName "one.Item", .visible, some basket, .plain⟩,
    ⟨"second", .ofName "two.Item", .visible, some basket, .plain⟩]

/-- Only one of two types with the same simple name is imported, and it is the same one whichever
is declared first. -/
theorem compile_of_perm_twoItems :
    (∀ property ∈ twoItems, property.owner = some basket) ∧ twoItems.reverse.Perm twoItems ∧
    InlineNames {} twoItems ∧
    ∃ file moved short, compile {} twoItems = .ok [file] ∧
      compile {} twoItems.reverse = .ok [moved] ∧ "one.Item" ∈ short ∧ "two.Item" ∉ short ∧
      Rearranged {} basket short twoItems twoItems.reverse file moved := by
  have howner : ∀ property ∈ twoItems, property.owner = some basket := by
    simp [twoItems]
  have hperm : twoItems.reverse.Perm twoItems := List.reverse_perm _
  have hinline : InlineNames {} twoItems :=
    { suffix := by decide +kernel
      symbols := by decide +kernel
      fields := by decide +kernel
      types := by decide +kernel
      owners := by decide +kernel
      packages := by decide +kernel }
  have hcompile : ∃ files, compile {} twoItems = .ok files := ⟨_, rfl⟩
  obtain ⟨files, hfiles⟩ := hcompile
  obtain ⟨movedFiles, hmoved, -, hone⟩ :=
    compile_of_perm {} basket twoItems twoItems.reverse howner hperm files hfiles
  obtain ⟨injector, other, hinjector, -, rfl, rfl, -, -, -, -, -, -, hrearranged⟩ :=
    hone (by simp [twoItems])
  have hshort : ∃ injector, injectorsOf {} twoItems = .ok [injector] ∧
      "one.Item" ∈ injector.simpleNames ∧ "two.Item" ∉ injector.simpleNames :=
    ⟨_, rfl, by decide +kernel, by decide +kernel⟩
  obtain ⟨same, hsame, hfirst, hsecond⟩ := hshort
  obtain rfl := (List.cons.inj (Except.ok.inj (hinjector.symm.trans hsame))).1
  exact ⟨howner, hperm, hinline, _, _, injector.simpleNames, hfiles, hmoved, hfirst, hsecond,
    hrearranged hinline⟩

end SourceFile

end Wiring
