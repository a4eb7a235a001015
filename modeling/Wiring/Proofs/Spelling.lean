import Wiring.Proofs.Assembly
import Wiring.Proofs.ShortNames
import Wiring.Proofs.WrittenNames

/-!
# How the names in a written injector are spelled

Every dotted name that the writer writes was recorded.  A recorded name is written short or shares
its simple name with one that is, so the file can see every short name and can tell dotted names
apart.  Names without a dot are never recorded, and they are the only ones that another name can be
mistaken for.

## Main definitions

* `denoted` — what a spelled name stands for in a file.
* `Distinct` — no two names written short have the same simple name.

## Main results

* `denoted_spellName_iff` — when the spelling of a name stands for it.
* `recorded_and_visible` — **every dotted name in a written injector was recorded**, and is
  spelled so that the file can see it.
* `spelled_apart_iff` — **when different names are spelled differently**.
-/

namespace Wiring.Kotlin

/-! ### Recorded names -/

/-- Every dotted name that is spelled in an injector was recorded. -/
theorem mem_types_of_mem_mentionedNames {settings : Settings} {owner : Owner}
    {fields : List FieldPlan} {name : String}
    (h : name ∈ mentionedNames settings (Injector.make settings owner fields))
    (hdotted : isDotted name = true) :
    name ∈ (Injector.mentions settings.symbols owner fields).types := by
  refine mem_types_mentions.mpr ⟨hdotted, ?_⟩
  rw [mentionedNames_eq, List.mem_cons, List.mem_cons] at h
  rcases h with hinterface | hservice | hstatements
  · exact .inl hinterface
  · -- the member's type is also that of the service looked up first
    refine .inr ⟨.resolveDeserializer, List.mem_cons_self, ?_⟩
    rw [hservice]
    exact List.mem_cons_of_mem _ List.mem_cons_self
  · exact .inr (recorded_of_statementLinesAll hstatements)

/-! ### Short and full spelling -/

theorem spellName_of_mem {short : NameSet} {name : String} (h : name ∈ short) :
    spellName short name = simpleName name := if_pos h

theorem spellName_of_not_mem {short : NameSet} {name : String} (h : name ∉ short) :
    spellName short name = name := if_neg h

/-- A recorded name is written short, or in full because another recorded name holds its simple
name. -/
theorem spelled_short_or_full {mentions : Mentions} {name : String} (package : String)
    (h : name ∈ mentions.types) :
    (name ∈ mentions.simpleNames package ∧
        spellName (mentions.simpleNames package) name = simpleName name) ∨
      (spellName (mentions.simpleNames package) name = name ∧
        ∃ other ∈ mentions.simpleNames package,
          other ∈ mentions.types ∧ other ≠ name ∧ simpleName other = simpleName name) := by
  by_cases hshort : name ∈ mentions.simpleNames package
  · exact .inl ⟨hshort, spellName_of_mem hshort⟩
  · obtain ⟨holder, hholder, hsame⟩ := Mentions.exists_holder package h
    refine .inr ⟨spellName_of_not_mem hshort, holder, hholder,
      Mentions.mem_types_of_mem_simpleNames hholder, ?_, hsame⟩
    rintro rfl
    exact hshort hholder

/-- **Every dotted name in a written injector was recorded.**  The text of an injector is its
layout with the names in it spelled, whichever names are written short.  A dotted name in the
layout was recorded; it is written short, and then it is imported or seen without an import, or
it is written in full, and then another recorded name is the one written short that way. -/
theorem recorded_and_visible (settings : Settings) (owner : Owner) (fields : List FieldPlan) :
    (∀ short, (SourceFile.ofInjector settings
        { Injector.make settings owner fields with simpleNames := short }).code =
      Text.unlines ((injectorLines settings (Injector.make settings owner fields)).map
        (Line.spell short)) ++ "\n") ∧
    ∀ name ∈ mentionedNames settings (Injector.make settings owner fields),
      isDotted name = true →
      name ∈ (Injector.mentions settings.symbols owner fields).types ∧
      ((name ∈ (Injector.make settings owner fields).simpleNames ∧
          spellName (Injector.make settings owner fields).simpleNames name = simpleName name ∧
          (name ∈ (Injector.make settings owner fields).imports ∨
            packageOf name = owner.package ∨ packageOf name ∈ defaultImports)) ∨
        (spellName (Injector.make settings owner fields).simpleNames name = name ∧
          ∃ other ∈ (Injector.make settings owner fields).simpleNames,
            other ∈ (Injector.mentions settings.symbols owner fields).types ∧
            other ≠ name ∧ simpleName other = simpleName name)) := by
  refine ⟨fun short => code_eq_spelled_lines settings
    { Injector.make settings owner fields with simpleNames := short }, ?_⟩
  intro name hname hdotted
  have hrecorded := mem_types_of_mem_mentionedNames hname hdotted
  refine ⟨hrecorded, ?_⟩
  rcases spelled_short_or_full owner.package hrecorded with
    ⟨hshort, hspelled⟩ | hfull
  · exact .inl ⟨hshort, hspelled, Mentions.mem_imports_or_isImplicit hshort⟩
  · exact .inr hfull

/-- A plan that builds a list of users from a text, three statements deep. -/
def usersPlan : FieldPlan :=
  { field := "users"
    category := .object
    strategy := .object
    statements := [.ifThen .deserializerAvailable
      [.ifThen (.notNullOrEmpty "raw")
        [.whenPresent (.deserialize "raw" ⟨"x.List", false, [.ofName "y.User"], []⟩)
          [.assign "users" .bound]] none]
      (some [.log "no service"])]
    check := none }

/-- The type argument inside a nested statement is recorded too. -/
theorem recorded_type_argument :
    "y.User" ∈ mentionedNames {} (.make {} ⟨"x.Main", none, .screen, none⟩ [usersPlan]) ∧
    isDotted "y.User" = true ∧
    "y.User" ∈ (Injector.mentions {} ⟨"x.Main", none, .screen, none⟩ [usersPlan]).types := by
  have hname : "y.User" ∈
      mentionedNames {} (.make {} ⟨"x.Main", none, .screen, none⟩ [usersPlan]) := by
    rw [mentionedNames_eq]
    decide +kernel
  have hdotted : isDotted "y.User" = true := by decide
  have hrecorded := (recorded_and_visible {} ⟨"x.Main", none, .screen, none⟩ [usersPlan]).2
    "y.User" hname hdotted
  exact ⟨hname, hdotted, hrecorded.1⟩

/-! ### Telling names apart -/

theorem isDotted_simpleName (name : String) : isDotted (simpleName name) = false := by
  rw [← Bool.not_eq_true, isDotted_iff]
  unfold simpleName
  cases hsplit : Text.splitLast? '.' name.toList with
  | none => exact Text.splitLast?_eq_none_iff.mp hsplit
  | some parts =>
    obtain ⟨before, after⟩ := parts
    rw [String.toList_ofList]
    exact (Text.eq_of_splitLast? hsplit).2

/-- What a spelled name stands for in a file that writes the names in `short` short. -/
def denoted (short : NameSet) (spelled : String) : String :=
  (short.toList.find? fun name => simpleName name = spelled).getD spelled

/-- Names written short have a dot, and each of them has its simple name for itself. -/
structure Distinct (short : NameSet) : Prop where
  /-- A name without a dot has no shorter form. -/
  dotted : ∀ name ∈ short, isDotted name = true
  /-- A simple name stands for one name. -/
  unique : ∀ first ∈ short, ∀ second ∈ short, simpleName first = simpleName second →
    first = second

theorem distinct_make (settings : Settings) (owner : Owner) (fields : List FieldPlan) :
    Distinct (Injector.make settings owner fields).simpleNames where
  dotted _ hname := (mem_types_mentions.mp (Mentions.mem_types_of_mem_simpleNames hname)).1
  unique _ hfirst _ hsecond hsame := Mentions.eq_of_simpleName_eq hfirst hsecond hsame

section

variable {short : NameSet} {name : String}

/-- A simple name stands for the name that is written that way. -/
theorem denoted_simpleName (hshort : Distinct short) (h : name ∈ short) :
    denoted short (simpleName name) = name := by
  unfold denoted
  cases hfind : short.toList.find? fun other => simpleName other = simpleName name with
  | none =>
    have hnone := List.find?_eq_none.mp hfind name h
    exact absurd rfl (of_decide_eq_false (Bool.eq_false_iff.mpr hnone))
  | some other =>
    have hsame : simpleName other = simpleName name := by
      simpa using List.find?_some hfind
    exact hshort.unique other (List.mem_of_find?_eq_some hfind) name h hsame

/-- A text that is no simple name of a short name stands for itself. -/
theorem denoted_of_ne {spelled : String} (h : ∀ other ∈ short, simpleName other ≠ spelled) :
    denoted short spelled = spelled := by
  have hnone : (short.toList.find? fun name => simpleName name = spelled) = none := by
    refine List.find?_eq_none.mpr fun other hother => ?_
    rw [decide_eq_true_eq]
    exact h other hother
  rw [denoted, hnone]
  rfl

/-- The spelling of a name stands for it, unless the name has no dot and a short name is
written the same way. -/
theorem denoted_spellName_iff (hshort : Distinct short) :
    denoted short (spellName short name) = name ↔
      (isDotted name = false → ∀ other ∈ short, simpleName other ≠ name) := by
  by_cases hmem : name ∈ short
  · have hdotted := hshort.dotted name hmem
    rw [spellName_of_mem hmem]
    refine ⟨fun _ hplain => ?_, fun _ => denoted_simpleName hshort hmem⟩
    rw [hdotted] at hplain
    cases hplain
  · rw [spellName_of_not_mem hmem]
    constructor
    · rintro hdenoted - other hother rfl
      -- the text would stand for the short name, not for itself
      rw [denoted_simpleName hshort hother] at hdenoted
      rw [hdenoted] at hother
      exact hmem hother
    · intro hplain
      refine denoted_of_ne fun other hother hsame => ?_
      have hundotted : isDotted name = false := hsame ▸ isDotted_simpleName other
      exact hplain hundotted other hother hsame

end

/-- If each of some names is what its spelling stands for, no two of them are spelled the
same way. -/
theorem spelled_apart_of_denoted {short : NameSet} {names : List String}
    (h : ∀ name ∈ names, denoted short (spellName short name) = name) :
    ∀ first ∈ names, ∀ second ∈ names, first ≠ second →
      spellName short first ≠ spellName short second := by
  intro first hfirst second hsecond hne hsame
  refine hne ?_
  rw [← h first hfirst, ← h second hsecond, hsame]

/-- **When names are told apart.**  The names that an injector mentions are spelled in different
ways, and each spelling stands for its name, exactly if no name without a dot among them is the
simple name of a recorded name. -/
theorem spelled_apart_iff {settings : Settings} {properties : List Property}
    {injectors : List Injector} {injector : Injector}
    (h : injectorsOf settings properties = .ok injectors) (hmem : injector ∈ injectors) :
    ((∀ first ∈ mentionedNames settings injector, ∀ second ∈ mentionedNames settings injector,
        first ≠ second →
        spellName injector.simpleNames first ≠ spellName injector.simpleNames second) ∧
      ∀ name ∈ mentionedNames settings injector,
        denoted injector.simpleNames (spellName injector.simpleNames name) = name) ↔
    ∀ plain ∈ mentionedNames settings injector, isDotted plain = false →
      ∀ other ∈ (Injector.mentions settings.symbols injector.owner injector.fields).types,
        simpleName other ≠ plain := by
  have hmake := eq_make_of_mem h hmem
  generalize injector.owner = owner, injector.fields = fields at hmake
  subst hmake
  have hdistinct := distinct_make settings owner fields
  constructor
  · rintro ⟨-, hdenoted⟩ plain hplain hundotted other hother hsame
    -- some recorded name is written short in the way of `plain`
    obtain ⟨holder, hholder, hholds⟩ := Mentions.exists_holder owner.package hother
    exact (denoted_spellName_iff hdistinct).mp (hdenoted plain hplain) hundotted holder hholder
      (hholds.trans hsame)
  · intro hplain
    have hdenoted : ∀ name ∈ mentionedNames settings (.make settings owner fields),
        denoted (Injector.make settings owner fields).simpleNames
          (spellName (Injector.make settings owner fields).simpleNames name) = name := by
      intro name hname
      refine (denoted_spellName_iff hdistinct).mpr fun hundotted other hother => ?_
      exact hplain name hname hundotted other (Mentions.mem_types_of_mem_simpleNames hother)
    exact ⟨spelled_apart_of_denoted hdenoted, hdenoted⟩

/-- A property of a screen whose type has a type argument or supertypes. -/
def screenModel (owner : String) (type : DeclaredType) : Property :=
  ⟨"model", type, .visible, some ⟨owner, none, .screen, none⟩, .plain⟩

/-- Settings with short names for the runtime symbols. -/
def terseSettings : Settings where
  symbols :=
    { registry := "r.Registry", injectorInterface := "r.Injector", providerCapability := "r.Service"
      serializationService := "r.Builder", typeWrapper := "r.Token", logFacility := "r.Log"
      logTag := "log", marker := "r.Inject" }

/-- A type parameter that is no simple name of a recorded name is told apart from all names. -/
theorem spelled_apart_type_parameter :
    ∃ injector,
      injectorsOf terseSettings [screenModel "x.Main" ⟨"y.Box", false, [.ofName "T"], []⟩] =
        .ok [injector] ∧
      injector ∈ [injector] ∧ "T" ∈ mentionedNames terseSettings injector ∧
      ∀ first ∈ mentionedNames terseSettings injector,
        ∀ second ∈ mentionedNames terseSettings injector, first ≠ second →
          spellName injector.simpleNames first ≠ spellName injector.simpleNames second := by
  have hmade : ∃ injector,
      injectorsOf terseSettings [screenModel "x.Main" ⟨"y.Box", false, [.ofName "T"], []⟩] =
        .ok [injector] ∧ "T" ∈ mentionedNames terseSettings injector ∧
      ∀ other ∈
          (Injector.mentions terseSettings.symbols injector.owner injector.fields).types.toList,
        ∀ plain ∈ mentionedNames terseSettings injector, isDotted plain = false →
          simpleName other ≠ plain := by
    refine ⟨_, rfl, ?_, ?_⟩ <;> rw [mentionedNames_eq] <;> decide +kernel
  obtain ⟨injector, hmade, hparameter, hplain⟩ := hmade
  refine ⟨injector, hmade, List.mem_cons_self, hparameter, ?_⟩
  have hapart := (spelled_apart_iff hmade List.mem_cons_self).mpr
    fun plain hmem hundotted other hother => hplain other hother plain hmem hundotted
  exact hapart.1

/-- A screen of the default package and an imported type of the same simple name are spelled
the same way: the cast of the target names the imported type. -/
theorem not_spelled_apart :
    ¬ ∀ settings properties injectors injector,
      injectorsOf settings properties = .ok injectors → injector ∈ injectors →
      ∀ first ∈ mentionedNames settings injector, ∀ second ∈ mentionedNames settings injector,
        first ≠ second →
        spellName injector.simpleNames first ≠ spellName injector.simpleNames second := by
  intro hall
  have hmade : ∃ injector, injectorsOf {}
      [screenModel "Main" ⟨"com.model.Main", true, [], ["java.io.Serializable"]⟩] =
        .ok [injector] ∧ "Main" ∈ mentionedNames {} injector ∧
      "com.model.Main" ∈ mentionedNames {} injector ∧
      spellName injector.simpleNames "Main" = spellName injector.simpleNames "com.model.Main" :=
    ⟨_, rfl, by rw [mentionedNames_eq]; decide +kernel,
      by rw [mentionedNames_eq]; decide +kernel, by decide +kernel⟩
  obtain ⟨injector, hmade, howner, htype, hsame⟩ := hmade
  exact hall {} _ _ injector hmade List.mem_cons_self "Main" howner "com.model.Main" htype
    (by decide) hsame

end Wiring.Kotlin
