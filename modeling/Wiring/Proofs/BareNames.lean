import Wiring.Proofs.Spelling
import Wiring.Proofs.UnitNames

/-!
# Built-in types that are written bare

The frame of a generated class names three built-in types: the type of the target, the exception for
a target of another type and the exception for a missing service.  They are plain text to the
writer, and the analysis never hears of them, so a type of the unit may be written short in the same
way.  Then the bare name stands for that type.  It happens to types that lie in no package which
every file sees: to one of the unit's own package always, and to one of another package unless the
unit also has such a type of a package that every file sees, which then holds the simple name.

## Main definitions

* `bareNames` — the bare names.
* `Unshadowed` — no type of the unit takes a bare name away.

## Main results

* `unshadowed_iff_denoted` — what that says about the meaning of bare names.
* `exists_foreign_short_iff` — when a simple name is taken away, by the names of the unit.
* `unshadowed_iff` — **when the bare names of a unit keep their meaning.**
-/

namespace Wiring.Kotlin

/-- The built-in types that are written bare: that of the target, that of the failure for a target
of another type, and that of the failure for a missing service. -/
def bareNames : List String := ["Any", "IllegalStateException", "RuntimeException"]

/-- No name that is written short takes a bare name away, unless every file sees it. -/
def Unshadowed (short : NameSet) : Prop :=
  ∀ name ∈ short, packageOf name ∉ defaultImports → simpleName name ∉ bareNames

/-- A bare name stands for itself then, or for a type that every file sees. -/
theorem unshadowed_iff_denoted {short : NameSet} (hshort : Distinct short) :
    Unshadowed short ↔
      ∀ bare ∈ bareNames, denoted short bare = bare ∨
        packageOf (denoted short bare) ∈ defaultImports := by
  constructor
  · intro h bare hbare
    by_cases hholder : ∃ name ∈ short, simpleName name = bare
    · obtain ⟨name, hname, rfl⟩ := hholder
      rw [denoted_simpleName hshort hname]
      exact .inr (by_contra fun hforeign => h name hname hforeign hbare)
    · push Not at hholder
      exact .inl (denoted_of_ne hholder)
  · intro h name hname hforeign hbare
    have hdenoted := h (simpleName name) hbare
    rw [denoted_simpleName hshort hname] at hdenoted
    rcases hdenoted with hself | hseen
    · -- a name that is written short has a dot, its simple name has none
      have hdotted := hshort.dotted name hname
      rw [hself, isDotted_simpleName] at hdotted
      cases hdotted
    · exact hforeign hseen

section

variable {settings : Settings} {properties : List Property} {injectors : List Injector}
  {injector : Injector}

/-- When a simple name is held by a name that not every file sees, by the names of the unit. -/
theorem exists_foreign_short_iff (h : injectorsOf settings properties = .ok injectors)
    (hmem : injector ∈ injectors) (simple : String) :
    (∃ name ∈ injector.simpleNames, simpleName name = simple ∧ packageOf name ∉ defaultImports) ↔
      ∃ name ∈ unitNames settings.symbols injector.owner.name
          (propertiesOf injector.owner.name properties),
        isDotted name = true ∧ simpleName name = simple ∧ packageOf name ∉ defaultImports ∧
          (packageOf name = injector.owner.package ∨
            ∀ other ∈ unitNames settings.symbols injector.owner.name
                (propertiesOf injector.owner.name properties),
              isDotted other = true → simpleName other = simple →
                packageOf other ∉ defaultImports) := by
  have hshort : injector.simpleNames =
      (Injector.mentions settings.symbols injector.owner injector.fields).simpleNames
        injector.owner.package :=
    congrArg Injector.simpleNames (eq_make_of_mem h hmem)
  rw [hshort, Mentions.exists_foreign_iff]
  constructor
  · rintro ⟨name, htypes, hsame, hforeign, hown⟩
    obtain ⟨hdotted, hname⟩ := (mem_types_iff h hmem).mp htypes
    refine ⟨name, hname, hdotted, hsame, hforeign, hown.imp_right fun hnone other hother => ?_⟩
    exact fun hotherDotted => hnone other ((mem_types_iff h hmem).mpr ⟨hotherDotted, hother⟩)
  · rintro ⟨name, hname, hdotted, hsame, hforeign, hown⟩
    refine ⟨name, (mem_types_iff h hmem).mpr ⟨hdotted, hname⟩, hsame, hforeign,
      hown.imp_right fun hnone other hother => ?_⟩
    obtain ⟨hotherDotted, hotherName⟩ := (mem_types_iff h hmem).mp hother
    exact hnone other hotherName hotherDotted

/-- **When the bare names of a unit keep their meaning.**  No type takes a bare name away exactly if
every type of the unit that has a bare name for its simple name lies in a package that every file
sees, or else lies outside the package of the unit and shares its simple name with a type of the
unit that every file sees. -/
theorem unshadowed_iff (h : injectorsOf settings properties = .ok injectors)
    (hmem : injector ∈ injectors) :
    (Unshadowed injector.simpleNames ↔
      ∀ bare ∈ bareNames, denoted injector.simpleNames bare = bare ∨
        packageOf (denoted injector.simpleNames bare) ∈ defaultImports) ∧
    (Unshadowed injector.simpleNames ↔
      ∀ name ∈ unitNames settings.symbols injector.owner.name
          (propertiesOf injector.owner.name properties),
        isDotted name = true → simpleName name ∈ bareNames → packageOf name ∉ defaultImports →
          packageOf name ≠ injector.owner.package ∧
          ∃ other ∈ unitNames settings.symbols injector.owner.name
              (propertiesOf injector.owner.name properties),
            isDotted other = true ∧ simpleName other = simpleName name ∧
              packageOf other ∈ defaultImports) := by
  have hdistinct : Distinct injector.simpleNames := by
    rw [eq_make_of_mem h hmem]
    exact distinct_make settings injector.owner injector.fields
  refine ⟨unshadowed_iff_denoted hdistinct, ?_⟩
  constructor
  · intro hunshadowed name hname hdotted hbare hforeign
    -- otherwise some name that not every file sees would hold the simple name
    have hnone : ¬ ∃ holder ∈ injector.simpleNames,
        simpleName holder = simpleName name ∧ packageOf holder ∉ defaultImports := by
      rintro ⟨holder, hholder, hsame, hholderForeign⟩
      exact hunshadowed holder hholder hholderForeign (hsame ▸ hbare)
    rw [exists_foreign_short_iff h hmem] at hnone
    refine ⟨fun hpackage => hnone ⟨name, hname, hdotted, rfl, hforeign, .inl hpackage⟩, ?_⟩
    by_contra hother
    refine hnone ⟨name, hname, hdotted, rfl, hforeign, .inr ?_⟩
    exact fun other hotherName hotherDotted hsame hseen =>
      hother ⟨other, hotherName, hotherDotted, hsame, hseen⟩
  · intro hnames holder hholder hholderForeign hbare
    obtain ⟨name, hname, hdotted, hsame, hforeign, hown⟩ :=
      (exists_foreign_short_iff h hmem _).mp ⟨holder, hholder, rfl, hholderForeign⟩
    obtain ⟨hpackage, other, hotherName, hotherDotted, hotherSame, hseen⟩ :=
      hnames name hname hdotted (hsame ▸ hbare) hforeign
    -- the type of the same simple name that every file sees would have come first
    rcases hown with hown | hnone
    · exact hpackage hown
    · exact hnone other hotherName hotherDotted (hotherSame.trans hsame) hseen

end

/-- A type of another package may have a bare name for its simple name if the built-in type is
there as well. -/
theorem unshadowed_any_twice :
    ∃ injector,
      injectorsOf terseSettings
        [screenModel "x.Main" ⟨"y.Pair", false, [.ofName "kotlin.Any", .ofName "y.Any"], []⟩] =
        .ok [injector] ∧
      injector ∈ [injector] ∧ Unshadowed injector.simpleNames := by
  have hmade : ∃ injector,
      injectorsOf terseSettings
        [screenModel "x.Main" ⟨"y.Pair", false, [.ofName "kotlin.Any", .ofName "y.Any"], []⟩] =
        .ok [injector] ∧ injector.owner = ⟨"x.Main", none, .screen, none⟩ := ⟨_, rfl, rfl⟩
  obtain ⟨injector, hmade, howner⟩ := hmade
  refine ⟨injector, hmade, List.mem_cons_self, ?_⟩
  refine (unshadowed_iff hmade List.mem_cons_self).2.mpr ?_
  rw [howner]
  decide +kernel

/-- The type of a property takes the name of the target's type away. -/
theorem not_unshadowed :
    ¬ ∀ settings properties injectors injector,
      injectorsOf settings properties = .ok injectors → injector ∈ injectors →
      ∀ name ∈ injector.simpleNames, packageOf name ∉ defaultImports →
        simpleName name ∉ bareNames := by
  intro hall
  have hmade : ∃ injector, injectorsOf {}
      [screenModel "com.example.Main" ⟨"com.model.Any", true, [], ["java.io.Serializable"]⟩] =
        .ok [injector] ∧ "com.model.Any" ∈ injector.simpleNames :=
    ⟨_, rfl, by decide +kernel⟩
  obtain ⟨injector, hmade, hshort⟩ := hmade
  exact hall {} _ _ injector hmade List.mem_cons_self "com.model.Any" hshort (by decide)
    (by decide)

end Wiring.Kotlin
