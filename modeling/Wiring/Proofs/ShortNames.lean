import Mathlib.Data.List.Nodup
import Wiring.Mentions

/-!
# Names that are written short

The recorded names of a unit claim their simple names one after the other, and a name whose
simple name is taken gets nothing.  So of all recorded names with the same simple name exactly
one is written short.

## Main definitions

* `Mentions.Claimed` — the invariant of the claims: one holder for each simple name.

## Main results

* `Mentions.exists_holder` — every recorded name shares its simple name with a short one.
* `Mentions.eq_of_simpleName_eq` — two short names with the same simple name are the same.
* `Mentions.mem_imports_or_isImplicit` — what is written short can be seen by the file.
* `Mentions.exists_foreign_iff` — when a name that not every file sees holds a simple name.
-/

namespace Wiring

theorem isImplicit_iff {name package : String} :
    isImplicit name package = true ↔
      packageOf name = package ∨ packageOf name ∈ defaultImports := by
  simp [isImplicit]

namespace Mentions

/-! ### The claims -/

/-- Each simple name among the names has one holder, and the holders are among the names. -/
structure Claimed (names claimed : List String) : Prop where
  /-- Only the names themselves can hold a simple name. -/
  subset : ∀ name ∈ claimed, name ∈ names
  /-- No simple name has two holders. -/
  nodup : (claimed.map simpleName).Nodup
  /-- No simple name is left without a holder. -/
  covers : ∀ name ∈ names, ∃ holder ∈ claimed, simpleName holder = simpleName name

/-- A claim is turned down if its simple name has a holder, and granted otherwise. -/
theorem claim_cases (claimed : List String) (name : String) :
    (claim claimed name = claimed ∧ ∃ holder ∈ claimed, simpleName holder = simpleName name) ∨
      (claim claimed name = claimed ++ [name] ∧
        simpleName name ∉ claimed.map simpleName) := by
  unfold claim
  by_cases h : claimed.any fun other => simpleName other = simpleName name
  · obtain ⟨holder, hholder, hsame⟩ := List.any_eq_true.mp h
    rw [if_pos h]
    exact .inl ⟨rfl, holder, hholder, of_decide_eq_true hsame⟩
  · rw [if_neg h]
    refine .inr ⟨rfl, fun hmem => h ?_⟩
    obtain ⟨other, hother, hsame⟩ := List.mem_map.mp hmem
    exact List.any_eq_true.mpr ⟨other, hother, decide_eq_true hsame⟩

namespace Claimed

variable {names claimed : List String}

theorem nil : Claimed [] [] := ⟨fun _ h => h, List.nodup_nil, by simp⟩

/-- One more claim keeps the invariant. -/
theorem step (h : Claimed names claimed) (name : String) :
    Claimed (names ++ [name]) (claim claimed name) := by
  rcases claim_cases claimed name with ⟨hclaim, hholder⟩ | ⟨hclaim, hfree⟩
  · rw [hclaim]
    refine ⟨fun other hother => List.mem_append_left _ (h.subset other hother), h.nodup, ?_⟩
    intro other hother
    rcases List.mem_append.mp hother with hother | hother
    · exact h.covers other hother
    · rw [List.mem_singleton.mp hother]
      exact hholder
  · rw [hclaim]
    refine ⟨?_, ?_, ?_⟩
    · intro other hother
      rcases List.mem_append.mp hother with hother | hother
      · exact List.mem_append_left _ (h.subset other hother)
      · exact List.mem_append_right _ hother
    · rw [List.map_append, List.map_singleton, ← List.concat_eq_append]
      exact List.Nodup.concat hfree h.nodup
    · intro other hother
      rcases List.mem_append.mp hother with hother | hother
      · obtain ⟨holder, hholder, hsame⟩ := h.covers other hother
        exact ⟨holder, List.mem_append_left _ hholder, hsame⟩
      · exact ⟨other, List.mem_append_right _ hother, rfl⟩

/-- The claims of a list keep the invariant. -/
theorem run (h : Claimed names claimed) (more : List String) :
    Claimed (names ++ more) (more.foldl claim claimed) := by
  induction more generalizing names claimed with
  | nil => rwa [List.append_nil]
  | cons name rest ih =>
    have hrest := ih (h.step name)
    rwa [List.append_assoc] at hrest

/-- The holder of a simple name is unique. -/
theorem eq_of_simpleName_eq (h : Claimed names claimed) {first second : String}
    (hfirst : first ∈ claimed) (hsecond : second ∈ claimed)
    (hsame : simpleName first = simpleName second) : first = second :=
  List.inj_on_of_nodup_map h.nodup hfirst hsecond hsame

end Claimed

/-- A name that holds its simple name keeps it. -/
theorem mem_claims_of_mem {claimed : List String} {name : String} (h : name ∈ claimed)
    (more : List String) : name ∈ more.foldl claim claimed := by
  induction more generalizing claimed with
  | nil => exact h
  | cons next rest ih =>
    rw [List.foldl_cons]
    refine ih ?_
    rcases claim_cases claimed next with ⟨hclaim, -⟩ | ⟨hclaim, -⟩
    · rwa [hclaim]
    · rw [hclaim]
      exact List.mem_append_left _ h

/-- Names that come first take their simple names away from those that come after them. -/
theorem mem_of_mem_claims_append {first second : List String} {name other : String}
    (h : name ∈ (first ++ second).foldl claim []) (hother : other ∈ first)
    (hsame : simpleName other = simpleName name) : name ∈ first := by
  have hfirst := Claimed.nil.run first
  rw [List.nil_append] at hfirst
  obtain ⟨holder, hholder, hholds⟩ := hfirst.covers other hother
  rw [List.foldl_append] at h
  have hstays := mem_claims_of_mem hholder second
  obtain rfl := (hfirst.run second).eq_of_simpleName_eq h hstays (hholds.trans hsame).symm
  exact hfirst.subset name hholder

/-! ### Short names and imports -/

variable {mentions : Mentions} {package name : String}

/-- All recorded names make a claim, and no others. -/
theorem mem_claimants : name ∈ mentions.claimants package ↔ name ∈ mentions.types := by
  unfold claimants
  simp only [List.mem_append, List.mem_filter, NameSet.mem_def]
  constructor
  · rintro ((⟨hmem, -⟩ | ⟨hmem, -⟩) | ⟨hmem, -⟩) <;> exact hmem
  · intro hmem
    by_cases hpackage : packageOf name = package
    · exact .inl (.inl ⟨hmem, decide_eq_true hpackage⟩)
    · by_cases himplicit : isImplicit name package = true
      · exact .inl (.inr ⟨hmem, by simp [hpackage, himplicit]⟩)
      · exact .inr ⟨hmem, by simp [himplicit]⟩

/-- What is written short depends on the recorded names, and on nothing else. -/
theorem simpleNames_congr {first second : Mentions} (h : first.types = second.types)
    (package : String) : first.simpleNames package = second.simpleNames package := by
  unfold simpleNames claimants
  rw [h]

theorem claimed_simpleNames (mentions : Mentions) (package : String) :
    Claimed (mentions.claimants package) ((mentions.claimants package).foldl claim []) := by
  have hrun := Claimed.nil.run (mentions.claimants package)
  rwa [List.nil_append] at hrun

theorem mem_simpleNames :
    name ∈ mentions.simpleNames package ↔
      name ∈ (mentions.claimants package).foldl claim [] :=
  NameSet.mem_ofList

/-- Only recorded names are written short. -/
theorem mem_types_of_mem_simpleNames (h : name ∈ mentions.simpleNames package) :
    name ∈ mentions.types :=
  mem_claimants.mp ((claimed_simpleNames mentions package).subset name (mem_simpleNames.mp h))

/-- Every recorded name shares its simple name with one that is written short. -/
theorem exists_holder (package : String) (h : name ∈ mentions.types) :
    ∃ holder ∈ mentions.simpleNames package, simpleName holder = simpleName name := by
  obtain ⟨holder, hholder, hsame⟩ :=
    (claimed_simpleNames mentions package).covers name (mem_claimants.mpr h)
  exact ⟨holder, mem_simpleNames.mpr hholder, hsame⟩

/-- Two names that are written short in the same way are the same name. -/
theorem eq_of_simpleName_eq {first second : String}
    (hfirst : first ∈ mentions.simpleNames package)
    (hsecond : second ∈ mentions.simpleNames package)
    (hsame : simpleName first = simpleName second) : first = second :=
  (claimed_simpleNames mentions package).eq_of_simpleName_eq (mem_simpleNames.mp hfirst)
    (mem_simpleNames.mp hsecond) hsame

/-- Names of the package come before all others. -/
theorem packageOf_eq_of_mem_simpleNames {other : String} (h : name ∈ mentions.simpleNames package)
    (hother : other ∈ mentions.types) (hpackage : packageOf other = package)
    (hsame : simpleName other = simpleName name) : packageOf name = package := by
  rw [mem_simpleNames, claimants, List.append_assoc] at h
  have hfirst := mem_of_mem_claims_append h
    (List.mem_filter.mpr ⟨hother, decide_eq_true hpackage⟩) hsame
  exact of_decide_eq_true (List.mem_filter.mp hfirst).2

/-- Names that the file sees without an import come before those it has to import. -/
theorem isImplicit_of_mem_simpleNames {other : String} (h : name ∈ mentions.simpleNames package)
    (hother : other ∈ mentions.types) (himplicit : isImplicit other package = true)
    (hsame : simpleName other = simpleName name) : isImplicit name package = true := by
  rw [mem_simpleNames, claimants] at h
  have hfirst : name ∈ (mentions.types.toList.filter fun name => packageOf name = package) ++
      mentions.types.toList.filter
        fun name => packageOf name ≠ package && isImplicit name package := by
    refine mem_of_mem_claims_append h ?_ hsame
    rw [List.mem_append, List.mem_filter, List.mem_filter]
    by_cases hpackage : packageOf other = package
    · exact .inl ⟨hother, decide_eq_true hpackage⟩
    · exact .inr ⟨hother, by simp [hpackage, himplicit]⟩
  rw [List.mem_append, List.mem_filter, List.mem_filter] at hfirst
  rcases hfirst with ⟨-, hpackage⟩ | ⟨-, hboth⟩
  · exact isImplicit_iff.mpr (.inl (of_decide_eq_true hpackage))
  · exact (Bool.and_eq_true_iff.mp hboth).2

/-- A simple name is held by a name that not every file sees exactly if such a name is recorded, and
it is of the package or no recorded name that every file sees has the same simple name. -/
theorem exists_foreign_iff {simple : String} :
    (∃ name ∈ mentions.simpleNames package,
        simpleName name = simple ∧ packageOf name ∉ defaultImports) ↔
      ∃ name ∈ mentions.types, simpleName name = simple ∧ packageOf name ∉ defaultImports ∧
        (packageOf name = package ∨
          ∀ other ∈ mentions.types, simpleName other = simple →
            packageOf other ∉ defaultImports) := by
  constructor
  · rintro ⟨name, hname, rfl, hforeign⟩
    refine ⟨name, mem_types_of_mem_simpleNames hname, rfl, hforeign, ?_⟩
    by_cases hpackage : packageOf name = package
    · exact .inl hpackage
    · refine .inr fun other hother hsame hdefault => ?_
      have himplicit := isImplicit_of_mem_simpleNames hname hother
        (isImplicit_iff.mpr (.inr hdefault)) hsame
      rcases isImplicit_iff.mp himplicit with hown | hseen
      · exact hpackage hown
      · exact hforeign hseen
  · rintro ⟨name, hname, rfl, hforeign, hown⟩
    obtain ⟨holder, hholder, hsame⟩ := exists_holder package hname
    refine ⟨holder, hholder, hsame, ?_⟩
    rcases hown with hpackage | hnone
    · -- the holder is of the package, too
      rwa [packageOf_eq_of_mem_simpleNames hholder hname hpackage hsame.symm, ← hpackage]
    · exact hnone holder (mem_types_of_mem_simpleNames hholder) hsame

theorem mem_imports :
    name ∈ mentions.imports package ↔
      name ∈ mentions.simpleNames package ∧ isImplicit name package = false := by
  unfold imports
  rw [NameSet.mem_filter, Bool.not_eq_true']

/-- A name that is written short is imported, or the file sees it without an import. -/
theorem mem_imports_or_isImplicit (h : name ∈ mentions.simpleNames package) :
    name ∈ mentions.imports package ∨
      packageOf name = package ∨ packageOf name ∈ defaultImports := by
  cases himplicit : isImplicit name package with
  | true => exact .inr (isImplicit_iff.mp himplicit)
  | false => exact .inl (mem_imports.mpr ⟨h, himplicit⟩)

end Mentions

end Wiring
