import Wiring.Proofs.Recording
import Wiring.Proofs.ShortNames

/-!
# Which name holds a simple name

The recorded names of a unit claim their simple names in an order that can be read off the names
themselves: those of the unit's package first, then those of the packages that every file sees,
then all others, and names of the same kind by their characters.  A claim is only turned down for
an earlier one.  So a simple name is held by the least of the recorded names that have it, whatever
order they were recorded in and in whatever order the holders are listed afterwards.

Names are compared character by character, by the numbers of the characters; that is also the order
of their UTF-8 bytes.

## Main definitions

* `claimRank`, `ClaimsBefore` — the order of the claims.
* `LeastClaims` — the least names hold the simple names, and those of them that the file does not
  see are imported.

## Main results

* `Mentions.pairwise_claimants` — the recorded names make their claims in that order.
* `Mentions.mem_simpleNames_iff` — which names are written short.
* `Mentions.leastClaims_of_table` — **the least names hold the simple names**, whatever the orders.
-/

namespace Wiring

/-! ### The order of the claims -/

/-- How early a name makes its claim: a name of the package comes first, then a name that every file
sees, then all others. -/
def claimRank (package name : String) : Nat :=
  if packageOf name = package then 0
  else if packageOf name ∈ defaultImports then 1
  else 2

/-- The first name makes its claim before the second one. -/
def ClaimsBefore (package first second : String) : Prop :=
  claimRank package first < claimRank package second ∨
    (claimRank package first = claimRank package second ∧ first < second)

instance (package first second : String) : Decidable (ClaimsBefore package first second) :=
  inferInstanceAs (Decidable (_ ∨ _))

section

variable {package first second : String}

theorem claimRank_own (h : packageOf first = package) : claimRank package first = 0 := if_pos h

theorem claimRank_seen (h : packageOf first ≠ package) (hseen : packageOf first ∈ defaultImports) :
    claimRank package first = 1 := by
  rw [claimRank, if_neg h, if_pos hseen]

theorem claimRank_unseen (h : isImplicit first package = false) : claimRank package first = 2 := by
  have hneither : ¬ (packageOf first = package ∨ packageOf first ∈ defaultImports) := by
    rw [← isImplicit_iff, h]
    simp
  rw [not_or] at hneither
  rw [claimRank, if_neg hneither.1, if_neg hneither.2]

/-- Of two names at most one comes before the other. -/
theorem ClaimsBefore.asymm (h : ClaimsBefore package first second) :
    ¬ ClaimsBefore package second first := by
  rintro (hless | ⟨hsame, hlt⟩)
  · rcases h with h | ⟨h, -⟩ <;> omega
  · rcases h with h | ⟨-, h⟩
    · omega
    · exact String.lt_irrefl first (String.lt_trans h hlt)

end

/-- Names of one rank that come in order make their claims in order. -/
theorem pairwise_claimsBefore_of_rank {package : String} {names : List String} {rank : Nat}
    (hrank : ∀ name ∈ names, claimRank package name = rank) (h : names.Pairwise (· < ·)) :
    names.Pairwise (ClaimsBefore package) := by
  refine h.imp_of_mem ?_
  intro first second hfirst hsecond hlt
  exact .inr ⟨(hrank first hfirst).trans (hrank second hsecond).symm, hlt⟩

/-- Names of a lower rank make their claims before names of a higher one. -/
theorem pairwise_claimsBefore_append {package : String} {front back : List String} (rank : Nat)
    (hfront : ∀ name ∈ front, claimRank package name ≤ rank)
    (hback : ∀ name ∈ back, rank < claimRank package name)
    (h : front.Pairwise (ClaimsBefore package)) (h' : back.Pairwise (ClaimsBefore package)) :
    (front ++ back).Pairwise (ClaimsBefore package) := by
  refine List.pairwise_append.mpr ⟨h, h', ?_⟩
  intro first hfirst second hsecond
  have hle := hfront first hfirst
  have hlt := hback second hsecond
  exact .inl (by omega)

namespace Mentions

variable {mentions : Mentions} {package name : String}

/-- **The recorded names make their claims in order.** -/
theorem pairwise_claimants (mentions : Mentions) (package : String) :
    (mentions.claimants package).Pairwise (ClaimsBefore package) := by
  have hown : ∀ name ∈ mentions.types.toList.filter (fun name => packageOf name = package),
      claimRank package name = 0 := by
    intro name hname
    exact claimRank_own (of_decide_eq_true (List.mem_filter.mp hname).2)
  have hseen : ∀ name ∈ mentions.types.toList.filter
      (fun name => packageOf name ≠ package && isImplicit name package),
      claimRank package name = 1 := by
    intro name hname
    have hboth := (List.mem_filter.mp hname).2
    rw [Bool.and_eq_true, decide_eq_true_eq] at hboth
    obtain ⟨hpackage, himplicit⟩ := hboth
    exact claimRank_seen hpackage ((isImplicit_iff.mp himplicit).resolve_left hpackage)
  have hother : ∀ name ∈ mentions.types.toList.filter (fun name => !isImplicit name package),
      claimRank package name = 2 := by
    intro name hname
    have hunseen : isImplicit name package = false := by
      simpa using (List.mem_filter.mp hname).2
    exact claimRank_unseen hunseen
  have hsorted := mentions.types.sorted
  unfold claimants
  refine pairwise_claimsBefore_append 1 ?_ ?_ ?_ ?_
  · intro name hname
    rcases List.mem_append.mp hname with hname | hname
    · simp [hown name hname]
    · simp [hseen name hname]
  · intro name hname
    simp [hother name hname]
  · refine pairwise_claimsBefore_append 0 ?_ ?_ ?_ ?_
    · intro name hname
      simp [hown name hname]
    · intro name hname
      simp [hseen name hname]
    · exact pairwise_claimsBefore_of_rank hown (hsorted.filter _)
    · exact pairwise_claimsBefore_of_rank hseen (hsorted.filter _)
  · exact pairwise_claimsBefore_of_rank hother (hsorted.filter _)

/-! ### The holders -/

/-- A holder makes its claim before all others with the same simple name. -/
theorem claimsBefore_of_mem_simpleNames {other : String} (h : name ∈ mentions.simpleNames package)
    (hother : other ∈ mentions.types) (hsame : simpleName other = simpleName name)
    (hne : other ≠ name) : ClaimsBefore package name other := by
  have hclaim : other ∈ mentions.claimants package := mem_claimants.mpr hother
  obtain ⟨before, after, hcut⟩ := List.append_of_mem hclaim
  have hordered := pairwise_claimants mentions package
  rw [mem_simpleNames, hcut, List.append_cons] at h
  -- the claim of `other` is already made when those after it are heard
  have hfirst := mem_of_mem_claims_append h (by simp) hsame
  have hbefore : name ∈ before := by
    rcases List.mem_append.mp hfirst with hmem | hmem
    · exact hmem
    · exact absurd (List.mem_singleton.mp hmem).symm hne
  rw [hcut] at hordered
  exact (List.pairwise_append.mp hordered).2.2 name hbefore other List.mem_cons_self

/-- **Which names are written short**: those that make their claims before all other recorded names
with the same simple name. -/
theorem mem_simpleNames_iff :
    name ∈ mentions.simpleNames package ↔
      name ∈ mentions.types ∧ ∀ other ∈ mentions.types,
        simpleName other = simpleName name → other ≠ name → ClaimsBefore package name other := by
  constructor
  · intro h
    exact ⟨mem_types_of_mem_simpleNames h, fun other hother hsame hne =>
      claimsBefore_of_mem_simpleNames h hother hsame hne⟩
  · rintro ⟨hname, hleast⟩
    obtain ⟨holder, hholder, hsame⟩ := exists_holder package hname
    by_cases heq : holder = name
    · rwa [← heq]
    · -- two names cannot come before each other
      have hbefore := hleast holder (mem_types_of_mem_simpleNames hholder) hsame heq
      have hafter := claimsBefore_of_mem_simpleNames hholder hname hsame.symm (Ne.symm heq)
      exact absurd hafter hbefore.asymm

end Mentions

/-- Each simple name among the types of a unit is held by the least type that has it, and the unit
imports the holders that a file of its package does not see anyway. -/
structure LeastClaims (types : NameSet) (package : String) (short imports : NameSet) : Prop where
  /-- The holders are the least names of their simple names, and no other names are short. -/
  mem_short_iff : ∀ name, name ∈ short ↔
    name ∈ types ∧ ∀ other ∈ types, simpleName other = simpleName name → other ≠ name →
      ClaimsBefore package name other
  /-- Each simple name has one holder. -/
  exists_unique : ∀ type ∈ types, ∃! name, name ∈ short ∧ simpleName name = simpleName type
  /-- The imports are the holders that the file does not see. -/
  mem_imports_iff : ∀ name, name ∈ imports ↔
    name ∈ short ∧ packageOf name ≠ package ∧ packageOf name ∉ defaultImports
  /-- No two imports have the same simple name. -/
  imports_apart : ∀ first ∈ imports, ∀ second ∈ imports,
    simpleName first = simpleName second → first = second
  /-- No import has the simple name of a type that the file sees. -/
  imports_unseen : ∀ name ∈ imports, ∀ other ∈ types,
    packageOf other = package ∨ packageOf other ∈ defaultImports →
      simpleName other ≠ simpleName name

namespace Mentions

theorem leastClaims (mentions : Mentions) (package : String) :
    LeastClaims mentions.types package (mentions.simpleNames package)
      (mentions.imports package) where
  mem_short_iff _ := mem_simpleNames_iff
  exists_unique type htype := by
    obtain ⟨holder, hholder, hsame⟩ := exists_holder package htype
    refine ⟨holder, ⟨hholder, hsame⟩, ?_⟩
    rintro other ⟨hother, hsame'⟩
    exact eq_of_simpleName_eq hother hholder (hsame'.trans hsame.symm)
  mem_imports_iff name := by
    rw [mem_imports, ← Bool.not_eq_true, isImplicit_iff, not_or]
  imports_apart first hfirst second hsecond hsame :=
    eq_of_simpleName_eq (mem_imports.mp hfirst).1 (mem_imports.mp hsecond).1 hsame
  imports_unseen name hname other hother hvisible hsame := by
    obtain ⟨hshort, hunseen⟩ := mem_imports.mp hname
    have himplicit :=
      isImplicit_of_mem_simpleNames hshort hother (isImplicit_iff.mpr hvisible) hsame
    rw [hunseen] at himplicit
    cases himplicit

/-- **The least names hold the simple names.**  Referencing some names records those with a dot.
In whatever order the table of the claims is read, its names are those that are written short; they
are the least recorded names of their simple names, and referencing the same names in another order,
or repeatedly, gives the same short names. -/
theorem leastClaims_of_table {mentions : Mentions} {referenced : List String} {package : String}
    {table : List String}
    (h : table.Perm (((referenced.foldl note mentions).claimants package).foldl claim [])) :
    (∀ name, name ∈ (referenced.foldl note mentions).types ↔
      name ∈ mentions.types ∨ (isDotted name = true ∧ name ∈ referenced)) ∧
    (referenced.foldl note mentions).simpleNames package = NameSet.ofList table ∧
    LeastClaims (referenced.foldl note mentions).types package (NameSet.ofList table)
      ((referenced.foldl note mentions).imports package) ∧
    ∀ again : List String, (∀ name, name ∈ again ↔ name ∈ referenced) →
      (again.foldl note mentions).simpleNames package = NameSet.ofList table ∧
      (again.foldl note mentions).imports package =
        (referenced.foldl note mentions).imports package := by
  have hadds : ∀ names : List String, Adds names mentions (names.foldl note mentions) := by
    intro names
    have hfold := Adds.foldl Adds.note names mentions
    rwa [List.flatMap_singleton'] at hfold
  have htable : (referenced.foldl note mentions).simpleNames package = NameSet.ofList table := by
    refine NameSet.ext fun name => ?_
    rw [mem_simpleNames, NameSet.mem_ofList]
    exact h.symm.mem_iff
  refine ⟨hadds referenced, htable, ?_, ?_⟩
  · rw [← htable]
    exact leastClaims _ package
  · intro again hagain
    have htypes : (again.foldl note mentions).types = (referenced.foldl note mentions).types := by
      refine NameSet.ext fun name => ?_
      rw [hadds again name, hadds referenced name, hagain name]
    have hshort := simpleNames_congr htypes package
    refine ⟨hshort.trans htable, ?_⟩
    unfold imports
    rw [hshort]

/-- Two users, a list that every file sees and one of the unit's package, and a name without a
dot. -/
def contested : List String :=
  ["x.b.User", "kotlin.collections.List", "x.List", "T", "x.a.User"]

/-- The list of the unit's package takes the simple name away from the one that every file sees, the
first user by its characters from the second one; the table may be read backwards. -/
theorem leastClaims_of_table_backwards :
    ["x.a.User", "x.List"].Perm (((contested.foldl note none).claimants "x").foldl claim []) ∧
    LeastClaims (contested.foldl note none).types "x" (NameSet.ofList ["x.a.User", "x.List"])
      ((contested.foldl note none).imports "x") := by
  have htable :
      ["x.a.User", "x.List"].Perm (((contested.foldl note none).claimants "x").foldl claim []) := by
    decide +kernel
  exact ⟨htable, (leastClaims_of_table htable).2.2.1⟩

end Mentions

end Wiring
