import Mathlib.Data.List.Basic
import Wiring.Category

/-!
# Categories and supertypes

What a type can be taken for depends on its name and on the set of its supertypes only: it may be
provided by the registry, be primitive or a string, be serializable or parcelable, and it always is
some object.  Its category is the highest of these.  So a further supertype can only raise the
category, and only a supertype that is one of the three capabilities can do so, whichever names the
capabilities have.

## Main definitions

* `DeclaredType.withSupertype` — the type with one more supertype.
* `Category.rank` — the height of a category.
* `Category.Candidate` — what a type can be taken for.

## Main results

* `Category.ofType_eq_iff` — the category of a type is the highest it can be taken for.
* `Category.Candidate.of_withSupertype` — what a further supertype adds.
* `Category.ofType_withSupertype` — **a further supertype never lowers the category**.
-/

namespace Wiring

/-- The type with one more supertype. -/
def DeclaredType.withSupertype (t : DeclaredType) (supertype : String) : DeclaredType :=
  { t with supertypes := t.supertypes ++ [supertype] }

/-- With more supertypes a type is a subtype of more types. -/
theorem DeclaredType.isSubtypeOf_mono {t u : DeclaredType} (hname : u.name = t.name)
    (hsupertypes : t.supertypes ⊆ u.supertypes) {capability : String}
    (h : t.isSubtypeOf capability = true) : u.isSubtypeOf capability = true := by
  rw [isSubtypeOf_iff] at h ⊢
  rw [hname]
  exact h.imp id fun hmem => hsupertypes hmem

/-- A further supertype makes a type a subtype of that one. -/
theorem DeclaredType.isSubtypeOf_withSupertype_iff {t : DeclaredType} {supertype name : String} :
    (t.withSupertype supertype).isSubtypeOf name = true ↔
      t.isSubtypeOf name = true ∨ supertype = name := by
  rw [isSubtypeOf_iff, isSubtypeOf_iff, withSupertype, List.mem_append, List.mem_singleton,
    or_assoc, eq_comm (a := name)]

namespace Category

/-- The height of a category: objects are lowest, then come parcelable and serializable ones, then
primitives and strings, and services of the registry are highest. -/
def rank : Category → Nat
  | object => 0
  | parcelable => 1
  | serializable => 2
  | provider => 4
  | _ => 3

/-- What a type can be taken for. -/
inductive Candidate (symbols : Symbols) (t : DeclaredType) : Category → Prop where
  /-- The registry provides it. -/
  | provider (h : t.isSubtypeOf symbols.providerCapability = true) :
      Candidate symbols t .provider
  /-- Its name is that of a primitive type or of a string type. -/
  | named {category : Category} (h : ofName? t.name = some category) :
      Candidate symbols t category
  /-- It is serializable. -/
  | serializable (h : t.isSubtypeOf symbols.serializable = true) :
      Candidate symbols t .serializable
  /-- It is parcelable. -/
  | parcelable (h : t.isSubtypeOf symbols.parcelable = true) : Candidate symbols t .parcelable
  /-- It is some object. -/
  | object : Candidate symbols t .object

/-- A type that is decided by its name is a primitive or a string. -/
theorem isPrimitive_or_of_ofName? {name : String} {category : Category}
    (h : ofName? name = some category) : category.isPrimitive = true ∨ category = str := by
  unfold ofName? at h
  split at h
  · rename_i found hfound
    obtain ⟨front, back, hlist, -⟩ := List.lookup_eq_some_iff.mp hfound
    have hmem : (name, found) ∈ primitives := by
      rw [hlist]
      exact List.mem_append_right _ List.mem_cons_self
    have hall : ∀ entry ∈ primitives, entry.2.isPrimitive = true := by decide
    rw [← Option.some.inj h]
    exact .inl (hall _ hmem)
  · split at h
    · exact .inr (Option.some.inj h).symm
    · cases h

/-- Nothing is higher than services of the registry. -/
theorem rank_le_provider (category : Category) : category.rank ≤ Category.provider.rank := by
  cases category <;> decide

/-- Primitives and strings have the same height, and nothing else has it. -/
theorem rank_eq_three_iff {category : Category} :
    category.rank = 3 ↔ category.isPrimitive = true ∨ category = str := by
  cases category <;> decide

theorem rank_of_ofName? {name : String} {category : Category}
    (h : ofName? name = some category) : category.rank = 3 :=
  rank_eq_three_iff.mpr (isPrimitive_or_of_ofName? h)

section

variable {symbols : Symbols} {t u : DeclaredType} {category other : Category}

/-- A type can be taken for its category. -/
theorem candidate_ofType (symbols : Symbols) (t : DeclaredType) :
    Candidate symbols t (ofType symbols t) := by
  unfold ofType
  split
  · exact .provider ‹_›
  · split
    · exact .named ‹_›
    · split
      · exact .serializable ‹_›
      · split
        · exact .parcelable ‹_›
        · exact .object

/-- Nothing a type can be taken for is higher than its category. -/
theorem Candidate.rank_le (h : Candidate symbols t category) :
    category.rank ≤ (ofType symbols t).rank := by
  unfold ofType
  by_cases hprovider : t.isSubtypeOf symbols.providerCapability = true
  · rw [if_pos hprovider]
    exact rank_le_provider category
  rw [if_neg hprovider]
  cases hname : ofName? t.name with
  | some found =>
    -- the name decides, and only a service of the registry would be higher
    rw [rank_of_ofName? hname]
    cases h with
    | provider h => exact absurd h hprovider
    | named h => exact Nat.le_of_eq (rank_of_ofName? h)
    | _ => decide
  | none =>
    dsimp only
    cases h with
    | provider h => exact absurd h hprovider
    | named h => rw [hname] at h; cases h
    | serializable h => exact Nat.le_of_eq (by rw [if_pos h])
    | parcelable h =>
      rw [if_pos h]
      split <;> decide
    | object => exact Nat.zero_le _

/-- A type can be taken for one category of each height at most. -/
theorem Candidate.eq_of_rank_eq (h : Candidate symbols t category)
    (hother : Candidate symbols t other) (hrank : category.rank = other.rank) :
    category = other := by
  cases h with
  | named h =>
    -- all other heights belong to one category each
    rw [rank_of_ofName? h] at hrank
    cases hother with
    | named hother => exact Option.some.inj (h.symm.trans hother)
    | _ => cases hrank
  | _ =>
    cases hother with
    | named hother =>
      rw [rank_of_ofName? hother] at hrank
      cases hrank
    | _ => first | rfl | cases hrank

/-- **The category of a type is the highest it can be taken for.** -/
theorem ofType_eq_iff :
    ofType symbols t = category ↔
      Candidate symbols t category ∧
        ∀ other, Candidate symbols t other → other.rank ≤ category.rank := by
  constructor
  · rintro rfl
    exact ⟨candidate_ofType symbols t, fun other hother => hother.rank_le⟩
  · rintro ⟨hcategory, hhighest⟩
    have htype := candidate_ofType symbols t
    exact htype.eq_of_rank_eq hcategory (Nat.le_antisymm (hhighest _ htype) hcategory.rank_le)

/-- A type with more supertypes can be taken for more. -/
theorem Candidate.mono (hname : u.name = t.name) (hsupertypes : t.supertypes ⊆ u.supertypes)
    (h : Candidate symbols t category) : Candidate symbols u category := by
  cases h with
  | provider h => exact .provider (DeclaredType.isSubtypeOf_mono hname hsupertypes h)
  | named h => exact .named (hname ▸ h)
  | serializable h => exact .serializable (DeclaredType.isSubtypeOf_mono hname hsupertypes h)
  | parcelable h => exact .parcelable (DeclaredType.isSubtypeOf_mono hname hsupertypes h)
  | object => exact .object

/-- A type with more supertypes is in no lower category. -/
theorem rank_ofType_mono (symbols : Symbols) (hname : u.name = t.name)
    (hsupertypes : t.supertypes ⊆ u.supertypes) :
    (ofType symbols t).rank ≤ (ofType symbols u).rank :=
  ((candidate_ofType symbols t).mono hname hsupertypes).rank_le

/-- The category depends on the name and on the set of the supertypes only. -/
theorem ofType_congr (symbols : Symbols) (hname : u.name = t.name)
    (hsupertypes : ∀ name, name ∈ u.supertypes ↔ name ∈ t.supertypes) :
    ofType symbols u = ofType symbols t := by
  have hmore : t.supertypes ⊆ u.supertypes := fun name => (hsupertypes name).mpr
  have hless : u.supertypes ⊆ t.supertypes := fun name => (hsupertypes name).mp
  refine (candidate_ofType symbols u).eq_of_rank_eq
    ((candidate_ofType symbols t).mono hname hmore) ?_
  exact Nat.le_antisymm (rank_ofType_mono symbols hname.symm hless)
    (rank_ofType_mono symbols hname hmore)

/-- What a further supertype adds: the category of a capability, if it is one. -/
theorem Candidate.of_withSupertype {supertype : String}
    (h : Candidate symbols (t.withSupertype supertype) category) :
    Candidate symbols t category ∨
      (supertype = symbols.providerCapability ∧ category = .provider) ∨
      (supertype = symbols.serializable ∧ category = .serializable) ∨
      (supertype = symbols.parcelable ∧ category = .parcelable) := by
  cases h with
  | provider h =>
    rcases DeclaredType.isSubtypeOf_withSupertype_iff.mp h with h | h
    · exact .inl (.provider h)
    · exact .inr (.inl ⟨h, rfl⟩)
  | named h => exact .inl (.named h)
  | serializable h =>
    rcases DeclaredType.isSubtypeOf_withSupertype_iff.mp h with h | h
    · exact .inl (.serializable h)
    · exact .inr (.inr (.inl ⟨h, rfl⟩))
  | parcelable h =>
    rcases DeclaredType.isSubtypeOf_withSupertype_iff.mp h with h | h
    · exact .inl (.parcelable h)
    · exact .inr (.inr (.inr ⟨h, rfl⟩))
  | object => exact .inl .object

end

/-- **A further supertype never lowers the category of a type.**  It changes the category only if
it is one of the three capabilities, and that of a primitive type or a string only to a service of
the registry.  Of a type nothing but its name and the set of its supertypes counts. -/
theorem ofType_withSupertype (symbols : Symbols) (t : DeclaredType) (supertype : String) :
    (ofType symbols t).rank ≤ (ofType symbols (t.withSupertype supertype)).rank ∧
    (ofType symbols (t.withSupertype supertype) ≠ ofType symbols t →
      supertype = symbols.providerCapability ∨ supertype = symbols.serializable ∨
        supertype = symbols.parcelable) ∧
    ((ofName? t.name).isSome ∨ (ofType symbols t).isPrimitive ∨ ofType symbols t = str →
      ofType symbols (t.withSupertype supertype) = ofType symbols t ∨
        ofType symbols (t.withSupertype supertype) = provider) ∧
    ∀ u : DeclaredType, u.name = t.name →
      (∀ name, name ∈ u.supertypes ↔ name ∈ t.supertypes) →
        ofType symbols u = ofType symbols t := by
  have hmore : t.supertypes ⊆ (t.withSupertype supertype).supertypes :=
    List.subset_append_left _ _
  have hraised : (ofType symbols t).rank ≤ (ofType symbols (t.withSupertype supertype)).rank :=
    rank_ofType_mono symbols rfl hmore
  -- a category that is new was added by the supertype; an old one is not lower, so it is the same
  have hchange : ofType symbols (t.withSupertype supertype) = ofType symbols t ∨
      (supertype = symbols.providerCapability ∧
        ofType symbols (t.withSupertype supertype) = provider) ∨
      (supertype = symbols.serializable ∧
        ofType symbols (t.withSupertype supertype) = serializable) ∨
      (supertype = symbols.parcelable ∧
        ofType symbols (t.withSupertype supertype) = parcelable) :=
    (candidate_ofType symbols (t.withSupertype supertype)).of_withSupertype.imp_left fun hold =>
      hold.eq_of_rank_eq (candidate_ofType symbols t) (Nat.le_antisymm hold.rank_le hraised)
  refine ⟨hraised, fun hne => ?_, fun hbuiltIn => ?_, fun u => ofType_congr symbols⟩
  · rcases hchange with hsame | ⟨h, -⟩ | ⟨h, -⟩ | ⟨h, -⟩
    · exact absurd hsame hne
    · exact .inl h
    · exact .inr (.inl h)
    · exact .inr (.inr h)
  · have hheight : 3 ≤ (ofType symbols t).rank := by
      rcases hbuiltIn with hname | hcategory
      · obtain ⟨category, hname⟩ := Option.isSome_iff_exists.mp hname
        have hnamed : Candidate symbols t category := .named hname
        exact Nat.le_trans (Nat.le_of_eq (rank_of_ofName? hname).symm) hnamed.rank_le
      · exact Nat.le_of_eq (rank_eq_three_iff.mpr hcategory).symm
    rcases hchange with hsame | ⟨-, h⟩ | ⟨-, h⟩ | ⟨-, h⟩
    · exact .inl hsame
    · exact .inr h
    · rw [h] at hraised
      exact absurd (Nat.le_trans hheight hraised) (by decide)
    · rw [h] at hraised
      exact absurd (Nat.le_trans hheight hraised) (by decide)

/-- Symbols with one name for two of the capabilities. -/
def sharedCapability : Symbols := { providerCapability := "app.Data", serializable := "app.Data" }

/-- A primitive type with two supertypes. -/
def number : DeclaredType := ⟨"kotlin.Int", false, [], ["kotlin.Number", "kotlin.Comparable"]⟩

/-- The same, written differently: with null, an argument, and one of the supertypes repeated. -/
def numberAgain : DeclaredType :=
  ⟨"kotlin.Int", true, [.ofName "app.Data"],
    ["kotlin.Comparable", "kotlin.Number", "kotlin.Comparable"]⟩

/-- A capability turns a primitive type into a service of the registry, even one that marks
serializable types too. -/
theorem ofType_withSupertype_number :
    ofType sharedCapability number = int ∧
    ofType sharedCapability (number.withSupertype "app.Data") = provider ∧
    ("app.Data" = sharedCapability.providerCapability ∨
      "app.Data" = sharedCapability.serializable ∨ "app.Data" = sharedCapability.parcelable) ∧
    (ofType sharedCapability (number.withSupertype "app.Data") = ofType sharedCapability number ∨
      ofType sharedCapability (number.withSupertype "app.Data") = provider) ∧
    numberAgain.name = number.name ∧
    (∀ name, name ∈ numberAgain.supertypes ↔ name ∈ number.supertypes) ∧
    ofType sharedCapability numberAgain = ofType sharedCapability number := by
  have hbefore : ofType sharedCapability number = int := by decide
  have hafter : ofType sharedCapability (number.withSupertype "app.Data") = provider := by decide
  have hchanged : ofType sharedCapability (number.withSupertype "app.Data") ≠
      ofType sharedCapability number := by
    rw [hbefore, hafter]
    decide
  have hbuiltIn : (ofName? number.name).isSome = true := by decide
  have hsupertypes : ∀ name, name ∈ numberAgain.supertypes ↔ name ∈ number.supertypes := by
    intro name
    simp only [numberAgain, number, List.mem_cons, List.not_mem_nil, or_false]
    grind
  obtain ⟨-, hcapability, hservice, hsame⟩ :=
    ofType_withSupertype sharedCapability number "app.Data"
  exact ⟨hbefore, hafter, hcapability hchanged, hservice (.inl hbuiltIn), rfl, hsupertypes,
    hsame numberAgain rfl hsupertypes⟩

end Category

end Wiring
