/-!
# Sets of names

A set of strings, kept as a strictly increasing list.  The order is part of the type, so two
sets with the same members are equal, whatever order the members came in, and listing a set
never depends on its history.

## Main definitions

* `NameSet` — a strictly increasing list of strings.
* `NameSet.insert`, `NameSet.ofList`, `NameSet.filter` — building sets.

## Main results

* `NameSet.mem_insert`, `NameSet.mem_ofList`, `NameSet.mem_filter` — the members of each.
* `NameSet.ext` — sets with the same members are equal.
-/

namespace Wiring

/-- Puts a name into a strictly increasing list, unless it is there already. -/
def insertName (name : String) : List String → List String
  | [] => [name]
  | first :: rest =>
      if name < first then name :: first :: rest
      else if name = first then first :: rest
      else first :: insertName name rest

theorem mem_insertName {name other : String} {names : List String} :
    other ∈ insertName name names ↔ other = name ∨ other ∈ names := by
  induction names with
  | nil => simp [insertName]
  | cons first rest ih =>
    unfold insertName
    split
    · simp
    · split
      · next h => subst h; simp
      · simp only [List.mem_cons, ih]
        exact or_left_comm

/-- Of two different names one comes first. -/
theorem lt_of_not_lt_of_ne {a b : String} (h : ¬ a < b) (hne : a ≠ b) : b < a := by
  rcases Classical.em (b < a) with hba | hba
  · exact hba
  · exact absurd (String.le_antisymm (String.not_lt.mp hba) (String.not_lt.mp h)) hne

theorem insertName_sorted (name : String) {names : List String}
    (h : names.Pairwise (· < ·)) : (insertName name names).Pairwise (· < ·) := by
  induction names with
  | nil => simp [insertName]
  | cons first rest ih =>
    unfold insertName
    split
    · next hlt =>
      refine List.pairwise_cons.mpr ⟨fun b hb => ?_, h⟩
      rcases List.mem_cons.mp hb with rfl | hb
      · exact hlt
      · exact String.lt_trans hlt ((List.pairwise_cons.mp h).1 b hb)
    · split
      · exact h
      · next hlt hne =>
        refine List.pairwise_cons.mpr ⟨fun b hb => ?_, ih (List.pairwise_cons.mp h).2⟩
        rcases mem_insertName.mp hb with rfl | hb
        · exact lt_of_not_lt_of_ne hlt hne
        · exact (List.pairwise_cons.mp h).1 b hb

/-- A set of names, listed in strictly increasing order. -/
structure NameSet where
  /-- The members, in order. -/
  toList : List String
  /-- Each member comes strictly before all later ones. -/
  sorted : toList.Pairwise (· < ·)

namespace NameSet

instance : Membership String NameSet := ⟨fun names name => name ∈ names.toList⟩

theorem mem_def {name : String} {names : NameSet} : name ∈ names ↔ name ∈ names.toList :=
  Iff.rfl

instance (name : String) (names : NameSet) : Decidable (name ∈ names) :=
  inferInstanceAs (Decidable (name ∈ names.toList))

/-- The set without members. -/
def empty : NameSet := ⟨[], List.Pairwise.nil⟩

instance : EmptyCollection NameSet := ⟨empty⟩

instance : Inhabited NameSet := ⟨empty⟩

/-- The set with one more member. -/
def insert (names : NameSet) (name : String) : NameSet :=
  ⟨insertName name names.toList, insertName_sorted name names.sorted⟩

/-- The set of the names in a list. -/
def ofList (names : List String) : NameSet := names.foldl insert empty

/-- The members that pass a test. -/
def filter (names : NameSet) (keep : String → Bool) : NameSet :=
  ⟨names.toList.filter keep, names.sorted.filter keep⟩

/-- The set has no member. -/
def isEmpty (names : NameSet) : Bool := names.toList.isEmpty

@[simp] theorem not_mem_empty (name : String) : name ∉ (∅ : NameSet) := List.not_mem_nil

@[simp] theorem mem_insert {names : NameSet} {name other : String} :
    other ∈ names.insert name ↔ other = name ∨ other ∈ names := mem_insertName

@[simp] theorem mem_filter {names : NameSet} {keep : String → Bool} {name : String} :
    name ∈ names.filter keep ↔ name ∈ names ∧ keep name = true := List.mem_filter

theorem mem_foldl_insert {list : List String} {names : NameSet} {name : String} :
    name ∈ list.foldl insert names ↔ name ∈ list ∨ name ∈ names := by
  induction list generalizing names with
  | nil => simp
  | cons first rest ih =>
    simp only [List.foldl_cons, ih, mem_insert, List.mem_cons]
    constructor
    · rintro (h | h | h)
      · exact .inl (.inr h)
      · exact .inl (.inl h)
      · exact .inr h
    · rintro ((h | h) | h)
      · exact .inr (.inl h)
      · exact .inl h
      · exact .inr (.inr h)

@[simp] theorem mem_ofList {list : List String} {name : String} :
    name ∈ ofList list ↔ name ∈ list := by
  rw [ofList, mem_foldl_insert]
  exact or_iff_left (not_mem_empty name)

/-- Two strictly increasing lists with the same members are equal. -/
theorem eq_of_mem_iff : ∀ {a b : List String}, a.Pairwise (· < ·) → b.Pairwise (· < ·) →
    (∀ name, name ∈ a ↔ name ∈ b) → a = b := by
  intro a
  induction a with
  | nil =>
    intro b _ _ h
    cases b with
    | nil => rfl
    | cons y ys => exact absurd ((h y).mpr List.mem_cons_self) List.not_mem_nil
  | cons x xs ih =>
    intro b ha hb h
    cases b with
    | nil => exact absurd ((h x).mp List.mem_cons_self) List.not_mem_nil
    | cons y ys =>
      have hax := (List.pairwise_cons.mp ha).1
      have hby := (List.pairwise_cons.mp hb).1
      -- the two first members are the least ones of the same set
      have hxy : x = y := by
        rcases List.mem_cons.mp ((h x).mp List.mem_cons_self) with hx | hx
        · exact hx
        · rcases List.mem_cons.mp ((h y).mpr List.mem_cons_self) with hy | hy
          · exact hy.symm
          · exact absurd (String.lt_trans (hax y hy) (hby x hx)) (String.lt_irrefl x)
      subst hxy
      refine congrArg (x :: ·) (ih (List.pairwise_cons.mp ha).2 (List.pairwise_cons.mp hb).2 ?_)
      intro name
      constructor
      · intro hm
        rcases List.mem_cons.mp ((h name).mp (List.mem_cons_of_mem _ hm)) with rfl | hm'
        · exact absurd (hax _ hm) (String.lt_irrefl _)
        · exact hm'
      · intro hm
        rcases List.mem_cons.mp ((h name).mpr (List.mem_cons_of_mem _ hm)) with rfl | hm'
        · exact absurd (hby _ hm) (String.lt_irrefl _)
        · exact hm'

/-- Sets with the same members are equal. -/
theorem ext {a b : NameSet} (h : ∀ name, name ∈ a ↔ name ∈ b) : a = b := by
  cases a with
  | mk as has =>
    cases b with
    | mk bs hbs =>
      have := eq_of_mem_iff has hbs h
      subst this
      rfl

end NameSet

end Wiring
