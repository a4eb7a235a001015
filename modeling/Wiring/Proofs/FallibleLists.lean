import Mathlib.Data.List.Forall2

/-!
# Functions that may fail, over a list

A function that may fail is put to the elements of a list one after the other, up to the first one
at which it fails.  So it either succeeds on every element, and the results stand in the order of
the elements, or the first element at which it fails decides the fault.

## Main definitions

* `FirstWith` — the first element of a list that has a property.
* `collect` — the values of a function that may fail, and may have no value.

## Main results

* `mapM_eq_ok_iff`, `mapM_succeeds_iff` — success on a list is success on every element.
* `mapM_eq_error_iff` — the first element at which a function fails decides the fault.
* `collect_eq_ok_iff`, `collect_eq_error_iff` — the same where some elements have no value.
-/

namespace Wiring

/-! ### Success -/

/-- A function that may fail succeeds on a list when it does on every member, in order. -/
theorem mapM_eq_ok_iff {ε α β : Type} {f : α → Except ε β} :
    ∀ {xs : List α} {ys : List β},
      xs.mapM f = .ok ys ↔ List.Forall₂ (fun x y => f x = .ok y) xs ys := by
  intro xs
  induction xs with
  | nil =>
    intro ys
    rw [List.mapM_nil, List.forall₂_nil_left_iff]
    constructor
    · intro h; exact (Except.ok.inj h).symm
    · intro h; rw [h]; rfl
  | cons x xs ih =>
    intro ys
    rw [List.mapM_cons, List.forall₂_cons_left_iff]
    cases hx : f x with
    | error e =>
      constructor
      · intro h; cases h
      · rintro ⟨y, ys', hy, -, -⟩; cases hy
    | ok y =>
      cases hxs : xs.mapM f with
      | error e =>
        constructor
        · intro h; cases h
        · rintro ⟨y', ys', -, h, -⟩
          rw [ih.mpr h] at hxs; cases hxs
      | ok ys' =>
        constructor
        · intro h
          exact ⟨y, ys', rfl, ih.mp hxs, (Except.ok.inj h).symm⟩
        · rintro ⟨y'', ys'', hy, h, rfl⟩
          rw [ih.mpr h] at hxs
          cases hy; cases hxs
          rfl

/-- A function that may fail succeeds on a list exactly if it does on every member. -/
theorem mapM_succeeds_iff {ε α β : Type} {f : α → Except ε β} {xs : List α} :
    (∃ ys, xs.mapM f = .ok ys) ↔ ∀ x ∈ xs, ∃ y, f x = .ok y := by
  induction xs with
  | nil => exact ⟨fun _ x hx => absurd hx List.not_mem_nil, fun _ => ⟨[], rfl⟩⟩
  | cons x xs ih =>
    rw [List.forall_mem_cons, ← ih]
    constructor
    · rintro ⟨ys, h⟩
      obtain ⟨y, ys', hy, hys, -⟩ := List.forall₂_cons_left_iff.mp (mapM_eq_ok_iff.mp h)
      exact ⟨⟨y, hy⟩, ys', mapM_eq_ok_iff.mpr hys⟩
    · rintro ⟨⟨y, hy⟩, ys, hys⟩
      exact ⟨y :: ys, mapM_eq_ok_iff.mpr (.cons hy (mapM_eq_ok_iff.mp hys))⟩

/-- Every member of a list has its partner beside it. -/
theorem exists_mem_zip_of_forall₂ {α β : Type} {R : α → β → Prop} {xs : List α} {ys : List β}
    (h : List.Forall₂ R xs ys) {x : α} (hx : x ∈ xs) : ∃ y, (x, y) ∈ xs.zip ys ∧ R x y := by
  induction h with
  | nil => exact absurd hx List.not_mem_nil
  | @cons first partner xs ys hfirst _ ih =>
    rw [List.zip_cons_cons]
    rcases List.mem_cons.mp hx with rfl | hrest
    · exact ⟨partner, List.mem_cons_self, hfirst⟩
    · obtain ⟨y, hmem, hy⟩ := ih hrest
      exact ⟨y, List.mem_cons_of_mem _ hmem, hy⟩

/-! ### The first one -/

section FirstWith

variable {α β : Type} {p q : α → Prop} {list : List α} {a : α}

/-- The first element of a list that has a property. -/
def FirstWith (p : α → Prop) (list : List α) (a : α) : Prop :=
  ∃ before after, list = before ++ a :: after ∧ p a ∧ ∀ other ∈ before, ¬ p other

theorem not_firstWith_nil : ¬ FirstWith p [] a := by
  rintro ⟨before, after, h, -⟩
  simp at h

/-- The first element of a list with the property is its head, or else the first one after it. -/
theorem firstWith_cons {first : α} :
    FirstWith p (first :: list) a ↔ (p first ∧ a = first) ∨ (¬ p first ∧ FirstWith p list a) := by
  constructor
  · rintro ⟨before, after, heq, ha, hbefore⟩
    cases before with
    | nil =>
      obtain ⟨rfl, -⟩ := List.cons.inj heq
      exact .inl ⟨ha, rfl⟩
    | cons head before =>
      obtain ⟨rfl, hlist⟩ := List.cons.inj heq
      rw [List.forall_mem_cons] at hbefore
      exact .inr ⟨hbefore.1, before, after, hlist, ha, hbefore.2⟩
  · rintro (⟨hfirst, rfl⟩ | ⟨hfirst, before, after, rfl, ha, hbefore⟩)
    · exact ⟨[], list, rfl, hfirst, by simp⟩
    · refine ⟨first :: before, after, rfl, ha, ?_⟩
      rw [List.forall_mem_cons]
      exact ⟨hfirst, hbefore⟩

theorem FirstWith.mem (h : FirstWith p list a) : a ∈ list := by
  obtain ⟨before, after, rfl, -⟩ := h
  simp

theorem FirstWith.prop (h : FirstWith p list a) : p a := by
  obtain ⟨-, -, -, ha, -⟩ := h
  exact ha

/-- If any element has the property, one of them is the first. -/
theorem exists_firstWith (h : ∃ a ∈ list, p a) : ∃ a, FirstWith p list a := by
  induction list with
  | nil => simp at h
  | cons first rest ih =>
    by_cases hfirst : p first
    · exact ⟨first, firstWith_cons.mpr (.inl ⟨hfirst, rfl⟩)⟩
    · obtain ⟨a, hmem, ha⟩ := h
      have hrest : a ∈ rest := by
        rcases List.mem_cons.mp hmem with rfl | hrest
        · exact absurd ha hfirst
        · exact hrest
      obtain ⟨next, hnext⟩ := ih ⟨a, hrest, ha⟩
      exact ⟨next, firstWith_cons.mpr (.inr ⟨hfirst, hnext⟩)⟩

theorem firstWith_congr (h : ∀ a ∈ list, p a ↔ q a) : FirstWith p list a ↔ FirstWith q list a := by
  induction list with
  | nil => simp only [not_firstWith_nil]
  | cons first rest ih =>
    rw [List.forall_mem_cons] at h
    rw [firstWith_cons, firstWith_cons, h.1, ih h.2]

/-- The first element of a mapped list comes from the first one with that image. -/
theorem firstWith_map {f : α → β} {r : β → Prop} {b : β} :
    FirstWith r (list.map f) b ↔ ∃ a, FirstWith (fun a => r (f a)) list a ∧ f a = b := by
  induction list with
  | nil => simp only [List.map_nil, not_firstWith_nil, false_and, exists_false]
  | cons first rest ih =>
    rw [List.map_cons, firstWith_cons, ih]
    constructor
    · rintro (⟨hfirst, rfl⟩ | ⟨hfirst, a, ha, rfl⟩)
      · exact ⟨first, firstWith_cons.mpr (.inl ⟨hfirst, rfl⟩), rfl⟩
      · exact ⟨a, firstWith_cons.mpr (.inr ⟨hfirst, ha⟩), rfl⟩
    · rintro ⟨a, ha, rfl⟩
      rcases firstWith_cons.mp ha with ⟨hfirst, rfl⟩ | ⟨hfirst, ha⟩
      · exact .inl ⟨hfirst, rfl⟩
      · exact .inr ⟨hfirst, a, ha, rfl⟩

end FirstWith

/-- A list on which a function fails begins with an element on which it fails, or the function fails
on what comes after the first element. -/
theorem mapM_cons_eq_error_iff {ε α β : Type} {f : α → Except ε β} {first : α} {rest : List α}
    {e : ε} :
    (first :: rest).mapM f = .error e ↔
      f first = .error e ∨ (∃ y, f first = .ok y) ∧ rest.mapM f = .error e := by
  rw [List.mapM_cons]
  cases f first with
  | error fault =>
    show Except.error fault = Except.error e ↔ _
    simp
  | ok y =>
    have hrest : (do let ys ← rest.mapM f; pure (y :: ys)) = Except.error e ↔
        rest.mapM f = .error e := by
      cases rest.mapM f with
      | error fault => exact Iff.rfl
      | ok ys => exact iff_of_false (fun h => nomatch h) fun h => nomatch h
    refine hrest.trans ?_
    simp

/-- A function that may fail fails on a list as it does on the first element where it fails. -/
theorem mapM_eq_error_iff {ε α β : Type} {f : α → Except ε β} {xs : List α} {e : ε} :
    xs.mapM f = .error e ↔ ∃ x, FirstWith (fun x => ∃ e, f x = .error e) xs x ∧ f x = .error e := by
  induction xs with
  | nil =>
    have hnil : [].mapM f = .ok [] := rfl
    simp only [hnil, reduceCtorEq, not_firstWith_nil, false_and, exists_false]
  | cons first rest ih =>
    rw [mapM_cons_eq_error_iff, ih]
    simp only [firstWith_cons]
    cases hfirst : f first with
    | error fault =>
      constructor
      · rintro (h | ⟨⟨y, hy⟩, -⟩)
        · exact ⟨first, .inl ⟨⟨fault, rfl⟩, rfl⟩, hfirst.trans h⟩
        · cases hy
      · rintro ⟨x, ⟨-, rfl⟩ | ⟨hnone, -⟩, hx⟩
        · exact .inl (hfirst.symm.trans hx)
        · exact absurd ⟨fault, rfl⟩ hnone
    | ok y =>
      -- the first element succeeds, so the fault is that of the rest
      simp

/-! ### Values that may be missing -/

section Collecting

variable {ε α β : Type} {f : α → Except ε (Option β)} {xs : List α}

/-- The values that a function has on a list, where it has one; the first fault ends it. -/
def collect (f : α → Except ε (Option β)) : List α → Except ε (List β)
  | [] => .ok []
  | x :: rest =>
      match f x with
      | .error e => .error e
      | .ok found => (collect f rest).map (found.toList ++ ·)

theorem collect_append (f : α → Except ε (Option β)) (xs ys : List α) :
    collect f (xs ++ ys) =
      match collect f xs with
      | .error e => .error e
      | .ok found => (collect f ys).map (found ++ ·) := by
  induction xs with
  | nil =>
    rw [List.nil_append, collect]
    cases collect f ys <;> rfl
  | cons x rest ih =>
    rw [List.cons_append, collect, collect, ih]
    cases f x with
    | error e => rfl
    | ok first =>
      cases collect f rest with
      | error e => rfl
      | ok found =>
        cases collect f ys with
        | error e => rfl
        | ok more => exact congrArg Except.ok (List.append_assoc _ _ _).symm

/-- Elements on which the function has no value may be left out. -/
theorem collect_filter {chosen : α → Prop} [DecidablePred chosen]
    (hchosen : ∀ x, ¬ chosen x → f x = .ok none) (xs : List α) :
    collect f (xs.filter chosen) = collect f xs := by
  induction xs with
  | nil => rfl
  | cons x rest ih =>
    by_cases hx : chosen x
    · rw [List.filter_cons, if_pos (decide_eq_true hx), collect, collect, ih]
    · rw [List.filter_cons, if_neg (by simpa using hx), ih, collect, hchosen x hx]
      dsimp only
      cases collect f rest <;> rfl

/-- The values are those of the elements where there is one, in order. -/
theorem collect_eq_ok_iff (chosen : α → Prop) [DecidablePred chosen]
    (hchosen : ∀ x, f x = .ok none ↔ ¬ chosen x) {ys : List β} :
    collect f xs = .ok ys ↔ List.Forall₂ (fun x y => f x = .ok (some y)) (xs.filter chosen) ys := by
  induction xs generalizing ys with
  | nil =>
    rw [collect, List.filter_nil, List.forall₂_nil_left_iff, Except.ok.injEq]
    exact eq_comm
  | cons x rest ih =>
    by_cases hx : chosen x
    · rw [List.filter_cons, if_pos (decide_eq_true hx), List.forall₂_cons_left_iff, collect]
      cases hvalue : f x with
      | error e =>
        constructor
        · intro h; cases h
        · rintro ⟨y, ys', hy, -, -⟩; cases hy
      | ok found =>
        cases found with
        | none => exact absurd hx ((hchosen x).mp hvalue)
        | some first =>
          constructor
          · intro h
            cases hrest : collect f rest with
            | error e => rw [hrest] at h; cases h
            | ok others =>
              rw [hrest] at h
              exact ⟨first, others, rfl, ih.mp hrest, (Except.ok.inj h).symm⟩
          · rintro ⟨y, ys', hy, hrest, rfl⟩
            obtain rfl : first = y := Option.some.inj (Except.ok.inj hy)
            dsimp only
            rw [ih.mpr hrest]
            rfl
    · rw [List.filter_cons, if_neg (by simpa using hx), collect, (hchosen x).mpr hx, ← ih]
      dsimp only
      cases collect f rest <;> rfl

/-- The first element on which the function fails decides the fault. -/
theorem collect_eq_error_iff {e : ε} :
    collect f xs = .error e ↔
      ∃ x, FirstWith (fun x => ∃ e, f x = .error e) xs x ∧ f x = .error e := by
  rw [← mapM_eq_error_iff]
  induction xs with
  | nil => exact iff_of_false (fun h => nomatch h) fun h => nomatch h
  | cons x rest ih =>
    rw [mapM_cons_eq_error_iff, ← ih, collect]
    cases f x with
    | error fault => simp
    | ok found =>
      cases collect f rest with
      | error fault => simp [Except.map]
      | ok others => simp [Except.map]

end Collecting

end Wiring
