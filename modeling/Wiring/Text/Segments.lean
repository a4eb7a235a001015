/-!
# Cutting text at a separator

Texts are handled as lists of characters, so that every function here is a plain
recursion.

## Main definitions

* `segments` — all pieces between the occurrences of a separator.
* `joined` — pieces put together with a separator between them.
* `splitLast?` — the two parts around the last occurrence of a separator.

## Main results

* `segments_joined` — cutting undoes joining, if no piece has the separator.
* `segments_append` — a separator cuts a text into what stands before it and after it.
* `segments_append_of_not_mem` — text without the separator goes to the last piece.
* `splitLast?_eq_none_iff` — only a text without the separator has no last cut.
* `eq_of_splitLast?` — the parts of the last cut rebuild the text, and the second has no
  separator.
-/

namespace Wiring.Text

/-- The pieces of a text between the occurrences of `sep`.  There is always at least
one; two separators in a row leave an empty piece between them. -/
def segments (sep : Char) : List Char → List (List Char)
  | [] => [[]]
  | c :: cs =>
      if c = sep then [] :: segments sep cs
      else
        match segments sep cs with
        | [] => [[c]]
        | piece :: pieces => (c :: piece) :: pieces

/-- Pieces put together with `sep` between neighbours. -/
def joined (sep : Char) : List (List Char) → List Char
  | [] => []
  | [piece] => piece
  | piece :: pieces => piece ++ sep :: joined sep pieces

/-- The parts before and after the last `sep`; `none` when there is no `sep`. -/
def splitLast? (sep : Char) : List Char → Option (List Char × List Char)
  | [] => none
  | c :: cs =>
      match splitLast? sep cs with
      | some (before, after) => some (c :: before, after)
      | none => if c = sep then some ([], cs) else none

@[simp] theorem segments_nil (sep : Char) : segments sep [] = [[]] := rfl

theorem segments_ne_nil (sep : Char) (cs : List Char) : segments sep cs ≠ [] := by
  cases cs with
  | nil => simp
  | cons c cs =>
    unfold segments
    split
    · simp
    · split <;> simp

@[simp] theorem segments_cons_sep (sep : Char) (cs : List Char) :
    segments sep (sep :: cs) = [] :: segments sep cs := by
  rw [segments, if_pos rfl]

theorem segments_cons_of_ne {sep c : Char} (hc : c ≠ sep) {cs piece : List Char}
    {pieces : List (List Char)} (h : segments sep cs = piece :: pieces) :
    segments sep (c :: cs) = (c :: piece) :: pieces := by
  rw [segments, if_neg hc, h]

/-- A text has a first piece. -/
theorem exists_segments_eq_cons (sep : Char) (cs : List Char) :
    ∃ piece pieces, segments sep cs = piece :: pieces :=
  List.exists_cons_of_ne_nil (segments_ne_nil sep cs)

/-- A separator cuts a text into what stands before it and after it. -/
theorem segments_append (sep : Char) (before after : List Char) :
    segments sep (before ++ sep :: after) = segments sep before ++ segments sep after := by
  induction before with
  | nil => simp
  | cons c cs ih =>
    by_cases hc : c = sep
    · subst hc
      rw [List.cons_append, segments_cons_sep, segments_cons_sep, ih, List.cons_append]
    · obtain ⟨piece, pieces, hcs⟩ := exists_segments_eq_cons sep cs
      rw [hcs, List.cons_append] at ih
      rw [List.cons_append, segments_cons_of_ne hc ih, segments_cons_of_ne hc hcs,
        List.cons_append]

/-- A text without the separator is one piece. -/
theorem segments_of_not_mem {sep : Char} {cs : List Char} (h : sep ∉ cs) :
    segments sep cs = [cs] := by
  induction cs with
  | nil => rfl
  | cons c cs ih =>
    rw [List.mem_cons, not_or] at h
    exact segments_cons_of_ne (Ne.symm h.1) (ih h.2)

/-- No piece has the separator. -/
theorem not_mem_of_mem_segments {sep : Char} {cs piece : List Char}
    (h : piece ∈ segments sep cs) : sep ∉ piece := by
  induction cs generalizing piece with
  | nil =>
    rw [segments_nil, List.mem_singleton] at h
    simp [h]
  | cons c cs ih =>
    obtain ⟨first, rest, hcs⟩ := exists_segments_eq_cons sep cs
    by_cases hc : c = sep
    · subst hc
      rw [segments_cons_sep, List.mem_cons] at h
      rcases h with rfl | h
      · exact List.not_mem_nil
      · exact ih h
    · rw [segments_cons_of_ne hc hcs, List.mem_cons] at h
      rcases h with rfl | h
      · have hfirst : sep ∉ first := ih (by rw [hcs]; exact List.mem_cons_self)
        simp [Ne.symm hc, hfirst]
      · exact ih (by rw [hcs]; exact List.mem_cons_of_mem _ h)

/-- The pieces are made of characters of the text. -/
theorem mem_of_mem_segments {sep c : Char} {cs piece : List Char} (h : piece ∈ segments sep cs)
    (hc : c ∈ piece) : c ∈ cs := by
  induction cs generalizing piece with
  | nil =>
    rw [segments_nil, List.mem_singleton] at h
    rw [h] at hc
    exact absurd hc List.not_mem_nil
  | cons d cs ih =>
    obtain ⟨first, rest, hcs⟩ := exists_segments_eq_cons sep cs
    by_cases hd : d = sep
    · subst hd
      rw [segments_cons_sep, List.mem_cons] at h
      rcases h with rfl | h
      · exact absurd hc List.not_mem_nil
      · exact List.mem_cons_of_mem _ (ih h hc)
    · rw [segments_cons_of_ne hd hcs, List.mem_cons] at h
      rcases h with rfl | h
      · rcases List.mem_cons.mp hc with rfl | hc
        · exact List.mem_cons_self
        · exact List.mem_cons_of_mem _ (ih (by rw [hcs]; exact List.mem_cons_self) hc)
      · exact List.mem_cons_of_mem _ (ih (by rw [hcs]; exact List.mem_cons_of_mem _ h) hc)

/-- Cutting undoes joining, if no piece has the separator. -/
theorem segments_joined {sep : Char} {pieces : List (List Char)} (hne : pieces ≠ [])
    (h : ∀ piece ∈ pieces, sep ∉ piece) : segments sep (joined sep pieces) = pieces := by
  induction pieces with
  | nil => exact absurd rfl hne
  | cons piece rest ih =>
    have hpiece := segments_of_not_mem (h piece List.mem_cons_self)
    cases rest with
    | nil => exact hpiece
    | cons next more =>
      have hrest := ih (by simp) fun other hother => h other (List.mem_cons_of_mem _ hother)
      rw [joined, segments_append, hpiece, hrest]
      · rfl
      · simp

/-- Text without the separator goes to the last piece. -/
theorem segments_append_of_not_mem {sep : Char} (before : List Char) {after : List Char}
    (h : sep ∉ after) :
    ∃ pieces stem, segments sep before = pieces ++ [stem] ∧
      segments sep (before ++ after) = pieces ++ [stem ++ after] := by
  induction before with
  | nil => exact ⟨[], [], rfl, segments_of_not_mem h⟩
  | cons c cs ih =>
    obtain ⟨pieces, stem, hcs, happend⟩ := ih
    by_cases hc : c = sep
    · subst hc
      refine ⟨[] :: pieces, stem, ?_, ?_⟩
      · rw [segments_cons_sep, hcs, List.cons_append]
      · rw [List.cons_append, segments_cons_sep, happend, List.cons_append]
    · cases pieces with
      | nil =>
        exact ⟨[], c :: stem, segments_cons_of_ne hc hcs, segments_cons_of_ne hc happend⟩
      | cons first rest =>
        exact ⟨(c :: first) :: rest, stem, segments_cons_of_ne hc hcs,
          segments_cons_of_ne hc happend⟩

/-- Only a text without the separator has no last cut. -/
theorem splitLast?_eq_none_iff {sep : Char} {cs : List Char} :
    splitLast? sep cs = none ↔ sep ∉ cs := by
  induction cs with
  | nil => simp [splitLast?]
  | cons c cs ih =>
    unfold splitLast?
    cases h : splitLast? sep cs with
    | some p =>
      have : sep ∈ cs := by
        by_cases hm : sep ∈ cs
        · exact hm
        · rw [ih.mpr hm] at h; cases h
      simp [this]
    | none =>
      have hm := ih.mp h
      by_cases hc : c = sep
      · simp [hc]
      · simp [hc, hm, Ne.symm hc]

/-- The parts of the last cut rebuild the text, and the second part has no separator. -/
theorem eq_of_splitLast? {sep : Char} {cs before after : List Char}
    (h : splitLast? sep cs = some (before, after)) :
    cs = before ++ sep :: after ∧ sep ∉ after := by
  induction cs generalizing before with
  | nil => simp [splitLast?] at h
  | cons c cs ih =>
    unfold splitLast? at h
    cases hs : splitLast? sep cs with
    | some p =>
      rw [hs] at h
      simp only [Option.some.injEq, Prod.mk.injEq] at h
      obtain ⟨rfl, rfl⟩ := h
      have := ih hs
      exact ⟨by rw [this.1]; rfl, this.2⟩
    | none =>
      rw [hs] at h
      by_cases hc : c = sep
      · simp only [hc, if_true, Option.some.injEq, Prod.mk.injEq] at h
        obtain ⟨rfl, rfl⟩ := h
        exact ⟨by simp [hc], splitLast?_eq_none_iff.mp hs⟩
      · simp [hc] at h

end Wiring.Text
