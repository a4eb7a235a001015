import Mathlib
import Wiring.Settings.Environment

/-!
# Names of variables

A variable sets the same entry whichever of its letters are capital.  Capitals are never blanks,
underscores or dots, so reading a name in capitals does the same at every character, and the keys
are put in lower case anyway.

## Main definitions

* `Settings.inCapitals` — a name in capital letters.
* `Settings.variableOf` — the variable of a key of a section.

## Main results

* `Settings.keysOf?_inCapitals` — reading a name in capitals gives the same keys.
* `Settings.keysOf?_of_variableOf` — **a variable named after a key sets that key**, in whatever
  case it is written.
-/

namespace Wiring

/-! ### Capital letters -/

namespace Text

/-- Only a letter changes when it is made a capital. -/
theorem toUpper_of_not_isAlpha {c : Char} (h : c.isAlpha = false) : c.toUpper = c := by
  refine Char.toUpper_eq_of_not_isLower fun hlower => ?_
  simp [Char.isAlpha, hlower] at h

/-- No capital is a mark. -/
theorem toUpper_eq_iff {c mark : Char} (hmark : mark.isAlpha = false) :
    c.toUpper = mark ↔ c = mark := by
  by_cases halpha : c.isAlpha = true
  · have hupper : c.toUpper.isAlpha = true := by rw [Char.isAlpha_toUpper_eq_isAlpha, halpha]
    constructor
    · intro h
      rw [h, hmark] at hupper
      cases hupper
    · intro h
      rw [h, hmark] at halpha
      cases halpha
  · rw [toUpper_of_not_isAlpha (Bool.eq_false_iff.mpr halpha)]

/-- Letters are no white space. -/
theorem isWhite_of_isAlpha {c : Char} (h : c.isAlpha = true) : isWhite c = false := by
  have hcode : (65 ≤ c.toNat ∧ c.toNat ≤ 90) ∨ (97 ≤ c.toNat ∧ c.toNat ≤ 122) := by
    simpa [Char.isAlpha, Char.isUpper, Char.isLower, UInt32.le_iff_toNat_le] using h
  simp [isWhite, Ranges.has, whiteRanges]
  omega

theorem isWhite_toUpper (c : Char) : isWhite c.toUpper = isWhite c := by
  by_cases halpha : c.isAlpha = true
  · rw [isWhite_of_isAlpha halpha, isWhite_of_isAlpha]
    rwa [Char.isAlpha_toUpper_eq_isAlpha]
  · rw [toUpper_of_not_isAlpha (Bool.eq_false_iff.mpr halpha)]

theorem trimmed_map_toUpper (cs : List Char) :
    trimmed (cs.map Char.toUpper) = (trimmed cs).map Char.toUpper := by
  have hwhite : isWhite ∘ Char.toUpper = isWhite := funext isWhite_toUpper
  rw [trimmed, trimmed, List.dropWhile_map, hwhite, ← List.map_reverse, List.dropWhile_map, hwhite,
    ← List.map_reverse]

theorem segments_map_toUpper {sep : Char} (hsep : sep.isAlpha = false) (cs : List Char) :
    segments sep (cs.map Char.toUpper) = (segments sep cs).map (List.map Char.toUpper) := by
  induction cs with
  | nil => rfl
  | cons c cs ih =>
    by_cases hc : c = sep
    · have hupper : c.toUpper = sep := (toUpper_eq_iff hsep).mpr hc
      rw [List.map_cons, hupper, hc, segments_cons_sep, segments_cons_sep, ih, List.map_cons,
        List.map_nil]
    · have hupper : c.toUpper ≠ sep := fun h => hc ((toUpper_eq_iff hsep).mp h)
      obtain ⟨piece, pieces, hcs⟩ := exists_segments_eq_cons sep cs
      rw [hcs, List.map_cons] at ih
      rw [List.map_cons, segments_cons_of_ne hupper ih, segments_cons_of_ne hc hcs, List.map_cons,
        List.map_cons]

end Text

namespace Settings

open Text

/-- A character stays unless it is the first of two underscores. -/
theorem dotted_cons {c : Char} {rest : List Char}
    (h : ∀ more, c = '_' → rest = '_' :: more → False) : dotted (c :: rest) = c :: dotted rest := by
  rw [dotted]
  exact h

theorem dotted_map_toUpper (cs : List Char) :
    dotted (cs.map Char.toUpper) = (dotted cs).map Char.toUpper := by
  fun_induction dotted cs with
  | case1 rest ih =>
    rw [List.map_cons, List.map_cons, List.map_cons, ← ih]
    rfl
  | case2 c rest hpair ih =>
    rw [List.map_cons, List.map_cons, ← ih]
    refine dotted_cons fun more hc hmore => ?_
    obtain ⟨next, others, rfl, hnext, -⟩ := List.map_eq_cons_iff.mp hmore
    rw [toUpper_eq_iff (by decide)] at hc hnext
    exact hpair others hc (by rw [hnext])
  | case3 => rfl

theorem afterMark?_map_toUpper (mark cs : List Char) :
    afterMark? mark (cs.map Char.toUpper) =
      (afterMark? mark cs).map (List.map Char.toUpper) := by
  induction mark generalizing cs with
  | nil => rfl
  | cons m mark ih =>
    cases cs with
    | nil => rfl
    | cons c cs =>
      rw [List.map_cons, afterMark?, afterMark?, Char.toUpper_toUpper_eq_toUpper, ih]
      split <;> rfl

/-- The name in capital letters. -/
def inCapitals (name : String) : String := String.ofList (name.toList.map Char.toUpper)

/-- **Reading a name in capitals gives the same keys.** -/
theorem keysOf?_inCapitals (name : String) : keysOf? (inCapitals name) = keysOf? name := by
  have hlower : ∀ key : List Char,
      String.ofList ((key.map Char.toUpper).map Char.toLower) =
        String.ofList (key.map Char.toLower) := by
    intro key
    rw [List.map_map]
    congr 1
    exact List.map_congr_left fun c _ => Char.toLower_toUpper_eq_toLower c
  have hempty : ∀ keys : List (List Char),
      (keys.map (List.map Char.toUpper)).any List.isEmpty = keys.any List.isEmpty := by
    intro keys
    rw [List.any_map]
    congr 1
    funext key
    cases key <;> rfl
  unfold keysOf?
  rw [inCapitals, String.toList_ofList, trimmed_map_toUpper, afterMark?_map_toUpper]
  cases afterMark? variableMark (trimmed name.toList) with
  | none => rfl
  | some rest =>
    rw [Option.map_some]
    dsimp only
    rw [dotted_map_toUpper, trimmed_map_toUpper, segments_map_toUpper (by decide), hempty,
      List.map_map]
    congr 2
    exact List.map_congr_left fun key _ => hlower key

/-- The variable of a key of a section. -/
def variableOf (name key : String) : String :=
  "AUTOWIRE_" ++ inCapitals name ++ "__" ++ inCapitals key

/-- The sections of the settings. -/
def sectionNames : List String := ["naming", "runtime"]

/-- The keys of a section. -/
def keysOfSection (name : String) : List String :=
  if name = "naming" then ({} : Naming).members.map Prod.fst
  else if name = "runtime" then ({} : Symbols).members.map Prod.fst
  else []

theorem keysOf?_variableOf : ∀ name ∈ sectionNames, ∀ key ∈ keysOfSection name,
    keysOf? (variableOf name key) = some [name, key] := by
  decide +kernel

/-- **A variable named after a key sets that key**, in whatever case it is written. -/
theorem keysOf?_of_variableOf {name key written : String} (hname : name ∈ sectionNames)
    (hkey : key ∈ keysOfSection name) (h : inCapitals written = variableOf name key) :
    keysOf? written = some [name, key] := by
  rw [← keysOf?_inCapitals, h]
  exact keysOf?_variableOf name hname key hkey

end Settings

end Wiring
