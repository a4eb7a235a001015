import Wiring.Text.Segments

/-!
# Qualified names

A qualified name is text with dots.  Its last dot separates the package from the simple
name; a name without a dot lies in the default package, whose name is empty.  A nested class
is written with a dot too, so for it the part before the last dot is the enclosing class.

## Main definitions

* `simpleName` — the part after the last dot.
* `packageOf` — the part before the last dot.
* `isDotted` — the name has a dot.

## Main results

* `eq_packageOf_append_simpleName` — the two parts of a dotted name rebuild it.
* `isDotted_iff` — what it means to have a dot.
-/

namespace Wiring

/-- The part after the last dot; the whole name if there is none. -/
def simpleName (name : String) : String :=
  match Text.splitLast? '.' name.toList with
  | some (_, after) => String.ofList after
  | none => name

/-- The part before the last dot; empty if there is none. -/
def packageOf (name : String) : String :=
  match Text.splitLast? '.' name.toList with
  | some (before, _) => String.ofList before
  | none => ""

/-- The name has a dot. -/
def isDotted (name : String) : Bool := name.toList.contains '.'

theorem isDotted_iff {name : String} : isDotted name = true ↔ '.' ∈ name.toList := by
  simp [isDotted]

/-- The two parts of a dotted name rebuild it. -/
theorem eq_packageOf_append_simpleName {name : String} (h : isDotted name = true) :
    name = packageOf name ++ "." ++ simpleName name := by
  unfold packageOf simpleName
  cases hs : Text.splitLast? '.' name.toList with
  | none => exact absurd (isDotted_iff.mp h) (Text.splitLast?_eq_none_iff.mp hs)
  | some p =>
    obtain ⟨before, after⟩ := p
    apply String.toList_inj.mp
    simpa [String.toList_append] using (Text.eq_of_splitLast? hs).1

/-- A name without a dot is its own simple name, in the default package. -/
theorem simpleName_of_not_isDotted {name : String} (h : isDotted name = false) :
    simpleName name = name ∧ packageOf name = "" := by
  have hn : '.' ∉ name.toList := by
    intro hm; rw [isDotted_iff.mpr hm] at h; cases h
  simp [simpleName, packageOf, Text.splitLast?_eq_none_iff.mpr hn]

end Wiring
