import Mathlib.Data.List.TakeDrop
import Mathlib.Logic.Function.Basic
import Wiring.Kotlin.Identifier

/-!
# Reading identifiers back

A reader of a generated line takes what stands between two backticks, or else the longest run of
letters, digits and underscores.  A plain name is such a run, and it ends where the line goes on
with another character; any other name is put between backticks, and ends at the first of them as
long as it has none of its own.  So the name comes back, whatever characters it is made of, and
since every keyword is a plain word, no keyword is ever written without backticks.

## Main results

* `readIdentifier?_of_plain`, `readIdentifier?_quoted` — reading back the two forms of a name.
* `identifier_ne_keyword` — no name is written as a keyword.
* `identifier_injective` — different names are written differently.
* `readIdentifier?_identifier` — **a written name is read back.**
-/

namespace Wiring.Kotlin

/-! ### Characters of names -/

theorem continuesName_of_startsName {c : Char} (h : startsName c = true) :
    continuesName c = true := by
  unfold startsName at h
  unfold continuesName
  rw [Bool.or_eq_true] at h ⊢
  exact h.imp_left Text.isLetterOrDigit_of_isLetter

/-- A plain name consists of the characters that may stand inside one, and has at least one. -/
theorem characters_of_isPlainName {cs : List Char} (h : isPlainName cs = true) :
    cs ≠ [] ∧ ∀ c ∈ cs, continuesName c = true := by
  cases cs with
  | nil => cases h
  | cons c rest =>
    rw [isPlainName, Bool.and_eq_true, List.all_eq_true] at h
    exact ⟨List.cons_ne_nil c rest,
      List.forall_mem_cons.mpr ⟨continuesName_of_startsName h.1, h.2⟩⟩

theorem isPlainName_of_isPlain {name : String} (h : isPlain name = true) :
    isPlainName name.toList = true := by
  rw [isPlain, Bool.and_eq_true] at h
  exact h.1

/-- A plain name has no backtick. -/
theorem backtick_not_mem_of_isPlain {name : String} (h : isPlain name = true) :
    '\x60' ∉ name.toList := by
  intro hmem
  have hinside := (characters_of_isPlainName (isPlainName_of_isPlain h)).2 _ hmem
  exact absurd hinside (by decide)

/-! ### The two forms of a name -/

theorem identifier_of_isPlain {name : String} (h : isPlain name = true) :
    identifier name = name :=
  if_pos h

theorem toList_identifier_of_not_isPlain {name : String} (h : isPlain name = false) :
    (identifier name).toList = '\x60' :: name.toList ++ ['\x60'] := by
  rw [identifier, if_neg (by rw [h]; exact Bool.false_ne_true), String.toList_append,
    String.toList_append]
  rfl

/-- A run of characters ends where the first character of another kind stands. -/
theorem span_append {p : Char → Bool} {cs rest : List Char} (hinside : ∀ c ∈ cs, p c = true)
    (hrest : ∀ c ∈ rest.head?, p c = false) : (cs ++ rest).span p = (cs, rest) := by
  rw [List.span_eq_takeWhile_dropWhile, List.takeWhile_append_of_pos hinside,
    List.dropWhile_append_of_pos hinside]
  cases rest with
  | nil => simp
  | cons c after => simp [hrest c rfl]

/-- A plain name is read up to the first character that does not belong to it. -/
theorem readIdentifier?_of_plain {cs rest : List Char} (h : isPlainName cs = true)
    (hrest : ∀ c ∈ rest.head?, continuesName c = false) :
    readIdentifier? (cs ++ rest) = some (cs, rest) := by
  obtain ⟨hne, hinside⟩ := characters_of_isPlainName h
  have hspan := span_append hinside hrest
  cases cs with
  | nil => exact absurd rfl hne
  | cons c inside =>
    have hc : c ≠ '\x60' := by
      rintro rfl
      exact absurd (hinside _ List.mem_cons_self) (by decide)
    rw [List.cons_append] at hspan ⊢
    rw [readIdentifier?, hspan]
    intro after heq
    exact hc (List.cons_eq_cons.mp heq).1

/-- What stands between backticks is read, as long as it has none of its own. -/
theorem readIdentifier?_quoted {cs : List Char} (h : '\x60' ∉ cs) (rest : List Char) :
    readIdentifier? ('\x60' :: (cs ++ '\x60' :: rest)) = some (cs, rest) := by
  have hinside : ∀ c ∈ cs, decide (c ≠ '\x60') = true := by
    intro c hc
    rw [decide_eq_true_eq]
    rintro rfl
    exact h hc
  have hspan : (cs ++ '\x60' :: rest).span (fun c => decide (c ≠ '\x60')) =
      (cs, '\x60' :: rest) :=
    span_append hinside fun c hc => by
      obtain rfl := Option.some.inj hc
      decide
  rw [readIdentifier?, hspan]
  rfl

/-! ### Keywords, and different names -/

/-- No name is written as a keyword: a plain name is none, and no keyword starts with a
backtick. -/
theorem identifier_ne_keyword (name : String) : identifier name ∉ hardKeywords := by
  have hfirst : ∀ word ∈ hardKeywords, word.toList.head? ≠ some '\x60' := by decide
  cases hplain : isPlain name with
  | true =>
    rw [identifier_of_isPlain hplain]
    rw [isPlain, Bool.and_eq_true] at hplain
    simpa using hplain.2
  | false =>
    intro hword
    refine hfirst _ hword ?_
    rw [toList_identifier_of_not_isPlain hplain]
    rfl

/-- Names that are written alike are the same, even if they have backticks. -/
theorem identifier_injective : Function.Injective identifier := by
  -- a plain name is never written like one in backticks
  have hforms : ∀ {plain quoted : String}, isPlain plain = true → isPlain quoted = false →
      identifier plain ≠ identifier quoted := by
    intro plain quoted hplain hquoted heq
    refine backtick_not_mem_of_isPlain hplain ?_
    rw [← identifier_of_isPlain hplain, heq, toList_identifier_of_not_isPlain hquoted]
    exact List.mem_cons_self
  intro first second heq
  cases hfirst : isPlain first with
  | true =>
    cases hsecond : isPlain second with
    | true => rwa [identifier_of_isPlain hfirst, identifier_of_isPlain hsecond] at heq
    | false => exact absurd heq (hforms hfirst hsecond)
  | false =>
    cases hsecond : isPlain second with
    | true => exact absurd heq.symm (hforms hsecond hfirst)
    | false =>
      have htexts := congrArg String.toList heq
      rw [toList_identifier_of_not_isPlain hfirst, toList_identifier_of_not_isPlain hsecond,
        List.append_cancel_right_eq, List.cons_inj_right] at htexts
      exact String.toList_inj.mp htexts

/-! ### Reading a written name -/

/-- **A written name is read back.**  If a name has no backtick and the text after it does not go on
with a letter, a digit or an underscore, then the identifier that a reader finds is the name, and
what is left is that text.  The written name is no keyword, and no other name is written like it. -/
theorem readIdentifier?_identifier {name : String} {rest : List Char} (h : '\x60' ∉ name.toList)
    (hrest : ∀ c ∈ rest.head?, continuesName c = false) :
    readIdentifier? ((identifier name).toList ++ rest) = some (name.toList, rest) ∧
      identifier name ∉ hardKeywords ∧
      ∀ other, identifier other = identifier name → other = name := by
  refine ⟨?_, identifier_ne_keyword name, fun other heq => identifier_injective heq⟩
  cases hplain : isPlain name with
  | true =>
    rw [identifier_of_isPlain hplain]
    exact readIdentifier?_of_plain (isPlainName_of_isPlain hplain) hrest
  | false =>
    rw [toList_identifier_of_not_isPlain hplain, List.append_assoc]
    exact readIdentifier?_quoted h rest

/-- A keyword before the type of a variable. -/
theorem readIdentifier?_identifier_keyword :
    '\x60' ∉ "when".toList ∧ (∀ c ∈ (": Int".toList).head?, continuesName c = false) ∧
      readIdentifier? ((identifier "when").toList ++ ": Int".toList) =
        some ("when".toList, ": Int".toList) ∧
      identifier "when" ∉ hardKeywords ∧
      ∀ other, identifier other = identifier "when" → other = "when" := by
  have hname : '\x60' ∉ "when".toList := by decide
  have hrest : ∀ c ∈ (": Int".toList).head?, continuesName c = false := by
    intro c hc
    have hcolon : c = ':' := (Option.some.inj hc).symm
    rw [hcolon]
    decide
  exact ⟨hname, hrest, readIdentifier?_identifier hname hrest⟩

end Wiring.Kotlin
