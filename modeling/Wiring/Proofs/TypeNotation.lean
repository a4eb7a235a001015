import Wiring.Proofs.Spelling
import Wiring.Proofs.Supertypes

/-!
# Reading types back

A type is written as a name, its arguments between angle brackets if it has any, and a question mark
if it admits null.  None of these marks stands in a name, so a written type ends where its text
says: what follows it is nothing, a comma or a closing bracket.  Hence two types that are written
the same way have the same shape, with names that are spelled the same way at the same places.
Dotted names that are spelled the same way in one unit are the same name.  So the text of a type
gives back the type, but for its supertypes.

## Main definitions

* `IsMark` — the characters of the notation.
* `Readable` — a name has a dot and none of these characters.
* `EndsType` — what may follow a written type.

## Main results

* `spellName_injective` — dotted names that are spelled the same way are the same.
* `bare_eq_of_append_eq` — a written type is read back from whatever text begins with it.
* `spelledType_eq_iff` — **a written type determines the type**, but for its supertypes.
-/

namespace Wiring.Kotlin

/-! ### Characters of the notation -/

/-- The characters that a written type has besides those of its names and blanks. -/
def IsMark (c : Char) : Prop := c = '<' ∨ c = '>' ∨ c = ',' ∨ c = '?'

instance (c : Char) : Decidable (IsMark c) := inferInstanceAs (Decidable (_ ∨ _))

/-- The name has a dot, and none of the characters that mark types. -/
def Readable (name : String) : Prop :=
  isDotted name = true ∧ ∀ c ∈ name.toList, ¬ IsMark c

-- the characters of the name are looked through, not all characters there are
instance (name : String) : Decidable (Readable name) :=
  have : Decidable (∀ c ∈ name.toList, ¬ IsMark c) := List.decidableBAll _ _
  inferInstanceAs (Decidable (_ ∧ _))

/-- The text is empty, or it starts with a character that marks types. -/
def StartsWithMark (text : List Char) : Prop := ∀ c ∈ text.head?, IsMark c

/-- The text may follow a written type: it is empty, or goes on with a comma or a closing
bracket. -/
def EndsType (text : List Char) : Prop := ∀ c ∈ text.head?, c = '>' ∨ c = ','

theorem EndsType.startsWithMark {text : List Char} (h : EndsType text) : StartsWithMark text := by
  intro c hc
  rcases h c hc with rfl | rfl
  · exact .inr (.inl rfl)
  · exact .inr (.inr (.inl rfl))

theorem endsType_nil : EndsType [] := by
  intro c hc
  cases hc

theorem endsType_bracket (text : List Char) : EndsType ('>' :: text) := by
  intro c hc
  exact .inl (Option.some.inj hc).symm

theorem endsType_comma (text : List Char) : EndsType (',' :: text) := by
  intro c hc
  exact .inr (Option.some.inj hc).symm

/-- Text without marks ends where the first mark is. -/
theorem eq_of_append_eq {first second after after' : List Char}
    (hfirst : ∀ c ∈ first, ¬ IsMark c) (hsecond : ∀ c ∈ second, ¬ IsMark c)
    (hafter : StartsWithMark after) (hafter' : StartsWithMark after')
    (h : first ++ after = second ++ after') : first = second ∧ after = after' := by
  induction first generalizing second with
  | nil =>
    cases second with
    | nil => exact ⟨rfl, h⟩
    | cons d rest =>
      rw [List.nil_append] at h
      exact absurd (hafter d (by rw [h]; rfl)) (hsecond d List.mem_cons_self)
  | cons c rest ih =>
    cases second with
    | nil =>
      rw [List.nil_append] at h
      exact absurd (hafter' c (by rw [← h]; rfl)) (hfirst c List.mem_cons_self)
    | cons d rest' =>
      rw [List.cons_append, List.cons_append] at h
      obtain ⟨rfl, hrest⟩ := List.cons.inj h
      obtain ⟨rfl, rfl⟩ := ih (fun c hc => hfirst c (List.mem_cons_of_mem _ hc))
        (fun c hc => hsecond c (List.mem_cons_of_mem _ hc)) hrest
      exact ⟨rfl, rfl⟩

/-! ### Names -/

variable {short : NameSet}

/-- **Dotted names that are spelled the same way are the same.**  A short spelling has no dot, so it
is never that of a name in full. -/
theorem spellName_injective (hshort : Distinct short) {first second : String}
    (hfirst : isDotted first = true) (hsecond : isDotted second = true)
    (h : spellName short first = spellName short second) : first = second := by
  have hdenoted : ∀ name, isDotted name = true → denoted short (spellName short name) = name := by
    intro name hname
    refine (denoted_spellName_iff hshort).mpr fun hplain => ?_
    rw [hname] at hplain
    cases hplain
  rw [← hdenoted first hfirst, ← hdenoted second hsecond, h]

/-- A readable name is spelled without marks. -/
theorem Readable.spellName {name : String} (h : Readable name) :
    ∀ c ∈ (spellName short name).toList, ¬ IsMark c := by
  intro c hc
  refine h.2 c ?_
  by_cases hmem : name ∈ short
  · rw [spellName_of_mem hmem] at hc
    have hparts := eq_packageOf_append_simpleName h.1
    rw [hparts, String.toList_append]
    exact List.mem_append_right _ hc
  · rwa [spellName_of_not_mem hmem] at hc

/-! ### Types -/

/-- The question mark of a type that admits null. -/
def nullMark (nullable : Bool) : List Char := if nullable then ['?'] else []

/-- The arguments of a written type, with the brackets around them. -/
def bracketed (short : NameSet) (arguments : List DeclaredType) : List Char :=
  if arguments.isEmpty then []
  else '<' :: (commaSeparated (spellTypes short arguments)).toList ++ ['>']

theorem bracketed_of_ne_nil {arguments : List DeclaredType} (h : arguments ≠ []) :
    bracketed short arguments =
      '<' :: ((commaSeparated (spellTypes short arguments)).toList ++ ['>']) := by
  cases arguments with
  | nil => exact absurd rfl h
  | cons argument rest => rfl

/-- A written type is a name, arguments and a question mark. -/
theorem toList_spellType (short : NameSet) (name : String) (nullable : Bool)
    (arguments : List DeclaredType) (supertypes : List String) :
    (spellType short ⟨name, nullable, arguments, supertypes⟩).toList =
      (spellName short name).toList ++ (bracketed short arguments ++ nullMark nullable) := by
  rw [spellType, String.toList_append, String.toList_append, List.append_assoc, bracketed, nullMark]
  cases arguments with
  | nil => cases nullable <;> rfl
  | cons argument rest => cases nullable <;> simp [String.toList_append]

/-- Written arguments stand one behind the other, with a comma and a blank between them. -/
theorem toList_commaSeparated_cons_cons (first second : DeclaredType) (rest : List DeclaredType) :
    (commaSeparated (spellTypes short (first :: second :: rest))).toList =
      (spellType short first).toList ++
        ',' :: ' ' :: (commaSeparated (spellTypes short (second :: rest))).toList := by
  rw [spellTypes, spellTypes, commaSeparated]
  · simp [String.toList_append]
  · simp

/-- Behind the name of a type there is a mark, or the type ends. -/
theorem startsWithMark_bracketed (arguments : List DeclaredType) (nullable : Bool)
    {text : List Char} (h : EndsType text) :
    StartsWithMark (bracketed short arguments ++ (nullMark nullable ++ text)) := by
  intro c hc
  cases arguments with
  | nil =>
    cases nullable with
    | false => exact h.startsWithMark c hc
    | true => exact .inr (.inr (.inr (Option.some.inj hc).symm))
  | cons argument rest => exact .inl (Option.some.inj hc).symm

/-- What follows a type does not begin with a question mark. -/
theorem not_endsType_question (text : List Char) : ¬ EndsType ('?' :: text) := by
  intro h
  rcases h '?' rfl with heq | heq <;> cases heq

/-- The question mark of a type is told apart from what follows the type. -/
theorem nullMark_append_eq {nullable nullable' : Bool} {text text' : List Char}
    (htext : EndsType text) (htext' : EndsType text')
    (h : nullMark nullable ++ text = nullMark nullable' ++ text') :
    nullable = nullable' ∧ text = text' := by
  cases nullable with
  | false =>
    cases nullable' with
    | false => exact ⟨rfl, h⟩
    | true =>
      have hquestion : text = '?' :: text' := h
      rw [hquestion] at htext
      exact absurd htext (not_endsType_question _)
  | true =>
    cases nullable' with
    | false =>
      have hquestion : '?' :: text = text' := h
      rw [← hquestion] at htext'
      exact absurd htext' (not_endsType_question _)
    | true => exact ⟨rfl, List.tail_eq_of_cons_eq h⟩

/-- A type without arguments is not followed by an opening bracket. -/
theorem nullMark_append_ne (nullable : Bool) {text rest : List Char} (htext : EndsType text) :
    nullMark nullable ++ text ≠ '<' :: rest := by
  intro h
  cases nullable with
  | false =>
    have hbracket : text = '<' :: rest := h
    rw [hbracket] at htext
    rcases htext '<' rfl with heq | heq <;> cases heq
  | true =>
    have hquestion := (List.cons.inj h).1
    cases hquestion

mutual

/-- **A written type is read back**: two types at the front of the same text, with what may follow
a type behind them, are the same but for their supertypes, and the same text follows them. -/
theorem bare_eq_of_append_eq (hshort : Distinct short) :
    ∀ (first second : DeclaredType), (∀ name ∈ first.names, Readable name) →
      (∀ name ∈ second.names, Readable name) → ∀ text text' : List Char, EndsType text →
      EndsType text' →
      (spellType short first).toList ++ text = (spellType short second).toList ++ text' →
      first.bare = second.bare ∧ text = text'
  | ⟨name, nullable, arguments, supertypes⟩, ⟨name', nullable', arguments', supertypes'⟩,
      hfirst, hsecond, text, text', htext, htext', h => by
    rw [DeclaredType.names, List.forall_mem_cons] at hfirst hsecond
    rw [toList_spellType, toList_spellType, List.append_assoc, List.append_assoc, List.append_assoc,
      List.append_assoc] at h
    -- the names end at the first mark
    obtain ⟨hspelled, hrest⟩ := eq_of_append_eq hfirst.1.spellName hsecond.1.spellName
      (startsWithMark_bracketed arguments nullable htext)
      (startsWithMark_bracketed arguments' nullable' htext') h
    have hname : name = name' :=
      spellName_injective hshort hfirst.1.1 hsecond.1.1 (String.toList_inj.mp hspelled)
    have hrow : DeclaredType.bareAll arguments = DeclaredType.bareAll arguments' ∧
        nullMark nullable ++ text = nullMark nullable' ++ text' := by
      by_cases hempty : arguments = []
      · by_cases hempty' : arguments' = []
        · rw [hempty, hempty'] at hrest ⊢
          exact ⟨rfl, hrest⟩
        · rw [hempty, bracketed_of_ne_nil hempty'] at hrest
          exact absurd hrest (nullMark_append_ne nullable htext)
      · by_cases hempty' : arguments' = []
        · rw [hempty', bracketed_of_ne_nil hempty] at hrest
          exact absurd hrest.symm (nullMark_append_ne nullable' htext')
        · rw [bracketed_of_ne_nil hempty, bracketed_of_ne_nil hempty', List.cons_append,
            List.cons_append, List.append_assoc, List.append_assoc] at hrest
          exact bareAll_eq_of_append_eq hshort arguments arguments' hempty hempty' hfirst.2
            hsecond.2 _ _ (List.tail_eq_of_cons_eq hrest)
    obtain ⟨harguments, hnull⟩ := hrow
    obtain ⟨hnullable, htexts⟩ := nullMark_append_eq htext htext' hnull
    refine ⟨?_, htexts⟩
    rw [DeclaredType.bare, DeclaredType.bare, hname, hnullable, harguments]

/-- The same for the arguments of a type, which the closing bracket ends. -/
theorem bareAll_eq_of_append_eq (hshort : Distinct short) :
    ∀ (first second : List DeclaredType), first ≠ [] → second ≠ [] →
      (∀ name ∈ DeclaredType.namesAll first, Readable name) →
      (∀ name ∈ DeclaredType.namesAll second, Readable name) → ∀ text text' : List Char,
      (commaSeparated (spellTypes short first)).toList ++ '>' :: text =
        (commaSeparated (spellTypes short second)).toList ++ '>' :: text' →
      DeclaredType.bareAll first = DeclaredType.bareAll second ∧ text = text'
  | [], _, hne, _, _, _, _, _, _ => absurd rfl hne
  | _, [], _, hne, _, _, _, _, _ => absurd rfl hne
  | [type], [type'], _, _, hfirst, hsecond, text, text', h => by
    rw [DeclaredType.namesAll, List.forall_mem_append] at hfirst hsecond
    obtain ⟨hbare, htexts⟩ := bare_eq_of_append_eq hshort type type' hfirst.1 hsecond.1 _ _
      (endsType_bracket text) (endsType_bracket text') h
    exact ⟨congrArg (fun bare => [bare]) hbare, List.tail_eq_of_cons_eq htexts⟩
  | [type], type' :: next' :: rest', _, _, hfirst, hsecond, text, text', h => by
    rw [DeclaredType.namesAll, List.forall_mem_append] at hfirst hsecond
    rw [toList_commaSeparated_cons_cons, List.append_assoc] at h
    obtain ⟨-, htexts⟩ := bare_eq_of_append_eq hshort type type' hfirst.1 hsecond.1 _ _
      (endsType_bracket text) (endsType_comma _) h
    cases (List.cons.inj htexts).1
  | type :: next :: rest, [type'], _, _, hfirst, hsecond, text, text', h => by
    rw [DeclaredType.namesAll, List.forall_mem_append] at hfirst hsecond
    rw [toList_commaSeparated_cons_cons, List.append_assoc] at h
    obtain ⟨-, htexts⟩ := bare_eq_of_append_eq hshort type type' hfirst.1 hsecond.1 _ _
      (endsType_comma _) (endsType_bracket text') h
    cases (List.cons.inj htexts).1
  | type :: next :: rest, type' :: next' :: rest', _, _, hfirst, hsecond, text, text', h => by
    rw [DeclaredType.namesAll, List.forall_mem_append] at hfirst hsecond
    rw [toList_commaSeparated_cons_cons, toList_commaSeparated_cons_cons, List.append_assoc,
      List.append_assoc] at h
    obtain ⟨hbare, htexts⟩ := bare_eq_of_append_eq hshort type type' hfirst.1 hsecond.1 _ _
      (endsType_comma _) (endsType_comma _) h
    -- behind the comma and the blank the other arguments follow
    have hrest := List.tail_eq_of_cons_eq (List.tail_eq_of_cons_eq htexts)
    obtain ⟨hbares, hends⟩ := bareAll_eq_of_append_eq hshort (next :: rest) (next' :: rest')
      (List.cons_ne_nil _ _) (List.cons_ne_nil _ _) hfirst.2 hsecond.2 text text' hrest
    exact ⟨congrArg₂ List.cons hbare hbares, hends⟩

end

/-- **A written type determines the type.**  In a unit, two types whose names all have a dot and no
character of the notation are written the same way exactly if they are the same but for their
supertypes: names, nullability and arguments agree at every depth. -/
theorem spelledType_eq_iff (settings : Settings) (owner : Owner) (fields : List FieldPlan)
    (first second : DeclaredType) (hfirst : ∀ name ∈ first.names, Readable name)
    (hsecond : ∀ name ∈ second.names, Readable name) :
    spellType (Injector.make settings owner fields).simpleNames first =
        spellType (Injector.make settings owner fields).simpleNames second ↔
      first.bare = second.bare := by
  constructor
  · intro h
    have htext := congrArg (fun text => text.toList ++ []) h
    exact (bare_eq_of_append_eq (distinct_make settings owner fields) first second hfirst hsecond
      [] [] endsType_nil endsType_nil htext).1
  · intro h
    rw [← spell_typePieces, ← spell_typePieces, ← typePieces_bare first, h, typePieces_bare]

/-- A pair of a user, who may be missing, and a screen. -/
def userAndScreen (nullable : Bool) (supertypes : List String) : DeclaredType :=
  ⟨"y.Pair", false, [⟨"y.User", nullable, [], supertypes⟩, .ofName "x.Main"], []⟩

/-- Supertypes of an argument are not seen in the written type, a question mark on it is. -/
theorem spelledType_eq_userAndScreen :
    (∀ name ∈ (userAndScreen true []).names, Readable name) ∧
    spellType (Injector.make {} ⟨"x.Main", none, .screen, none⟩ [usersPlan]).simpleNames
        (userAndScreen true ["java.io.Serializable"]) =
      spellType (Injector.make {} ⟨"x.Main", none, .screen, none⟩ [usersPlan]).simpleNames
        (userAndScreen true []) ∧
    spellType (Injector.make {} ⟨"x.Main", none, .screen, none⟩ [usersPlan]).simpleNames
        (userAndScreen true []) ≠
      spellType (Injector.make {} ⟨"x.Main", none, .screen, none⟩ [usersPlan]).simpleNames
        (userAndScreen false []) := by
  have hreadable : ∀ nullable supertypes, ∀ name ∈ (userAndScreen nullable supertypes).names,
      Readable name := by
    intro nullable supertypes
    change ∀ name ∈ ["y.Pair", "y.User", "x.Main"], Readable name
    decide
  refine ⟨hreadable true [], ?_, fun h => ?_⟩
  · exact (spelledType_eq_iff {} _ _ _ _ (hreadable true _) (hreadable true [])).mpr rfl
  · have hbare := (spelledType_eq_iff {} _ _ _ _ (hreadable true []) (hreadable false [])).mp h
    simp [userAndScreen, DeclaredType.bare, DeclaredType.bareAll] at hbare

end Wiring.Kotlin
