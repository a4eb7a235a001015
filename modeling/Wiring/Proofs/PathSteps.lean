import Mathlib.Data.List.DropRight
import Wiring.Path

/-!
# The steps of composed paths

Putting a piece below a path puts its steps behind the steps of the path, whatever the path looks
like.  A path that ends in a name takes the step to that name last, and the path above it takes
the steps before that, up to steps that lead nowhere.

## Main definitions

* `Path.EndsIn` — the last piece of a path is the name of an entry.

## Main results

* `Path.hops_push`, `Path.hops_foldl_push` — the steps of composed paths.
* `Path.endsIn_push`, `Path.exists_endsIn_of_append` — composed paths that end in a name.
* `Path.exists_parent?` — the path above a path that ends in a name.
* `Path.EndsIn.fileName?`, `Path.exists_hops_of_fileName?` — the name at the end of a path.
-/

namespace Wiring.Path

/-! ### Putting pieces together -/

theorem startsAtRoot_append {before after : String} (h : before ≠ "") :
    startsAtRoot (before ++ after) = startsAtRoot before := by
  unfold startsAtRoot
  rw [String.toList_append]
  cases hcs : before.toList with
  | nil => exact absurd (String.toList_eq_nil_iff.mp hcs) h
  | cons c cs => rfl

/-- A piece that does not start at the root goes behind the path. -/
theorem push_text {path : Path} {piece : String} (h : startsAtRoot piece = false) :
    (path.push piece).text =
      if path.text = "" || endsInSlash path.text then path.text ++ piece
      else path.text ++ "/" ++ piece := by
  rw [push, if_neg (by simp [h])]
  split <;> rfl

/-- A path below another starts where that one starts. -/
theorem isAbsolute_push (path : Path) {piece : String} (h : startsAtRoot piece = false) :
    (path.push piece).isAbsolute = path.isAbsolute := by
  unfold isAbsolute
  rw [push_text h]
  by_cases hempty : path.text = ""
  · rw [if_pos (by simp [hempty]), hempty, String.empty_append, h]
    rfl
  · split
    · exact startsAtRoot_append hempty
    · rw [String.append_assoc]
      exact startsAtRoot_append hempty

/-- A text that ends with a slash has one before which the rest stands. -/
theorem exists_of_endsInSlash {text : String} (h : endsInSlash text = true) :
    ∃ before, text.toList = before ++ ['/'] := by
  have hlast : text.toList.getLast? = some '/' := by simpa [endsInSlash] using h
  exact List.getLast?_eq_some_iff.mp hlast

/-- **The steps of a path below another** come after the steps of that one. -/
theorem hops_push (path : Path) {piece : String} (h : startsAtRoot piece = false) :
    (path.push piece).hops = path.hops ++ hops ⟨piece⟩ := by
  unfold hops
  rw [push_text h]
  by_cases hempty : path.text = ""
  · rw [if_pos (by simp [hempty]), hempty, String.empty_append]
    rfl
  · cases hslash : endsInSlash path.text with
    | true =>
      obtain ⟨before, hbefore⟩ := exists_of_endsInSlash hslash
      rw [if_pos (by simp), String.toList_append, hbefore, List.append_assoc,
        List.singleton_append, Text.segments_append, Text.segments_append, Text.segments_nil,
        List.filterMap_append, List.filterMap_append]
      simp [hop?]
    | false =>
      have htext : (path.text ++ "/" ++ piece).toList =
          path.text.toList ++ '/' :: piece.toList := by
        simp [String.toList_append]
      rw [if_neg (by simp [hempty]), htext, Text.segments_append, List.filterMap_append]

/-- The steps of pieces that were put together, none of which starts at the root. -/
theorem hops_foldl_push {pieces : List String} (h : ∀ piece ∈ pieces, startsAtRoot piece = false)
    (path : Path) :
    (pieces.foldl push path).hops = path.hops ++ pieces.flatMap fun piece => hops ⟨piece⟩ := by
  induction pieces generalizing path with
  | nil => simp
  | cons piece rest ih =>
    rw [List.foldl_cons, ih fun other hother => h other (List.mem_cons_of_mem _ hother),
      hops_push path (h piece List.mem_cons_self), List.flatMap_cons, List.append_assoc]

theorem isAbsolute_foldl_push {pieces : List String}
    (h : ∀ piece ∈ pieces, startsAtRoot piece = false) (path : Path) :
    (pieces.foldl push path).isAbsolute = path.isAbsolute := by
  induction pieces generalizing path with
  | nil => rfl
  | cons piece rest ih =>
    rw [List.foldl_cons, ih fun other hother => h other (List.mem_cons_of_mem _ hother),
      isAbsolute_push path (h piece List.mem_cons_self)]

/-- The piece stays at the end of the text. -/
theorem exists_push_text (path : Path) (piece : String) :
    ∃ before, (path.push piece).text = before ++ piece := by
  unfold push
  split
  · exact ⟨"", (String.empty_append).symm⟩
  · split
    · exact ⟨path.text, rfl⟩
    · exact ⟨path.text ++ "/", rfl⟩

/-- A character of a composed path comes from the path, from the piece, or is the slash between
them. -/
theorem mem_push_text {path : Path} {piece : String} {c : Char}
    (h : c ∈ (path.push piece).text.toList) :
    c ∈ path.text.toList ∨ c = '/' ∨ c ∈ piece.toList := by
  unfold push at h
  split at h
  · exact .inr (.inr h)
  · split at h
    · rw [String.toList_append, List.mem_append] at h
      rcases h with h | h
      · exact .inl h
      · exact .inr (.inr h)
    · simp only [String.toList_append, List.mem_append] at h
      rcases h with (h | h) | h
      · exact .inl h
      · exact .inr (.inl (List.mem_singleton.mp h))
      · exact .inr (.inr h)

/-! ### Names -/

/-- The text is the name of an entry: it has no slash and does not stand for a step of another
kind. -/
def IsName (name : String) : Prop := '/' ∉ name.toList ∧ hop? name.toList = some (.down name)

/-- Every text but the empty one, a dot and two dots is a step to an entry. -/
theorem hop?_eq_down {piece : List Char} (hempty : piece ≠ []) (hdot : piece ≠ ['.'])
    (hdots : piece ≠ ['.', '.']) : hop? piece = some (.down (String.ofList piece)) := by
  unfold hop?
  split
  · exact absurd rfl hempty
  · exact absurd rfl hdot
  · exact absurd rfl hdots
  · rfl

/-- A text of three or more characters is a step to an entry. -/
theorem hop?_of_length {piece : List Char} (h : 3 ≤ piece.length) :
    hop? piece = some (.down (String.ofList piece)) := by
  refine hop?_eq_down ?_ ?_ ?_ <;> rintro rfl <;> simp at h

theorem isName_of_length {name : String} (hslash : '/' ∉ name.toList)
    (h : 3 ≤ name.toList.length) : IsName name :=
  ⟨hslash, by rw [hop?_of_length h, String.ofList_toList]⟩

theorem IsName.startsAtRoot {name : String} (h : IsName name) : startsAtRoot name = false := by
  unfold Path.startsAtRoot
  cases hcs : name.toList with
  | nil => rfl
  | cons c cs =>
    have hslash := h.1
    rw [hcs, List.mem_cons, not_or] at hslash
    simp [Ne.symm hslash.1]

theorem IsName.hops {name : String} (h : IsName name) : Path.hops ⟨name⟩ = [.down name] := by
  rw [Path.hops, Text.segments_of_not_mem h.1, List.filterMap_cons, h.2]
  rfl

/-- The steps of names that were put together lead from one entry to the next. -/
theorem hops_names {names : List String} (h : ∀ name ∈ names, IsName name) :
    (names.flatMap fun name => hops ⟨name⟩) = names.map .down := by
  induction names with
  | nil => rfl
  | cons name rest ih =>
    rw [List.flatMap_cons, (h name List.mem_cons_self).hops,
      ih fun other hother => h other (List.mem_cons_of_mem _ hother)]
    rfl

/-! ### Paths that end in a name -/

/-- The last piece of the path is the name of an entry. -/
def EndsIn (path : Path) (name : String) : Prop :=
  hop? name.toList = some (.down name) ∧
    ∃ pieces, Text.segments '/' path.text.toList = pieces ++ [name.toList]

namespace EndsIn

variable {path : Path} {name : String}

theorem toList_ne_nil (h : path.EndsIn name) : name.toList ≠ [] := by
  intro hnil
  have hname := h.1
  rw [hnil] at hname
  cases hname

/-- The last step leads to the name. -/
theorem exists_hops (h : path.EndsIn name) : ∃ front, path.hops = front ++ [.down name] := by
  obtain ⟨hname, pieces, hpieces⟩ := h
  refine ⟨pieces.filterMap hop?, ?_⟩
  rw [hops, hpieces, List.filterMap_append, List.filterMap_cons, hname]
  rfl

theorem text_ne_empty (h : path.EndsIn name) : path.text ≠ "" := by
  obtain ⟨pieces, hpieces⟩ := h.2
  intro hempty
  rw [hempty] at hpieces
  obtain ⟨-, hname⟩ := List.append_eq_singleton_iff.mp hpieces.symm |>.resolve_right (by simp)
  exact h.toList_ne_nil (List.singleton_inj.mp hname)

/-- The text does not end with a slash. -/
theorem endsInSlash (h : path.EndsIn name) : Path.endsInSlash path.text = false := by
  cases hslash : Path.endsInSlash path.text with
  | false => rfl
  | true =>
    obtain ⟨before, hbefore⟩ := exists_of_endsInSlash hslash
    obtain ⟨pieces, hpieces⟩ := h.2
    rw [hbefore, Text.segments_append, Text.segments_nil] at hpieces
    have hname := (List.append_inj' hpieces rfl).2
    exact absurd (List.singleton_inj.mp hname).symm h.toList_ne_nil

end EndsIn

/-- A text that ends with three or more characters other than slashes ends in a name. -/
theorem exists_endsIn_of_append {path : Path} {before ending : String}
    (h : path.text = before ++ ending) (hslash : '/' ∉ ending.toList)
    (hlength : 3 ≤ ending.toList.length) : ∃ stem, path.EndsIn (stem ++ ending) := by
  obtain ⟨pieces, stem, -, hsegments⟩ := Text.segments_append_of_not_mem before.toList hslash
  refine ⟨String.ofList stem, ?_, pieces, ?_⟩
  · rw [hop?_of_length, String.ofList_toList]
    rw [String.toList_append, List.length_append]
    omega
  · rw [h, String.toList_append, String.toList_append, String.toList_ofList, hsegments]

/-- A name below a path. -/
theorem endsIn_push (path : Path) {name : String} (h : IsName name) :
    (path.push name).EndsIn name := by
  refine ⟨h.2, ?_⟩
  rw [push_text h.startsAtRoot]
  by_cases hempty : path.text = ""
  · rw [if_pos (by simp [hempty]), hempty, String.empty_append, Text.segments_of_not_mem h.1]
    exact ⟨[], rfl⟩
  · cases hslash : endsInSlash path.text with
    | true =>
      obtain ⟨before, hbefore⟩ := exists_of_endsInSlash hslash
      rw [if_pos (by simp), String.toList_append, hbefore, List.append_assoc,
        List.singleton_append, Text.segments_append, Text.segments_of_not_mem h.1]
      exact ⟨_, rfl⟩
    | false =>
      have htext : (path.text ++ "/" ++ name).toList = path.text.toList ++ '/' :: name.toList := by
        simp [String.toList_append]
      rw [if_neg (by simp [hempty]), htext, Text.segments_append, Text.segments_of_not_mem h.1]
      exact ⟨_, rfl⟩

/-! ### The path above -/

theorem hop?_of_isIdle {piece : List Char} (h : isIdle piece = true) :
    ∀ hop ∈ hop? piece, hop = .here := by
  have hcases : piece = [] ∨ piece = ['.'] := by simpa [isIdle] using h
  rintro hop hmem
  rcases hcases with rfl | rfl
  · cases hmem
  · exact (Option.some.inj hmem).symm

/-- A piece that is a step to an entry leads somewhere. -/
theorem isIdle_eq_false {piece : List Char} {name : String} (h : hop? piece = some (.down name)) :
    isIdle piece = false := by
  cases hidle : isIdle piece with
  | false => rfl
  | true => cases hop?_of_isIdle hidle _ h

/-- Pieces are what is left of them at the end, and pieces that lead nowhere. -/
theorem exists_dropWhile_isIdle (pieces : List (List Char)) :
    ∃ idle, pieces = (pieces.reverse.dropWhile isIdle).reverse ++ idle ∧
      ∀ hop ∈ idle.filterMap hop?, hop = .here := by
  refine ⟨(pieces.reverse.takeWhile isIdle).reverse, ?_, ?_⟩
  · rw [← List.reverse_append, List.takeWhile_append_dropWhile, List.reverse_reverse]
  · intro hop hmem
    obtain ⟨piece, hpiece, hhop⟩ := List.mem_filterMap.mp hmem
    exact hop?_of_isIdle (List.mem_takeWhile_imp (List.mem_reverse.mp hpiece)) hop hhop

/-- A path starts at the root if its first piece is empty and there are more. -/
theorem isAbsolute_of_segments {path : Path} {first : List Char} {rest : List (List Char)}
    (h : Text.segments '/' path.text.toList = first :: rest) :
    path.isAbsolute = true ↔ first = [] ∧ rest ≠ [] := by
  unfold isAbsolute startsAtRoot
  rw [decide_eq_true_eq]
  cases hcs : path.text.toList with
  | nil =>
    rw [hcs, Text.segments_nil] at h
    obtain ⟨rfl, rfl⟩ := List.cons.inj h
    simp
  | cons c cs =>
    rw [hcs] at h
    obtain ⟨piece, pieces, hpieces⟩ := Text.exists_segments_eq_cons '/' cs
    by_cases hc : c = '/'
    · subst hc
      rw [Text.segments_cons_sep] at h
      obtain ⟨rfl, rfl⟩ := List.cons.inj h
      simp [Text.segments_ne_nil]
    · rw [Text.segments_cons_of_ne hc hpieces] at h
      obtain ⟨rfl, rfl⟩ := List.cons.inj h
      simp [hc]

/-- The path of some pieces has these pieces again, or is the root. -/
theorem segments_ofReversed {first : List Char} {above : List (List Char)}
    (hne : first ≠ [] ∨ above ≠ []) (h : ∀ piece ∈ first :: above.reverse, '/' ∉ piece) :
    Text.segments '/' (ofReversed first above).text.toList = first :: above.reverse := by
  have htext : (ofReversed first above).text =
      String.ofList (Text.joined '/' (first :: above.reverse)) := by
    unfold ofReversed
    split
    · simp at hne
    · rfl
  rw [htext, String.toList_ofList, Text.segments_joined (by simp) h]

/-- A path of pieces is not empty, and it starts at the root exactly if the first is empty. -/
theorem ofReversed_spec {first : List Char} {above : List (List Char)}
    (h : ∀ piece ∈ first :: above.reverse, '/' ∉ piece) :
    (ofReversed first above).hops = (first :: above.reverse).filterMap hop? ∧
      (ofReversed first above).text ≠ "" ∧
      ((ofReversed first above).isAbsolute = true ↔ first = []) := by
  by_cases hroot : first = [] ∧ above = []
  · obtain ⟨rfl, rfl⟩ := hroot
    exact ⟨rfl, by decide, by decide⟩
  · have hne : first ≠ [] ∨ above ≠ [] := by
      rcases Classical.em (first = []) with hfirst | hfirst
      · exact .inr fun habove => hroot ⟨hfirst, habove⟩
      · exact .inl hfirst
    have hsegments := segments_ofReversed hne h
    refine ⟨by rw [hops, hsegments], ?_, ?_⟩
    · intro hempty
      rw [hempty] at hsegments
      obtain ⟨rfl, hnil⟩ := List.cons.inj hsegments
      simp [List.reverse_eq_nil_iff.mp hnil.symm] at hne
    · rw [isAbsolute_of_segments hsegments]
      refine and_iff_left_of_imp fun hfirst => ?_
      simpa using hne.resolve_left (not_not_intro hfirst)

/-- No piece has a slash, and the last one, the first in the list, leads somewhere. -/
def Trimmed (first : List Char) (above : List (List Char)) : Prop :=
  (∀ piece ∈ first :: above.reverse, '/' ∉ piece) ∧ above.dropWhile isIdle = above

/-- **The path above a path that ends in a name** is the empty path, or it starts where the path
starts and takes its steps up to the name, but for steps at the end that lead nowhere. -/
theorem exists_parent? {path : Path} {name : String} (h : path.EndsIn name) :
    ∃ parent, path.parent? = some parent ∧
      (parent = ⟨""⟩ ∧ path.hops = [.down name] ∨
        ∃ first above, parent = ofReversed first above ∧ Trimmed first above ∧
          parent.isAbsolute = path.isAbsolute ∧
          ∃ idle, path.hops = parent.hops ++ idle ++ [.down name] ∧ ∀ hop ∈ idle, hop = .here) := by
  have hidle := isIdle_eq_false h.1
  have hne := h.toList_ne_nil
  obtain ⟨hname, pieces, hpieces⟩ := h
  cases pieces with
  | nil =>
    -- the path is a single name
    refine ⟨⟨""⟩, ?_, .inl ⟨rfl, ?_⟩⟩
    · rw [parent?, hpieces]
      simp [hne]
    · rw [hops, hpieces, List.nil_append, List.filterMap_cons, hname]
      rfl
  | cons first middle =>
    obtain ⟨idle, hmiddle, hhere⟩ := exists_dropWhile_isIdle middle
    have hparent : path.parent? = some (ofReversed first (middle.reverse.dropWhile isIdle)) := by
      rw [parent?, hpieces, List.cons_append]
      simp only [List.reverse_append, List.reverse_singleton, List.singleton_append,
        List.dropWhile_cons, hidle, Bool.false_eq_true, if_false]
    have htrimmed := List.dropWhile_idempotent (p := isIdle) (l := middle.reverse)
    rw [hparent]
    generalize middle.reverse.dropWhile isIdle = above at hmiddle htrimmed
    have hslash : ∀ piece ∈ first :: above.reverse, '/' ∉ piece := by
      intro piece hmem
      have hsegment : piece ∈ Text.segments '/' path.text.toList := by
        rw [hpieces, hmiddle]
        exact List.mem_append_left _ (List.mem_append_left idle hmem)
      exact Text.not_mem_of_mem_segments hsegment
    obtain ⟨hhops, -, habsolute⟩ := ofReversed_spec hslash
    refine ⟨_, rfl, .inr ⟨first, above, rfl, ⟨hslash, htrimmed⟩, ?_, idle.filterMap hop?, ?_,
      hhere⟩⟩
    · rw [Bool.eq_iff_iff, habsolute, isAbsolute_of_segments hpieces]
      simp
    · rw [hhops, hops, hpieces, hmiddle, ← List.cons_append, List.filterMap_append,
        List.filterMap_append, List.filterMap_cons (f := hop?) (a := name.toList), hname]
      rfl

/-! ### The name at the end -/

/-- The last result of a partial map comes from an element after which there are no results. -/
theorem exists_of_getLast?_filterMap {α β : Type} {f : α → Option β} {list : List α} {b : β}
    (h : (list.filterMap f).getLast? = some b) :
    ∃ before a after, list = before ++ a :: after ∧ f a = some b ∧ ∀ x ∈ after, f x = none := by
  induction list with
  | nil => simp at h
  | cons first rest ih =>
    by_cases hrest : rest.filterMap f = []
    · cases hfirst : f first with
      | none => simp [hfirst, hrest] at h
      | some c =>
        have hb : c = b := by simpa [hfirst, hrest] using h
        exact ⟨[], first, rest, rfl, by rw [hfirst, hb], List.filterMap_eq_nil_iff.mp hrest⟩
    · have hlast : (rest.filterMap f).getLast? = some b := by
        rw [List.filterMap_cons] at h
        split at h
        · exact h
        · rwa [List.getLast?_cons_of_ne_nil hrest] at h
      obtain ⟨before, a, after, rfl, ha, hafter⟩ := ih hlast
      exact ⟨first :: before, a, after, rfl, ha, hafter⟩

theorem component?_eq_entry {hop : Hop} {name : String}
    (h : hop.component? = some (.entry name)) : hop = .down name := by
  cases hop with
  | here => cases h
  | up => cases h
  | down other => rw [Component.entry.inj (Option.some.inj h)]

theorem component?_eq_none {hop : Hop} (h : hop.component? = none) : hop = .here := by
  cases hop with
  | here => rfl
  | up => cases h
  | down other => cases h

/-- The components end as the steps do, unless the path leads nowhere. -/
theorem getLast?_components {path : Path} {name : String} :
    path.components.getLast? = some (.entry name) ↔
      (path.hops.filterMap Hop.component?).getLast? = some (.entry name) := by
  have hcons : ∀ (first : Component) (rest : List Component), first ≠ .entry name →
      ((first :: rest).getLast? = some (.entry name) ↔ rest.getLast? = some (.entry name)) := by
    intro first rest hne
    cases rest with
    | nil => simp [hne]
    | cons next more => rw [List.getLast?_cons_cons]
  unfold components
  split
  · exact hcons _ _ (by simp)
  · split
    · rename_i rest hhops
      rw [hcons _ _ (by simp)]
      simp [hhops, Hop.component?]
    · rfl

theorem fileName?_eq_some_iff {path : Path} {name : String} :
    path.fileName? = some name ↔ path.components.getLast? = some (.entry name) := by
  unfold fileName?
  cases path.components.getLast? with
  | none => simp
  | some component => cases component <;> simp

/-- The name of a path that ends in a name. -/
theorem EndsIn.fileName? {path : Path} {name : String} (h : path.EndsIn name) :
    path.fileName? = some name := by
  obtain ⟨front, hfront⟩ := h.exists_hops
  rw [fileName?_eq_some_iff, getLast?_components, hfront]
  simp [Hop.component?]

/-- The last step of a path that leads somewhere is to its name. -/
theorem exists_hops_of_fileName? {path : Path} {name : String} (h : path.fileName? = some name) :
    ∃ front idle, path.hops = front ++ .down name :: idle ∧ ∀ hop ∈ idle, hop = .here := by
  rw [fileName?_eq_some_iff, getLast?_components] at h
  obtain ⟨front, hop, idle, hhops, hhop, hidle⟩ := exists_of_getLast?_filterMap h
  obtain rfl := component?_eq_entry hhop
  exact ⟨front, idle, hhops, fun other hother => component?_eq_none (hidle other hother)⟩

/-- A path with an extension has a name that ends with it. -/
theorem exists_of_extension? {path : Path} {ending : String} (h : path.extension? = some ending) :
    ∃ name before, path.fileName? = some name ∧ name.toList = before ++ '.' :: ending.toList := by
  obtain ⟨name, hname, hsplit⟩ := Option.bind_eq_some_iff.mp h
  refine ⟨name, ?_⟩
  split at hsplit
  · cases hsplit
  · rename_i before after _ hcut
    refine ⟨before, hname, ?_⟩
    rw [(Text.eq_of_splitLast? hcut).1, ← Option.some.inj hsplit, String.toList_ofList]
  · cases hsplit

end Wiring.Path
