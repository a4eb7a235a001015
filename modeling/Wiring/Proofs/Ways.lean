import Wiring.Proofs.DiskPaths

/-!
# Ways through a tree

Steps that nothing stops lead from a place through other places to a last one.  Which places
these are depends on the steps alone; the tree decides how far one gets.  Starting from a folder
there are three courses: the steps lead to a folder, a file stands in the way, or an entry is
missing.

## Main definitions

* `Disk.arrival` — where steps lead if nothing stops them.
* `Disk.OnWay` — the places they pass.
* `Disk.Clear` — no file stands at any of them.
* `Disk.Course` — what becomes of the steps in a tree.

## Main results

* `Disk.course` — there is no other course.
* `Disk.folder_of_onWay` — steps that lead to a folder pass folders only.
* `Disk.onWay_append_iff`, `Disk.onWay_down_iff` — the way of composed steps, and through entries
  by name.
-/

namespace Wiring.FileTree

/-- What stands below a place stands in a folder. -/
theorem sightAt?_above {tree : FileTree} {place below : List String} (hbelow : below ≠ [])
    (h : tree.sightAt? (place ++ below) ≠ none) : tree.sightAt? place = some .folder := by
  obtain ⟨name, rest, rfl⟩ := List.exists_cons_of_ne_nil hbelow
  rw [sightAt?, get?_append] at h
  cases hfound : tree.get? place with
  | none => simp [hfound] at h
  | some found =>
    cases found with
    | file content => exact absurd (by rw [hfound]; rfl) h
    | folder entries => exact sightAt?_eq_some_folder.mpr ⟨entries, hfound⟩

/-- Nothing stands below a place at which nothing stands. -/
theorem sightAt?_append_of_none {tree : FileTree} {place : List String}
    (h : tree.sightAt? place = none) (below : List String) :
    tree.sightAt? (place ++ below) = none := by
  rw [sightAt?, get?_append, Option.map_eq_none_iff.mp h]
  rfl

/-- A folder stands in a folder, or is the top. -/
theorem sightAt?_dropLast {tree : FileTree} {place : List String}
    (h : tree.sightAt? place = some .folder) : tree.sightAt? place.dropLast = some .folder := by
  rcases List.eq_nil_or_concat place with rfl | ⟨above, name, rfl⟩
  · exact h
  · rw [List.concat_eq_append] at h ⊢
    rw [List.dropLast_concat]
    exact sightAt?_above (List.cons_ne_nil name []) (by simp [h])

end Wiring.FileTree

namespace Wiring.Disk

open FileTree Wiring.Path

variable {tree : FileTree} {place last other : List String} {hops front back : List Hop}

/-! ### Where steps lead -/

/-- Where steps lead if nothing stops them. -/
def arrival (place : List String) (hops : List Hop) : List String := hops.foldl landing place

@[simp] theorem arrival_nil (place : List String) : arrival place [] = place := rfl

@[simp] theorem arrival_cons (place : List String) (hop : Hop) (rest : List Hop) :
    arrival place (hop :: rest) = arrival (landing place hop) rest := rfl

theorem arrival_append (place : List String) (front back : List Hop) :
    arrival place (front ++ back) = arrival (arrival place front) back :=
  List.foldl_append

theorem arrival_concat_down (place : List String) (front : List Hop) (name : String) :
    arrival place (front ++ [.down name]) = arrival place front ++ [name] := by
  rw [arrival_append, arrival_cons, arrival_nil, landing]

/-- Steps to entries add their names to the place. -/
theorem arrival_down (place names : List String) :
    arrival place (names.map .down) = place ++ names := by
  induction names generalizing place with
  | nil => rw [List.map_nil, arrival_nil, List.append_nil]
  | cons name rest ih =>
    rw [List.map_cons, arrival_cons, ih, landing, List.append_assoc, List.singleton_append]

/-- Without a step upwards the start stays at the front of the place. -/
theorem exists_arrival_of_no_up (place : List String) (h : Hop.up ∉ hops) :
    ∃ below, arrival place hops = place ++ below := by
  induction hops generalizing place with
  | nil => exact ⟨[], (List.append_nil place).symm⟩
  | cons hop rest ih =>
    rw [List.mem_cons, not_or] at h
    obtain ⟨below, hbelow⟩ := ih (landing place hop) h.2
    rw [arrival_cons, hbelow]
    cases hop with
    | here => exact ⟨below, rfl⟩
    | up => exact absurd rfl h.1
    | down name => exact ⟨name :: below, List.append_assoc place [name] below⟩

theorem eq_arrival_of_step {hop : Hop} (h : step tree place hop = .ok last) :
    last = landing place hop :=
  (step_eq_ok_iff.mp h).2.1

theorem eq_arrival_of_walk (h : walk tree place hops = .ok last) : last = arrival place hops := by
  induction hops generalizing place with
  | nil => exact (Except.ok.inj h).symm
  | cons hop rest ih =>
    obtain ⟨next, hnext, hrest⟩ := walk_cons_eq_ok_iff.mp h
    rw [arrival_cons, ← eq_arrival_of_step hnext]
    exact ih hrest

/-- Steps go on from where the steps before them lead. -/
theorem walk_append_of_ok (h : walk tree place front = .ok last) (back : List Hop) :
    walk tree place (front ++ back) = walk tree last back := by
  induction front generalizing place with
  | nil =>
    obtain rfl := Except.ok.inj h
    rfl
  | cons hop rest ih =>
    obtain ⟨next, hnext, hrest⟩ := walk_cons_eq_ok_iff.mp h
    rw [List.cons_append, walk, hnext]
    exact ih hrest

/-- No step leads from a file. -/
theorem walk_cons_of_file {content : ByteArray} (h : tree.sightAt? place = some (.file content))
    (hop : Hop) (rest : List Hop) : walk tree place (hop :: rest) = .error .notFolder := by
  rw [walk, step, sightAt?_eq_some_file.mp h]

/-- No step leads down to what is not there. -/
theorem walk_cons_of_none {name : String} (hfolder : tree.sightAt? place = some .folder)
    (hnone : tree.sightAt? (place ++ [name]) = none) (rest : List Hop) :
    walk tree place (.down name :: rest) = .error .notFound := by
  obtain ⟨entries, hentries⟩ := sightAt?_eq_some_folder.mp hfolder
  have hlookup : entries.lookup name = none := by
    rw [← get?_append_singleton hentries]
    exact Option.map_eq_none_iff.mp hnone
  rw [walk, step, hentries]
  simp [hlookup]

/-! ### The way -/

/-- The steps pass the place, or start or end there. -/
def OnWay (place : List String) (hops : List Hop) (other : List String) : Prop :=
  ∃ front, front <+: hops ∧ other = arrival place front

theorem onWay_start (place : List String) (hops : List Hop) : OnWay place hops place :=
  ⟨[], List.nil_prefix, rfl⟩

theorem onWay_arrival (place : List String) (hops : List Hop) :
    OnWay place hops (arrival place hops) :=
  ⟨hops, List.prefix_rfl, rfl⟩

theorem OnWay.mono (h : OnWay place front other) (hbegins : front <+: hops) :
    OnWay place hops other := by
  obtain ⟨first, hfirst, rfl⟩ := h
  exact ⟨first, hfirst.trans hbegins, rfl⟩

theorem onWay_cons_iff {hop : Hop} {rest : List Hop} :
    OnWay place (hop :: rest) other ↔ other = place ∨ OnWay (landing place hop) rest other := by
  constructor
  · rintro ⟨front, hfront, rfl⟩
    rcases List.prefix_cons_iff.mp hfront with rfl | ⟨first, rfl, hfirst⟩
    · exact .inl rfl
    · exact .inr ⟨first, hfirst, rfl⟩
  · rintro (rfl | ⟨first, hfirst, rfl⟩)
    · exact onWay_start other _
    · exact ⟨hop :: first, List.cons_prefix_cons.mpr ⟨rfl, hfirst⟩, rfl⟩

/-- The way of steps one after the other. -/
theorem onWay_append_iff :
    OnWay place (front ++ back) other ↔
      OnWay place front other ∨ OnWay (arrival place front) back other := by
  induction front generalizing place with
  | nil =>
    refine ⟨.inr, fun h => h.elim ?_ id⟩
    rintro ⟨first, hfirst, rfl⟩
    obtain rfl := List.prefix_nil.mp hfirst
    exact onWay_start place _
  | cons hop rest ih =>
    rw [List.cons_append, onWay_cons_iff, onWay_cons_iff, ih, or_assoc, arrival_cons]

/-- The way through entries by name. -/
theorem onWay_down_iff {names : List String} :
    OnWay place (names.map .down) other ↔ ∃ first, first <+: names ∧ other = place ++ first := by
  constructor
  · rintro ⟨front, hfront, rfl⟩
    obtain ⟨first, hfirst, rfl⟩ := List.prefix_map_iff.mp hfront
    exact ⟨first, hfirst, arrival_down place first⟩
  · rintro ⟨first, hfirst, rfl⟩
    exact ⟨first.map .down, hfirst.map _, (arrival_down place first).symm⟩

/-- Steps that lead nowhere stay where they are. -/
theorem eq_of_onWay_idle {idle : List Hop} (hidle : ∀ hop ∈ idle, hop = .here)
    (h : OnWay place idle other) : other = place := by
  induction idle with
  | nil =>
    obtain ⟨front, hfront, rfl⟩ := h
    rw [List.prefix_nil.mp hfront, arrival_nil]
  | cons hop rest ih =>
    obtain rfl := hidle hop List.mem_cons_self
    rcases onWay_cons_iff.mp h with rfl | hrest
    · rfl
    · exact ih (fun hop hmem => hidle hop (List.mem_cons_of_mem _ hmem)) hrest

/-- Steps at the end that lead nowhere do not change the last place. -/
theorem arrival_append_idle {idle : List Hop} (hidle : ∀ hop ∈ idle, hop = .here)
    (place : List String) (front : List Hop) :
    arrival place (front ++ idle) = arrival place front := by
  rw [arrival_append]
  exact eq_of_onWay_idle hidle (onWay_arrival _ idle)

/-! ### What stands in the way -/

/-- Steps that lead to a folder pass folders only. -/
theorem folder_of_onWay (hwalk : walk tree place hops = .ok last)
    (hlast : tree.sightAt? last = some .folder) (h : OnWay place hops other) :
    tree.sightAt? other = some .folder := by
  induction hops generalizing place with
  | nil =>
    obtain ⟨front, hfront, rfl⟩ := h
    obtain rfl := List.prefix_nil.mp hfront
    obtain rfl := Except.ok.inj hwalk
    exact hlast
  | cons hop rest ih =>
    obtain ⟨next, hnext, hrest⟩ := walk_cons_eq_ok_iff.mp hwalk
    obtain ⟨hfolder, rfl, -⟩ := step_eq_ok_iff.mp hnext
    rcases onWay_cons_iff.mp h with rfl | hway
    · exact hfolder
    · exact ih hrest hway

/-- No file stands on the way. -/
def Clear (tree : FileTree) (place : List String) (hops : List Hop) : Prop :=
  ∀ other, OnWay place hops other → tree.bytesAt? other = none

theorem Clear.mono (h : Clear tree place hops) (hbegins : front <+: hops) :
    Clear tree place front :=
  fun other hother => h other (hother.mono hbegins)

/-- A file at the end of some of the steps stands on the way. -/
theorem not_clear_of_file {content : ByteArray} (hhops : hops = front ++ back)
    (hfile : tree.sightAt? (arrival place front) = some (.file content)) :
    ¬ Clear tree place hops := by
  intro hclear
  have hnone := hclear _ ⟨front, hhops ▸ List.prefix_append front back, rfl⟩
  rw [bytesAt?_eq_some.mpr hfile] at hnone
  cases hnone

/-- Steps that lead to a folder have a clear way. -/
theorem clear_of_walk (hwalk : walk tree place hops = .ok last)
    (hlast : tree.sightAt? last = some .folder) : Clear tree place hops := by
  intro other hother
  rw [Option.eq_none_iff_forall_ne_some]
  intro content hcontent
  have hfolder := folder_of_onWay hwalk hlast hother
  rw [bytesAt?_eq_some.mp hcontent] at hfolder
  cases hfolder

/-- What becomes of steps. -/
inductive Course (tree : FileTree) (place : List String) (hops : List Hop) : Prop where
  /-- They lead to a folder. -/
  | free (hwalk : walk tree place hops = .ok (arrival place hops))
      (hfolder : tree.sightAt? (arrival place hops) = some .folder)
  /-- A file stands in the way, or at the end. -/
  | blocked {front back : List Hop} (content : ByteArray) (hhops : hops = front ++ back)
      (hwalk : walk tree place front = .ok (arrival place front))
      (hfile : tree.sightAt? (arrival place front) = some (.file content))
  /-- An entry is missing. -/
  | missing {front back : List Hop} {name : String} (hhops : hops = front ++ .down name :: back)
      (hwalk : walk tree place front = .ok (arrival place front))
      (hfolder : tree.sightAt? (arrival place front) = some .folder)
      (hnone : tree.sightAt? (arrival place front ++ [name]) = none)

/-- The course of steps after a first one that can be taken. -/
theorem Course.cons {hop : Hop} (hstep : step tree place hop = .ok (landing place hop))
    (h : Course tree (landing place hop) hops) : Course tree place (hop :: hops) := by
  have hcons : ∀ rest last, walk tree (landing place hop) rest = .ok last →
      walk tree place (hop :: rest) = .ok last := fun rest last hrest =>
    walk_cons_eq_ok_iff.mpr ⟨_, hstep, hrest⟩
  cases h with
  | free hwalk hfolder => exact .free (hcons _ _ hwalk) hfolder
  | @blocked front back content hhops hwalk hfile =>
    exact .blocked content (congrArg (hop :: ·) hhops) (hcons _ _ hwalk) hfile
  | @missing front back name hhops hwalk hfolder hnone =>
    exact .missing (congrArg (hop :: ·) hhops) (hcons _ _ hwalk) hfolder hnone

/-- **From a folder** steps lead to a folder, or a file stands in the way, or an entry is
missing. -/
theorem course (h : tree.sightAt? place = some .folder) (hops : List Hop) :
    Course tree place hops := by
  induction hops generalizing place with
  | nil => exact .free rfl h
  | cons hop rest ih =>
    cases hop with
    | here =>
      exact Course.cons (step_eq_ok_iff.mpr ⟨h, rfl, fun _ hdown => nomatch hdown⟩) (ih h)
    | up =>
      exact Course.cons (step_eq_ok_iff.mpr ⟨h, rfl, fun _ hdown => nomatch hdown⟩)
        (ih (sightAt?_dropLast h))
    | down name =>
      cases hsight : tree.sightAt? (place ++ [name]) with
      | none => exact .missing (List.nil_append _).symm rfl h hsight
      | some sight =>
        have hstep : step tree place (.down name) = .ok (landing place (.down name)) := by
          refine step_eq_ok_iff.mpr ⟨h, rfl, fun other hother => ?_⟩
          obtain rfl := Hop.down.inj hother
          simp [hsight]
        cases sight with
        | folder => exact Course.cons hstep (ih hsight)
        | file content =>
          exact .blocked content (List.singleton_append).symm
            (walk_singleton_eq_ok_iff.mpr hstep) hsight

end Wiring.Disk
