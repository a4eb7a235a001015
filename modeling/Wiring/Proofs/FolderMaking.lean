import Wiring.Proofs.DiskChanges
import Wiring.Proofs.Ways

/-!
# Making a folder with the folders above it

The paths above a path take its steps one by one away.  Making all of them, from the top
downwards, succeeds exactly if no file stands on the way, and the folders that are made all lie
on it.

## Main definitions

* `Path.Chain` — paths each of which has one step more than the next.
* `Disk.Fronts` — the path of the folder in which a path ends.

## Main results

* `Path.chain_ancestors` — the paths above a path form a chain.
* `Disk.Fronts.makeFolders_of_clear`, `Disk.Fronts.walk_of_makeFolders` — when making a folder
  succeeds, and that it stands then.
* `Disk.Fronts.makeFolders_of_blocked` — which fault a file in the way leads to.
* `Disk.Fronts.folder_of_makeFolders` — only folders on the way are made.
-/

namespace Wiring

/-- There is at most one piece more than there are characters. -/
theorem Text.length_segments_le (sep : Char) (cs : List Char) :
    (segments sep cs).length ≤ cs.length + 1 := by
  induction cs with
  | nil => simp
  | cons c cs ih =>
    obtain ⟨piece, pieces, hcs⟩ := exists_segments_eq_cons sep cs
    by_cases hc : c = sep
    · subst hc
      rw [segments_cons_sep, List.length_cons, List.length_cons]
      exact Nat.succ_le_succ ih
    · rw [segments_cons_of_ne hc hcs, List.length_cons, List.length_cons]
      rw [hcs, List.length_cons] at ih
      omega

namespace Path

/-! ### The paths above -/

theorem Trimmed.text_ne_empty {first : List Char} {above : List (List Char)}
    (h : Trimmed first above) : (ofReversed first above).text ≠ "" :=
  (ofReversed_spec h.1).2.1

/-- A path of a single piece has at most one step. -/
theorem Trimmed.length_hops_le {first : List Char} (h : Trimmed first []) :
    (ofReversed first []).hops.length ≤ 1 := by
  rw [(ofReversed_spec h.1).1]
  exact List.length_filterMap_le hop? [first]

/-- Above a path of a single piece there is nothing, or the empty path. -/
theorem Trimmed.parent?_singleton {first : List Char} (h : Trimmed first []) :
    (ofReversed first []).parent? = none ∨ (ofReversed first []).parent? = some ⟨""⟩ := by
  by_cases hfirst : first = []
  · subst hfirst
    exact .inl (by decide)
  · have hsegments := segments_ofReversed (.inl hfirst) h.1
    right
    rw [parent?, hsegments]
    simp [hfirst]

theorem exists_hop?_of_not_idle {piece : List Char} (h : isIdle piece = false) :
    ∃ hop, hop? piece = some hop := by
  unfold hop?
  split
  · simp [isIdle] at h
  · exact ⟨_, rfl⟩
  · exact ⟨_, rfl⟩
  · exact ⟨_, rfl⟩

/-- A path of more pieces has one step more than the path above it. -/
theorem Trimmed.exists_parent? {first piece : List Char} {above : List (List Char)}
    (h : Trimmed first (piece :: above)) :
    ∃ higher, (ofReversed first (piece :: above)).parent? = some (ofReversed first higher) ∧
      Trimmed first higher ∧ higher.length ≤ above.length ∧
      (ofReversed first higher).isAbsolute = (ofReversed first (piece :: above)).isAbsolute ∧
      ∃ idle hop, (ofReversed first (piece :: above)).hops =
        (ofReversed first higher).hops ++ idle ++ [hop] ∧ ∀ hop ∈ idle, hop = .here := by
  obtain ⟨hslash, hlast⟩ := h
  have hpiece : isIdle piece = false := by
    cases hidle : isIdle piece with
    | false => rfl
    | true =>
      have hlength := congrArg List.length hlast
      rw [List.dropWhile_cons, if_pos hidle, List.length_cons] at hlength
      have hle := List.length_dropWhile_le isIdle above
      omega
  obtain ⟨hop, hhop⟩ := exists_hop?_of_not_idle hpiece
  obtain ⟨idle, habove, hhere⟩ := exists_dropWhile_isIdle above.reverse
  rw [List.reverse_reverse] at habove
  have hsub : ∀ other ∈ first :: (above.dropWhile isIdle).reverse, '/' ∉ other := by
    intro other hmem
    refine hslash other ?_
    rw [List.reverse_cons, habove, ← List.cons_append, ← List.cons_append]
    exact List.mem_append_left _ (List.mem_append_left _ hmem)
  refine ⟨above.dropWhile isIdle, ?_, ⟨hsub, List.dropWhile_idempotent isIdle above⟩,
    List.length_dropWhile_le isIdle above, ?_, idle.filterMap hop?, hop, ?_, hhere⟩
  · rw [parent?, segments_ofReversed (.inr (by simp)) hslash]
    simp [hpiece]
  · rw [Bool.eq_iff_iff, (ofReversed_spec hsub).2.2, (ofReversed_spec hslash).2.2]
  · rw [(ofReversed_spec hsub).1, (ofReversed_spec hslash).1, List.reverse_cons, habove,
      ← List.cons_append, ← List.cons_append, List.filterMap_append, List.filterMap_append,
      List.filterMap_cons (f := hop?) (a := piece), hhop]
    rfl

/-- Paths from one upwards, each of which takes one step more than the next, but for steps that
lead nowhere; the last one takes one step or none. -/
inductive Chain : List Path → Prop where
  /-- The last path. -/
  | top {path : Path} (htext : path.text ≠ "") (hhops : path.hops.length ≤ 1) : Chain [path]
  /-- A path and those above it. -/
  | step {path above : Path} {rest : List Path} {idle : List Hop} {hop : Hop}
      (htext : path.text ≠ "") (habsolute : above.isAbsolute = path.isAbsolute)
      (hhops : path.hops = above.hops ++ idle ++ [hop]) (hidle : ∀ hop ∈ idle, hop = .here)
      (hrest : Chain (above :: rest)) : Chain (path :: above :: rest)

theorem Chain.text_ne_empty {path : Path} {rest : List Path} (h : Chain (path :: rest)) :
    path.text ≠ "" := by
  cases h with
  | top htext => exact htext
  | step htext => exact htext

/-- All paths start where the first one starts and take some of its steps. -/
theorem Chain.prefix_of_mem {path other : Path} {rest : List Path} (h : Chain (path :: rest))
    (hmem : other ∈ path :: rest) :
    other.isAbsolute = path.isAbsolute ∧ other.hops <+: path.hops := by
  induction rest generalizing path with
  | nil =>
    obtain rfl := List.mem_singleton.mp hmem
    exact ⟨rfl, List.prefix_rfl⟩
  | cons above rest ih =>
    cases h with
    | @step _ _ _ idle hop htext habsolute hhops hidle hrest =>
      rcases List.mem_cons.mp hmem with rfl | hmem
      · exact ⟨rfl, List.prefix_rfl⟩
      · obtain ⟨hother, hbegins⟩ := ih hrest hmem
        refine ⟨hother.trans habsolute, hbegins.trans ?_⟩
        rw [hhops, List.append_assoc]
        exact List.prefix_append above.hops (idle ++ [hop])

theorem exists_ancestorsWithin (count : Nat) (path : Path) :
    ∃ above, ancestorsWithin count path = path :: above := by
  cases count with
  | zero => exact ⟨[], rfl⟩
  | succ count =>
    rw [ancestorsWithin]
    split
    · exact ⟨[], rfl⟩
    · exact ⟨_, rfl⟩

theorem ancestorsWithin_empty (count : Nat) : ancestorsWithin count ⟨""⟩ = [⟨""⟩] := by
  cases count <;> rfl

/-- The paths above, as many as there are pieces. -/
theorem chain_ancestorsWithin {count : Nat} {first : List Char} {above : List (List Char)}
    (h : Trimmed first above) (hcount : above.length ≤ count) :
    Chain ((ancestorsWithin count (ofReversed first above)).filter fun path => path.text ≠ "") := by
  have htext := h.text_ne_empty
  induction count generalizing above with
  | zero =>
    obtain rfl := List.length_eq_zero_iff.mp (Nat.le_zero.mp hcount)
    simpa [ancestorsWithin, htext] using Chain.top htext h.length_hops_le
  | succ count ih =>
    cases above with
    | nil =>
      have htop := Chain.top htext h.length_hops_le
      rcases h.parent?_singleton with hparent | hparent
      · simpa [ancestorsWithin, hparent, htext] using htop
      · simpa [ancestorsWithin, hparent, ancestorsWithin_empty, htext] using htop
    | cons piece above =>
      obtain ⟨higher, hparent, hhigher, hlength, habsolute, idle, hop, hhops, hidle⟩ :=
        h.exists_parent?
      have hle : higher.length ≤ count := hlength.trans (Nat.le_of_succ_le_succ hcount)
      have hrest := ih hhigher hle hhigher.text_ne_empty
      obtain ⟨more, hmore⟩ := exists_ancestorsWithin count (ofReversed first higher)
      rw [hmore, List.filter_cons, if_pos (by simpa using hhigher.text_ne_empty)] at hrest
      have hchain := Chain.step htext habsolute hhops hidle hrest
      simpa [ancestorsWithin, hparent, hmore, htext, hhigher.text_ne_empty] using hchain

/-- **The paths above a path form a chain.** -/
theorem chain_ancestors {first : List Char} {above : List (List Char)} (h : Trimmed first above) :
    Chain (ofReversed first above).ancestors := by
  refine chain_ancestorsWithin h ?_
  cases above with
  | nil => exact Nat.zero_le _
  | cons piece above =>
    have hsegments := segments_ofReversed (.inr (List.cons_ne_nil piece above)) h.1
    have hlength := Text.length_segments_le '/' (ofReversed first (piece :: above)).text.toList
    rw [hsegments, List.length_cons, List.length_reverse, String.length_toList] at hlength
    exact Nat.le_of_succ_le_succ hlength

end Path

namespace Disk

open FileTree Wiring.Path

variable {disk made : Disk} {path above : Path} {place : List String}

/-! ### Making one folder -/

/-- The steps of a path that leads to a folder lead there. -/
theorem walk_of_isFolder (h : disk.isFolder path = true) :
    walk disk.tree (disk.start path) path.hops = .ok (arrival (disk.start path) path.hops) ∧
      disk.tree.sightAt? (arrival (disk.start path) path.hops) = some .folder := by
  obtain ⟨place, hlocate, hfolder⟩ := isFolder_iff.mp h
  obtain ⟨last, hwalk, hend⟩ := walk_append_eq_ok_iff.mp (locate_eq_ok_iff.mp hlocate).2
  have hplace : place = last := by
    refine eq_of_walk_idle (fun hop hmem => ?_) hend
    split at hmem
    · exact List.mem_singleton.mp hmem
    · cases hmem
  rw [← eq_arrival_of_walk hwalk]
  exact ⟨hwalk, hplace ▸ hfolder⟩

/-- Where the last step leads cannot be told when those before it fail. -/
theorem target_of_walk_error {fault : DiskFault} {front : List Hop} {hop : Hop}
    (htext : path.text ≠ "") (hhops : path.hops = front ++ [hop])
    (hwalk : walk disk.tree (disk.start path) front = .error fault) :
    disk.target path = .error fault := by
  simp [target, htext, hhops, hwalk]

/-- A folder is made whose entry alone is missing. -/
theorem makeFolder_of_missing {front : List Hop} {name : String} (htext : path.text ≠ "")
    (hhops : path.hops = front ++ [.down name])
    (hwalk : walk disk.tree (disk.start path) front = .ok place)
    (hfolder : disk.tree.sightAt? place = some .folder)
    (hnone : disk.tree.sightAt? (place ++ [name]) = none) :
    disk.makeFolder path = .ok (disk.set (place ++ [name]) (.folder [])) := by
  have htarget := target_eq_entry_iff.mpr ⟨htext, front, hhops, hwalk, hfolder⟩
  rw [makeFolder, htarget]
  simp [Option.map_eq_none_iff.mp hnone]

/-- What is seen after a folder was made. -/
theorem sightAt?_of_makeFolder (h : disk.makeFolder path = .ok made) (other : List String) :
    made.tree.sightAt? other =
      if other = arrival (disk.start path) path.hops then some .folder
      else disk.tree.sightAt? other := by
  unfold makeFolder at h
  split at h
  · cases h
  · cases h
  · rename_i folder name htarget
    obtain ⟨-, front, hhops, hwalk, hfolder⟩ := target_eq_entry_iff.mp htarget
    split at h
    · cases h
    · rename_i hnone
      obtain rfl := Except.ok.inj h
      rw [sightAt?_set_folder hfolder (Option.map_eq_none_iff.mpr hnone), hhops,
        arrival_concat_down, ← eq_arrival_of_walk hwalk]

/-- Folders are made only by paths that start in a folder. -/
theorem start_of_makeFolder (h : disk.makeFolder path = .ok made) :
    disk.tree.sightAt? (disk.start path) = some .folder := by
  unfold makeFolder at h
  split at h
  · cases h
  · cases h
  · rename_i folder name htarget
    obtain ⟨-, front, -, hwalk, hfolder⟩ := target_eq_entry_iff.mp htarget
    exact folder_of_onWay hwalk hfolder (onWay_start _ front)

theorem isFolder_of_makeFolder (h : disk.makeFolder path = .ok made) :
    made.isFolder path = true := by
  have hseries := evolves_makeFolder h
  have hsight := sightAt?_of_makeFolder h
  unfold makeFolder at h
  split at h
  · cases h
  · cases h
  · rename_i folder name htarget
    obtain ⟨htext, front, hhops, hwalk, hfolder⟩ := target_eq_entry_iff.mp htarget
    have hlast : made.tree.sightAt? (folder ++ [name]) = some .folder := by
      rw [hsight, hhops, arrival_concat_down, ← eq_arrival_of_walk hwalk, if_pos rfl]
    refine isFolder_of_walk htext ?_ hlast
    rw [hhops, walk_append_eq_ok_iff]
    refine ⟨folder, ?_, walk_singleton_eq_ok_iff.mpr (step_eq_ok_iff.mpr ⟨?_, rfl, ?_⟩)⟩
    · rw [start, hseries.current]
      exact walk_mono hseries.grows hwalk
    · exact hseries.grows.folders folder hfolder
    · intro other hother
      obtain rfl := Hop.down.inj hother
      simp [hlast]

/-- A folder cannot be made where a file stands. -/
theorem makeFolder_of_file {content : ByteArray} (htext : path.text ≠ "")
    (hstart : disk.tree.sightAt? (disk.start path) = some .folder)
    (hwalk : walk disk.tree (disk.start path) path.hops = .ok place)
    (hfile : disk.tree.sightAt? place = some (.file content)) :
    disk.makeFolder path = .error .alreadyExists := by
  rcases List.eq_nil_or_concat path.hops with hnil | ⟨front, hop, hhops⟩
  · rw [hnil] at hwalk
    obtain rfl := Except.ok.inj hwalk
    simp [hstart] at hfile
  rw [List.concat_eq_append] at hhops
  rw [hhops, walk_append_eq_ok_iff] at hwalk
  obtain ⟨above, habove, hstep⟩ := hwalk
  rw [walk_singleton_eq_ok_iff, step_eq_ok_iff] at hstep
  obtain ⟨hfolder, rfl, -⟩ := hstep
  cases hop with
  | here => simp [landing, hfolder] at hfile
  | up => simp [landing, sightAt?_dropLast hfolder] at hfile
  | down name =>
    have htarget := target_eq_entry_iff.mpr ⟨htext, front, hhops, habove, hfolder⟩
    have hthere := sightAt?_eq_some_file.mp hfile
    rw [landing] at hthere
    rw [makeFolder, htarget]
    simp [hthere]

/-- Below a file no folder can be made. -/
theorem makeFolder_of_file_above {content : ByteArray} {front back : List Hop}
    (htext : path.text ≠ "") (hhops : path.hops = front ++ back) (hback : back ≠ [])
    (hwalk : walk disk.tree (disk.start path) front = .ok place)
    (hfile : disk.tree.sightAt? place = some (.file content)) :
    disk.makeFolder path = .error .notFolder := by
  obtain ⟨middle, last, rfl⟩ := (List.eq_nil_or_concat back).resolve_left hback
  rw [List.concat_eq_append, ← List.append_assoc] at hhops
  cases middle with
  | nil =>
    rw [List.append_nil] at hhops
    simp [makeFolder, target, htext, hhops, hwalk, sightAt?_eq_some_file.mp hfile]
  | cons hop rest =>
    have herror := (walk_append_of_ok hwalk (hop :: rest)).trans (walk_cons_of_file hfile hop rest)
    rw [makeFolder, target_of_walk_error htext hhops herror]

/-- Without files on the way a folder stands already, or its entry is missing, or something above
it is. -/
theorem makeFolder_of_clear (htext : path.text ≠ "")
    (hstart : disk.tree.sightAt? (disk.start path) = some .folder)
    (hclear : Clear disk.tree (disk.start path) path.hops) :
    (disk.isFolder path = true ∧ disk.makeFolder path = .error .alreadyExists) ∨
      (∃ made, disk.makeFolder path = .ok made) ∨
      ∃ front hop, path.hops = front ++ [hop] ∧ front ≠ [] ∧
        walk disk.tree (disk.start path) front = .error .notFound ∧
        disk.makeFolder path = .error .notFound := by
  cases course hstart path.hops with
  | free hwalk hfolder =>
    exact .inl ⟨isFolder_of_walk htext hwalk hfolder, makeFolder_of_walk htext hwalk hfolder⟩
  | blocked content hhops hwalk hfile => exact absurd hclear (not_clear_of_file hhops hfile)
  | @missing front back name hhops hwalk hfolder hnone =>
    rcases List.eq_nil_or_concat back with rfl | ⟨middle, hop, rfl⟩
    · exact .inr (.inl ⟨_, makeFolder_of_missing htext hhops hwalk hfolder hnone⟩)
    · rw [List.concat_eq_append, ← List.cons_append, ← List.append_assoc] at hhops
      have herror := (walk_append_of_ok hwalk (.down name :: middle)).trans
        (walk_cons_of_none hfolder hnone middle)
      refine .inr (.inr ⟨_, hop, hhops, by simp, herror, ?_⟩)
      rw [makeFolder, target_of_walk_error htext hhops herror]

/-! ### Making all of them -/

/-- When folders were made, the first of them stands. -/
theorem isFolder_of_makeFoldersUp {rest : List Path}
    (h : disk.makeFoldersUp (path :: rest) = (made, .ok ())) : made.isFolder path = true := by
  rw [makeFoldersUp] at h
  split at h
  · rename_i done hmake
    obtain rfl := (Prod.mk.inj h).1
    exact isFolder_of_makeFolder hmake
  · split at h
    · cases h
    · split at h
      · rename_i done hmake
        obtain rfl := (Prod.mk.inj h).1
        exact isFolder_of_makeFolder hmake
      · obtain ⟨rfl, hresult⟩ := Prod.mk.inj h
        split at hresult
        · assumption
        · cases hresult
  · obtain ⟨rfl, hresult⟩ := Prod.mk.inj h
    split at hresult
    · assumption
    · cases hresult

/-- **Without files on the way** all folders are there or can be made. -/
theorem makeFoldersUp_of_chain {rest : List Path} (hchain : Chain (path :: rest))
    (hstart : disk.tree.sightAt? (disk.start path) = some .folder)
    (hclear : Clear disk.tree (disk.start path) path.hops) :
    ∃ made, disk.makeFoldersUp (path :: rest) = (made, .ok ()) := by
  induction rest generalizing path with
  | nil =>
    cases hchain with
    | top htext hhops =>
      rcases makeFolder_of_clear htext hstart hclear with
        ⟨hfolder, hmake⟩ | ⟨made, hmake⟩ | ⟨front, hop, hfront, hne, -, -⟩
      · exact ⟨disk, by simp [makeFoldersUp, hmake, hfolder]⟩
      · exact ⟨made, by simp [makeFoldersUp, hmake]⟩
      · -- a single step has no steps before it
        have hlength := List.length_pos_iff.mpr hne
        rw [hfront, List.length_append, List.length_singleton] at hhops
        omega
  | cons above rest ih =>
    cases hchain with
    | @step _ _ _ idle hop htext habsolute hhops hidle hrest =>
      rcases makeFolder_of_clear htext hstart hclear with
        ⟨hfolder, hmake⟩ | ⟨made, hmake⟩ | ⟨-, -, -, -, -, hmake⟩
      · exact ⟨disk, by simp [makeFoldersUp, hmake, hfolder]⟩
      · exact ⟨made, by simp [makeFoldersUp, hmake]⟩
      · -- the folder above is made first, and then at most the last entry is missing
        have hsame : disk.start above = disk.start path := by rw [start, start, habsolute]
        have hbegins : above.hops <+: path.hops := by
          rw [hhops, List.append_assoc]
          exact List.prefix_append above.hops (idle ++ [hop])
        obtain ⟨made, hmade⟩ := ih hrest (hsame ▸ hstart) (hsame ▸ hclear.mono hbegins)
        have hseries := evolves_makeFoldersUp disk (above :: rest)
        rw [hmade] at hseries
        have hstart' : made.start path = disk.start path := hseries.start path
        have hclear' : Clear made.tree (made.start path) path.hops := by
          intro other hother
          rw [hseries.bytesAt? not_false]
          exact hclear other (hstart' ▸ hother)
        obtain ⟨habove, hfolder⟩ := walk_of_isFolder (isFolder_of_makeFoldersUp hmade)
        rcases makeFolder_of_clear htext (hstart' ▸ hseries.grows.folders _ hstart) hclear' with
          ⟨hstands, hagain⟩ | ⟨done, hagain⟩ | ⟨front, last, hfront, -, hwalk, -⟩
        · exact ⟨made, by rw [makeFoldersUp, hmake]; simp [hmade, hagain, hstands]⟩
        · exact ⟨done, by rw [makeFoldersUp, hmake]; simp [hmade, hagain]⟩
        · obtain ⟨rfl, -⟩ := List.append_inj' (hfront.symm.trans hhops) rfl
          have hsame' : made.start above = made.start path := by rw [start, start, habsolute]
          rw [← hsame', walk_append_of_ok habove, walk_idle hidle hfolder] at hwalk
          cases hwalk

/-- Only folders to which the paths lead are made. -/
theorem folder_of_makeFoldersUp {paths : List Path}
    (h : (disk.makeFoldersUp paths).1.tree.sightAt? place = some .folder) :
    disk.tree.sightAt? place = some .folder ∨
      ∃ path ∈ paths, place = arrival (disk.start path) path.hops := by
  induction paths with
  | nil => exact .inl h
  | cons path above ih =>
    have hmore : (disk.tree.sightAt? place = some .folder ∨
        ∃ path ∈ above, place = arrival (disk.start path) path.hops) →
        disk.tree.sightAt? place = some .folder ∨
          ∃ other ∈ path :: above, place = arrival (disk.start other) other.hops := by
      rintro (hbefore | ⟨other, hmem, hplace⟩)
      · exact .inl hbefore
      · exact .inr ⟨other, List.mem_cons_of_mem _ hmem, hplace⟩
    have hseries := evolves_makeFoldersUp disk above
    rw [makeFoldersUp] at h
    split at h
    · rename_i made hmake
      rw [sightAt?_of_makeFolder hmake] at h
      split at h
      · exact .inr ⟨path, List.mem_cons_self, ‹_›⟩
      · exact .inl h
    · split at h
      · rename_i made fault hmade
        rw [hmade] at ih
        exact hmore (ih h)
      · rename_i made hmade
        rw [hmade] at ih hseries
        split at h
        · rename_i done hmake
          rw [sightAt?_of_makeFolder hmake] at h
          split at h
          · refine .inr ⟨path, List.mem_cons_self, ?_⟩
            rwa [start, ← hseries.current]
          · exact hmore (ih h)
        · exact hmore (ih h)
    · exact .inl h

/-- From a place where no folder stands no folders are made. -/
theorem makeFoldersUp_of_start {paths : List Path}
    (h : ∀ path ∈ paths, disk.tree.sightAt? (disk.start path) ≠ some .folder) :
    (disk.makeFoldersUp paths).1 = disk := by
  induction paths with
  | nil => rfl
  | cons path above ih =>
    have hfail : ∀ made, disk.makeFolder path ≠ .ok made := fun made hmake =>
      h path List.mem_cons_self (start_of_makeFolder hmake)
    have habove := ih fun other hother => h other (List.mem_cons_of_mem _ hother)
    rw [makeFoldersUp]
    split
    · rename_i made hmake
      exact absurd hmake (hfail made)
    · split
      · rename_i made fault hmade
        rwa [hmade] at habove
      · rename_i made hmade
        rw [hmade] at habove
        obtain rfl : made = disk := habove
        split
        · rename_i done hmake
          exact absurd hmake (hfail done)
        · rfl
    · rfl

/-! ### The folder in which a path ends -/

/-- The path leads to the folder from which another path takes its last step. -/
def Fronts (parent path : Path) (front : List Hop) : Prop :=
  parent = ⟨""⟩ ∧ front = [] ∨
    (∃ above, parent.ancestors = parent :: above ∧ Chain (parent :: above)) ∧
      parent.isAbsolute = path.isAbsolute ∧
      ∃ idle, front = parent.hops ++ idle ∧ ∀ hop ∈ idle, hop = .here

theorem exists_fronts {path : Path} {name : String} {front : List Hop} (hname : path.EndsIn name)
    (hfront : path.hops = front ++ [.down name]) :
    ∃ parent, path.parent? = some parent ∧ Fronts parent path front := by
  obtain ⟨parent, hparent, hcases⟩ := exists_parent? hname
  refine ⟨parent, hparent, ?_⟩
  rcases hcases with ⟨rfl, hhops⟩ | ⟨first, above, rfl, htrimmed, habsolute, idle, hhops, hidle⟩
  · rw [hfront] at hhops
    exact .inl ⟨rfl, List.append_left_eq_self.mp hhops⟩
  · obtain ⟨more, hmore⟩ := exists_ancestors htrimmed.text_ne_empty
    have hchain := chain_ancestors htrimmed
    rw [hmore] at hchain
    refine .inr ⟨⟨more, hmore, hchain⟩, habsolute, idle, ?_, hidle⟩
    exact (List.append_inj' (hfront.symm.trans hhops) rfl).1

namespace Fronts

variable {parent : Path} {front : List Hop}

/-- **Without files on the way** the folder is there or can be made. -/
theorem makeFolders_of_clear (h : Fronts parent path front)
    (hstart : disk.tree.sightAt? (disk.start path) = some .folder)
    (hclear : Clear disk.tree (disk.start path) front) :
    ∃ made, disk.makeFolders parent = (made, .ok ()) := by
  rcases h with ⟨rfl, -⟩ | ⟨⟨above, habove, hchain⟩, habsolute, idle, rfl, hidle⟩
  · exact ⟨disk, makeFolders_of_stands (.inl rfl)⟩
  · have hsame : disk.start parent = disk.start path := by rw [start, start, habsolute]
    rw [makeFolders, habove]
    exact makeFoldersUp_of_chain hchain (hsame ▸ hstart)
      (hsame ▸ hclear.mono (List.prefix_append parent.hops idle))

/-- A folder that was made with those above it stands. -/
theorem walk_of_makeFolders (h : Fronts parent path front)
    (hstart : disk.tree.sightAt? (disk.start path) = some .folder)
    (hmake : disk.makeFolders parent = (made, .ok ())) :
    walk made.tree (disk.start path) front = .ok (arrival (disk.start path) front) ∧
      made.tree.sightAt? (arrival (disk.start path) front) = some .folder := by
  have hseries := evolves_of_makeFolders hmake
  rcases h with ⟨rfl, rfl⟩ | ⟨⟨above, habove, hchain⟩, habsolute, idle, rfl, hidle⟩
  · exact ⟨rfl, hseries.grows.folders _ hstart⟩
  · rw [makeFolders, habove] at hmake
    have hsame : made.start parent = disk.start path := by
      rw [start, start, habsolute, hseries.current]
    obtain ⟨hwalk, hfolder⟩ := walk_of_isFolder (isFolder_of_makeFoldersUp hmake)
    rw [hsame] at hwalk hfolder
    rw [arrival_append_idle hidle, walk_append_of_ok hwalk]
    exact ⟨walk_idle hidle hfolder, hfolder⟩

/-- **Only folders on the way are made**, whether or not all of them can be. -/
theorem folder_of_makeFolders (h : Fronts parent path front) (disk : Disk) (place : List String)
    (hmade : (disk.makeFolders parent).1.tree.sightAt? place = some .folder) :
    disk.tree.sightAt? place = some .folder ∨ OnWay (disk.start path) front place := by
  rcases h with ⟨rfl, rfl⟩ | ⟨⟨above, habove, hchain⟩, habsolute, idle, rfl, hidle⟩
  · rw [makeFolders_of_stands (.inl rfl)] at hmade
    exact .inl hmade
  · rw [makeFolders, habove] at hmade
    rcases folder_of_makeFoldersUp hmade with hbefore | ⟨other, hmem, rfl⟩
    · exact .inl hbefore
    · obtain ⟨hother, hbegins⟩ := hchain.prefix_of_mem hmem
      have hsame : disk.start other = disk.start path := by
        rw [start, start, hother, habsolute]
      rw [hsame]
      exact .inr ⟨other.hops, hbegins.trans (List.prefix_append parent.hops idle), rfl⟩

/-- From a place where no folder stands no folders are made. -/
theorem makeFolders_of_start (h : Fronts parent path front) (disk : Disk)
    (hstart : disk.tree.sightAt? (disk.start path) ≠ some .folder) :
    (disk.makeFolders parent).1 = disk := by
  rcases h with ⟨rfl, rfl⟩ | ⟨⟨above, habove, hchain⟩, habsolute, -⟩
  · rw [makeFolders_of_stands (.inl rfl)]
  · rw [makeFolders, habove]
    refine makeFoldersUp_of_start fun other hmem => ?_
    rwa [start, (hchain.prefix_of_mem hmem).1, habsolute]

end Fronts

/-- The fault of making a folder when a file stands after the given steps of its path. -/
def blockFault (parent : Path) (front : List Hop) : DiskFault :=
  if parent.hops.length ≤ front.length then .alreadyExists else .notFolder

/-- **A file in the way** keeps a folder from being made, and nothing else is made. -/
theorem Fronts.makeFolders_of_blocked {parent : Path} {front back : List Hop} {content : ByteArray}
    (h : Fronts parent path (front ++ back))
    (hstart : disk.tree.sightAt? (disk.start path) = some .folder)
    (hwalk : walk disk.tree (disk.start path) front = .ok (arrival (disk.start path) front))
    (hfile : disk.tree.sightAt? (arrival (disk.start path) front) = some (.file content)) :
    disk.makeFolders parent = (disk, .error (blockFault parent front)) := by
  rcases h with ⟨-, hnil⟩ | ⟨⟨above, habove, hchain⟩, habsolute, idle, hhops, hidle⟩
  · obtain ⟨rfl, -⟩ := List.append_eq_nil_iff.mp hnil
    rw [arrival_nil, hstart] at hfile
    cases hfile
  have hsame : disk.start parent = disk.start path := by rw [start, start, habsolute]
  have htext := hchain.text_ne_empty
  rw [← hsame] at hstart hwalk hfile
  have hstands : disk.isFolder parent = false := by
    refine Bool.eq_false_iff.mpr fun hfolder => ?_
    obtain ⟨hparent, hlast⟩ := walk_of_isFolder hfolder
    have hclear : Clear disk.tree (disk.start parent) (parent.hops ++ idle) :=
      clear_of_walk ((walk_append_of_ok hparent idle).trans (walk_idle hidle hlast)) hlast
    exact not_clear_of_file hhops.symm hfile hclear
  rw [makeFolders, habove, makeFoldersUp, blockFault]
  rcases List.append_eq_append_iff.mp hhops with ⟨middle, hparent, hback⟩ | ⟨middle, hfront, hrest⟩
  · -- the file stands after some of the steps of the folder
    by_cases hmiddle : middle = []
    · subst hmiddle
      rw [List.append_nil] at hparent
      rw [← hparent] at hwalk hfile
      have hmake := makeFolder_of_file htext hstart hwalk hfile
      simp [hmake, hstands, hparent]
    · have hmake := makeFolder_of_file_above htext hparent hmiddle hwalk hfile
      have hlength := List.length_pos_iff.mpr hmiddle
      rw [hmake, if_neg]
      · simp [hstands]
      · rw [hparent, List.length_append]
        omega
  · -- the steps after those of the folder lead nowhere
    have hmiddle : ∀ hop ∈ middle, hop = .here := fun hop hmem =>
      hidle hop (hrest ▸ List.mem_append_left back hmem)
    rw [hfront] at hwalk hfile
    rw [arrival_append_idle hmiddle] at hwalk hfile
    obtain ⟨last, hparent, hend⟩ := walk_append_eq_ok_iff.mp hwalk
    rw [← eq_of_walk_idle hmiddle hend] at hparent
    have hmake := makeFolder_of_file htext hstart hparent hfile
    rw [hmake, if_pos]
    · simp [hstands]
    · rw [hfront, List.length_append]
      omega

end Disk

end Wiring
