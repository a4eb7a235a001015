import Wiring.Disk
import Wiring.Proofs.PathSteps
import Wiring.Proofs.TreeUpdates

/-!
# Where paths lead

Following a path on a disk is walking through folders.  A tree in which nothing was taken away,
every folder still a folder and every file still a file, has all the ways it had: a path that
leads to some place keeps leading there.

## Main definitions

* `FileTree.Grows` — folders stay folders and files stay files.
* `Disk.landing` — where a step leads.

## Main results

* `Disk.walk_mono`, `Disk.locate_mono` — ways stay when a tree grows.
* `Disk.locate_endsIn` — where a path leads that ends in a name.
* `Disk.readBytes_eq_ok_iff`, `Disk.isFile_iff`, `Disk.isFolder_iff` — what is found at a path.
* `Disk.target_eq_entry_iff` — where a path leads of which the last step need not be there.
-/

namespace Wiring

/-- Folders stay folders and files stay files. -/
structure FileTree.Grows (before after : FileTree) : Prop where
  /-- A folder stays a folder. -/
  folders : ∀ place, before.sightAt? place = some .folder → after.sightAt? place = some .folder
  /-- A file stays a file, perhaps with other bytes. -/
  files : ∀ place content, before.sightAt? place = some (.file content) →
    ∃ other, after.sightAt? place = some (.file other)

theorem FileTree.Grows.sightAt?_ne_none {before after : FileTree} (h : Grows before after)
    {place : List String} (hplace : before.sightAt? place ≠ none) :
    after.sightAt? place ≠ none := by
  obtain ⟨sight, hsight⟩ := Option.ne_none_iff_exists'.mp hplace
  cases sight with
  | folder => simp [h.folders place hsight]
  | file content =>
    obtain ⟨other, hother⟩ := h.files place content hsight
    simp [hother]

theorem FileTree.Grows.trans {first second third : FileTree} (hfirst : Grows first second)
    (hsecond : Grows second third) : Grows first third where
  folders place h := hsecond.folders place (hfirst.folders place h)
  files place content h := by
    obtain ⟨between, hbetween⟩ := hfirst.files place content h
    exact hsecond.files place between hbetween

namespace Disk

open FileTree Wiring.Path

/-! ### Taking steps -/

/-- Where a step leads from a place. -/
def landing (place : List String) : Hop → List String
  | .here => place
  | .up => place.dropLast
  | .down name => place ++ [name]

/-- A step can be taken from a folder, and a step down only to what stands in it. -/
theorem step_eq_ok_iff {tree : FileTree} {place next : List String} {hop : Hop} :
    step tree place hop = .ok next ↔
      tree.sightAt? place = some .folder ∧ next = landing place hop ∧
        ∀ name, hop = .down name → tree.sightAt? (place ++ [name]) ≠ none := by
  rw [sightAt?_eq_some_folder]
  unfold step
  cases hfound : tree.get? place with
  | none => simp
  | some found =>
    cases found with
    | file content => simp
    | folder entries =>
      have hbelow : ∀ name,
          tree.sightAt? (place ++ [name]) = none ↔ entries.lookup name = none := by
        intro name
        rw [sightAt?, get?_append_singleton hfound, Option.map_eq_none_iff]
      cases hop with
      | here => simp [landing, eq_comm]
      | up => simp [landing, eq_comm]
      | down name =>
        have hname : (∀ other, Hop.down name = .down other →
            tree.sightAt? (place ++ [other]) ≠ none) ↔ entries.lookup name ≠ none := by
          rw [Ne, ← hbelow]
          exact ⟨fun h => h name rfl, fun h other hother => Hop.down.inj hother ▸ h⟩
        rw [hname]
        cases hlookup : entries.lookup name with
        | none => simp [hlookup]
        | some below => simp [hlookup, landing, eq_comm]

/-- The first step, and then the others. -/
theorem walk_cons_eq_ok_iff {tree : FileTree} {place last : List String} {hop : Hop}
    {rest : List Hop} :
    walk tree place (hop :: rest) = .ok last ↔
      ∃ next, step tree place hop = .ok next ∧ walk tree next rest = .ok last := by
  rw [walk]
  cases step tree place hop with
  | error fault => simp
  | ok next => simp

/-- Steps one after the other. -/
theorem walk_append_eq_ok_iff {tree : FileTree} {place last : List String}
    {first second : List Hop} :
    walk tree place (first ++ second) = .ok last ↔
      ∃ next, walk tree place first = .ok next ∧ walk tree next second = .ok last := by
  induction first generalizing place with
  | nil => simp [walk]
  | cons hop rest ih =>
    rw [List.cons_append, walk, walk]
    cases step tree place hop with
    | error fault => simp
    | ok next => exact ih

theorem walk_singleton_eq_ok_iff {tree : FileTree} {place last : List String} {hop : Hop} :
    walk tree place [hop] = .ok last ↔ step tree place hop = .ok last := by
  rw [walk_cons_eq_ok_iff]
  simp [walk]

/-- Steps that lead nowhere do so from every folder. -/
theorem walk_idle {tree : FileTree} {place : List String} {idle : List Hop}
    (hidle : ∀ hop ∈ idle, hop = .here) (h : tree.sightAt? place = some .folder) :
    walk tree place idle = .ok place := by
  induction idle with
  | nil => rfl
  | cons hop rest ih =>
    obtain rfl := hidle hop List.mem_cons_self
    have hstep : step tree place .here = .ok place :=
      step_eq_ok_iff.mpr ⟨h, rfl, fun _ hdown => nomatch hdown⟩
    rw [walk, hstep]
    exact ih fun other hother => hidle other (List.mem_cons_of_mem _ hother)

/-- Steps that lead nowhere end where they start. -/
theorem eq_of_walk_idle {tree : FileTree} {place last : List String} {idle : List Hop}
    (hidle : ∀ hop ∈ idle, hop = .here) (h : walk tree place idle = .ok last) :
    last = place := by
  induction idle with
  | nil => exact (Except.ok.inj h).symm
  | cons hop rest ih =>
    obtain rfl := hidle hop List.mem_cons_self
    obtain ⟨next, hnext, hrest⟩ := walk_cons_eq_ok_iff.mp h
    obtain ⟨-, rfl, -⟩ := step_eq_ok_iff.mp hnext
    exact ih (fun other hother => hidle other (List.mem_cons_of_mem _ hother)) hrest

/-- Steps to entries add their names to the place. -/
theorem eq_of_walk_down {tree : FileTree} {place last : List String} {names : List String}
    (h : walk tree place (names.map .down) = .ok last) : last = place ++ names := by
  induction names generalizing place with
  | nil => simpa [walk, eq_comm] using h
  | cons name rest ih =>
    obtain ⟨next, hnext, hrest⟩ := walk_cons_eq_ok_iff.mp h
    obtain ⟨-, rfl, -⟩ := step_eq_ok_iff.mp hnext
    rw [ih hrest, landing, List.append_assoc, List.singleton_append]

/-- Steps can still be taken in a tree that has grown, and lead to the same place. -/
theorem walk_mono {before after : FileTree} (h : Grows before after) {place last : List String}
    {hops : List Hop} (hwalk : walk before place hops = .ok last) :
    walk after place hops = .ok last := by
  induction hops generalizing place with
  | nil => exact hwalk
  | cons hop rest ih =>
    obtain ⟨next, hnext, hrest⟩ := walk_cons_eq_ok_iff.mp hwalk
    obtain ⟨hfolder, hlanding, hbelow⟩ := step_eq_ok_iff.mp hnext
    have hstep : step after place hop = .ok next :=
      step_eq_ok_iff.mpr ⟨h.folders place hfolder, hlanding, fun name hname =>
        h.sightAt?_ne_none (hbelow name hname)⟩
    rw [walk, hstep]
    exact ih hrest

/-! ### Following paths -/

theorem locate_eq_ok_iff {disk : Disk} {path : Path} {place : List String} :
    disk.locate path = .ok place ↔
      path.text ≠ "" ∧ walk disk.tree (disk.start path) (steps path) = .ok place := by
  unfold locate
  by_cases h : path.text = "" <;> simp [h]

/-- In a tree that has grown a path leads to the place it led to. -/
theorem locate_mono {before after : Disk} (h : Grows before.tree after.tree)
    (hcurrent : after.current = before.current) {path : Path} {place : List String}
    (hlocate : before.locate path = .ok place) : after.locate path = .ok place := by
  rw [locate_eq_ok_iff] at hlocate ⊢
  refine ⟨hlocate.1, ?_⟩
  rw [start, hcurrent]
  exact walk_mono h hlocate.2

/-- A path that ends in a name leads to an entry of the folder to which the steps before lead. -/
theorem locate_endsIn {disk : Disk} {path : Path} {name : String} {front : List Hop}
    (hname : path.EndsIn name) (hfront : path.hops = front ++ [.down name])
    {place : List String} :
    disk.locate path = .ok place ↔
      ∃ folder, walk disk.tree (disk.start path) front = .ok folder ∧
        disk.tree.sightAt? folder = some .folder ∧
        disk.tree.sightAt? (folder ++ [name]) ≠ none ∧ place = folder ++ [name] := by
  have hsteps : steps path = front ++ [.down name] := by
    rw [steps, hname.endsInSlash, hfront]
    simp
  rw [locate_eq_ok_iff, hsteps, walk_append_eq_ok_iff, and_iff_right hname.text_ne_empty]
  refine exists_congr fun folder => and_congr_right fun _ => ?_
  rw [walk_singleton_eq_ok_iff, step_eq_ok_iff]
  constructor
  · rintro ⟨hfolder, rfl, hbelow⟩
    exact ⟨hfolder, hbelow name rfl, rfl⟩
  · rintro ⟨hfolder, hbelow, rfl⟩
    refine ⟨hfolder, rfl, fun other hother => ?_⟩
    rw [← Hop.down.inj hother]
    exact hbelow

/-- The place has the name at its end. -/
theorem exists_of_locate {disk : Disk} {path : Path} {name : String} {place : List String}
    (hname : path.EndsIn name) (h : disk.locate path = .ok place) :
    ∃ inside, place = inside ++ [name] := by
  obtain ⟨front, hfront⟩ := hname.exists_hops
  obtain ⟨inside, -, -, -, hplace⟩ := (locate_endsIn hname hfront).mp h
  exact ⟨inside, hplace⟩

/-- A path leads to a place with the name of the path at its end. -/
theorem exists_of_locate_name {disk : Disk} {path : Path} {name : String} {place : List String}
    (hname : path.fileName? = some name) (h : disk.locate path = .ok place) :
    ∃ inside, place = inside ++ [name] := by
  obtain ⟨front, idle, hhops, hidle⟩ := exists_hops_of_fileName? hname
  have hwalk := (locate_eq_ok_iff.mp h).2
  rw [steps, hhops, List.append_assoc, walk_append_eq_ok_iff] at hwalk
  obtain ⟨inside, -, hrest⟩ := hwalk
  obtain ⟨next, hnext, hend⟩ := walk_cons_eq_ok_iff.mp hrest
  obtain ⟨-, rfl, -⟩ := step_eq_ok_iff.mp hnext
  refine ⟨inside, eq_of_walk_idle (fun hop hmem => ?_) hend⟩
  rcases List.mem_append.mp hmem with hmem | hmem
  · exact hidle hop hmem
  · split at hmem
    · exact List.mem_singleton.mp hmem
    · cases hmem

/-! ### What is found -/

theorem find_eq_ok_iff {disk : Disk} {path : Path} {found : FileTree} :
    disk.find path = .ok found ↔
      ∃ place, disk.locate path = .ok place ∧ disk.tree.get? place = some found := by
  unfold find
  cases disk.locate path with
  | error fault => simp
  | ok place => cases hget : disk.tree.get? place <;> simp [hget]

theorem readBytes_eq_ok_iff {disk : Disk} {path : Path} {content : ByteArray} :
    disk.readBytes path = .ok content ↔
      ∃ place, disk.locate path = .ok place ∧ disk.tree.bytesAt? place = some content := by
  have hfind : disk.readBytes path = .ok content ↔ disk.find path = .ok (.file content) := by
    unfold readBytes
    cases disk.find path with
    | error fault => simp
    | ok found => cases found <;> simp
  rw [hfind, find_eq_ok_iff]
  simp only [bytesAt?_eq_some, sightAt?_eq_some_file]

/-- Bytes are a text exactly if they are its encoding. -/
theorem fromUTF8?_eq_some_iff {content : ByteArray} {text : String} :
    String.fromUTF8? content = some text ↔ content = text.toUTF8 := by
  constructor
  · intro h
    unfold String.fromUTF8? at h
    split at h
    · obtain rfl := Option.some.inj h
      rfl
    · cases h
  · rintro rfl
    exact dif_pos text.isValidUTF8

theorem readText_eq_ok_iff {disk : Disk} {path : Path} {text : String} :
    disk.readText path = .ok text ↔ disk.readBytes path = .ok text.toUTF8 := by
  unfold readText
  cases disk.readBytes path with
  | error fault => simp
  | ok content =>
    rw [Except.ok.injEq, ← fromUTF8?_eq_some_iff]
    cases htext : String.fromUTF8? content <;> simp [htext]

theorem isFile_iff {disk : Disk} {path : Path} :
    disk.isFile path = true ↔
      ∃ place content, disk.locate path = .ok place ∧
        disk.tree.sightAt? place = some (.file content) := by
  simp only [sightAt?_eq_some_file]
  have hfind : disk.isFile path = true ↔ ∃ content, disk.find path = .ok (.file content) := by
    unfold isFile
    cases disk.find path with
    | error fault => simp
    | ok found => cases found <;> simp [FileTree.isFolder]
  simp only [hfind, find_eq_ok_iff]
  exact exists_comm

theorem isFolder_iff {disk : Disk} {path : Path} :
    disk.isFolder path = true ↔
      ∃ place, disk.locate path = .ok place ∧ disk.tree.sightAt? place = some .folder := by
  simp only [sightAt?_eq_some_folder]
  have hfind : disk.isFolder path = true ↔ ∃ entries, disk.find path = .ok (.folder entries) := by
    unfold isFolder
    cases disk.find path with
    | error fault => simp
    | ok found => cases found <;> simp [FileTree.isFolder]
  simp only [hfind, find_eq_ok_iff]
  rw [exists_comm]
  simp only [exists_and_left]

/-- What leads to a folder does not lead to a file. -/
theorem isFile_eq_false {disk : Disk} {path : Path} (h : disk.isFolder path = true) :
    disk.isFile path = false := by
  unfold Disk.isFolder at h
  unfold isFile
  split at h
  · simp [h]
  · cases h

/-! ### Where an operation works -/

/-- The last step of a path goes to an entry of the folder to which the steps before lead. -/
theorem target_eq_entry_iff {disk : Disk} {path : Path} {folder : List String} {name : String} :
    disk.target path = .ok (.entry folder name) ↔
      path.text ≠ "" ∧ ∃ front, path.hops = front ++ [.down name] ∧
        walk disk.tree (disk.start path) front = .ok folder ∧
        disk.tree.sightAt? folder = some .folder := by
  unfold target
  by_cases htext : path.text = ""
  · simp [htext]
  rw [if_neg htext, and_iff_right htext]
  rcases List.eq_nil_or_concat path.hops with hnil | ⟨front, hop, hhops⟩
  · simp [hnil]
  rw [List.concat_eq_append] at hhops
  have hunique : ∀ front', front ++ [hop] = front' ++ [Hop.down name] →
      front' = front ∧ hop = .down name := by
    intro front' heq
    obtain ⟨hfront, hhop⟩ := List.append_inj' heq rfl
    exact ⟨hfront.symm, List.singleton_inj.mp hhop⟩
  simp only [hhops, List.getLast?_concat, List.dropLast_concat]
  constructor
  · intro h
    cases hwalk : walk disk.tree (disk.start path) front with
    | error fault => simp [hwalk] at h
    | ok inner =>
      rw [hwalk] at h
      cases hfound : disk.tree.get? inner with
      | none => simp [hfound] at h
      | some found =>
        cases found <;> cases hop <;> simp [hfound] at h
        obtain ⟨rfl, rfl⟩ := h
        exact ⟨front, rfl, hwalk, sightAt?_eq_some_folder.mpr ⟨_, hfound⟩⟩
  · rintro ⟨front', heq, hwalk, hfolder⟩
    obtain ⟨rfl, rfl⟩ := hunique front' heq
    obtain ⟨entries, hentries⟩ := sightAt?_eq_some_folder.mp hfolder
    simp [hwalk, hentries]

end Disk

end Wiring
