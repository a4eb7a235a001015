import Wiring.FileTree

/-!
# What an update of a file tree changes

Files and folders are only ever put at an entry of a folder that is there, and what is put there
has no entries of its own: a file, or a new folder.  Such an update is seen at its own place and
nowhere else.  That is said twice: for what is seen at every single place, and for the list of
all files, which stays the same but for files of names that are left out of it.

## Main definitions

* `FileTree.Sight`, `FileTree.sightAt?` — what is seen at a place.
* `FileTree.bytesAt?` — the bytes of the file at a place.
* `FileTree.keptPlaces` — the places of all files whose names pass a test.

## Main results

* `FileTree.sightAt?_put` — what is seen after an update.
* `FileTree.get?_put_kept` — the files with names that pass a test are listed as before.
-/

namespace Wiring.FileTree

/-! ### Looking at a place -/

/-- What is seen of a file or folder without looking below it. -/
inductive Sight where
  /-- A folder. -/
  | folder
  /-- A file with its bytes. -/
  | file (content : ByteArray)

/-- What is seen of a tree at its top. -/
def sight : FileTree → Sight
  | file content => .file content
  | folder _ => .folder

/-- What is seen at a place, if anything stands there. -/
def sightAt? (tree : FileTree) (place : List String) : Option Sight :=
  (tree.get? place).map sight

/-- The bytes of the file at a place, if one stands there. -/
def bytesAt? (tree : FileTree) (place : List String) : Option ByteArray :=
  (tree.get? place).bind content?

@[simp] theorem sight_file (content : ByteArray) : (file content).sight = .file content := rfl

@[simp] theorem sight_folder (entries : List (String × FileTree)) :
    (folder entries).sight = .folder := rfl

@[simp] theorem get?_nil (tree : FileTree) : tree.get? [] = some tree := rfl

theorem get?_cons (tree : FileTree) (name : String) (place : List String) :
    tree.get? (name :: place) = (tree.entry? name).bind fun below => below.get? place := by
  rw [get?]
  cases tree.entry? name <;> rfl

/-- A place in a folder goes on in the entry of that name. -/
theorem get?_cons_of_lookup {entries : List (String × FileTree)} {name : String}
    {below : FileTree} (h : entries.lookup name = some below) (place : List String) :
    (folder entries).get? (name :: place) = below.get? place := by
  rw [get?_cons, entry?, FileTree.entries, h, Option.bind_some]

theorem get?_append (tree : FileTree) (place below : List String) :
    tree.get? (place ++ below) = (tree.get? place).bind fun inner => inner.get? below := by
  induction place generalizing tree with
  | nil => rfl
  | cons name rest ih =>
    rw [List.cons_append, get?_cons, get?_cons]
    cases tree.entry? name with
    | none => rfl
    | some inner => exact ih inner

/-- The entry of a folder is found by its name. -/
theorem get?_append_singleton {tree : FileTree} {place : List String}
    {entries : List (String × FileTree)} (h : tree.get? place = some (.folder entries))
    (name : String) : tree.get? (place ++ [name]) = entries.lookup name := by
  rw [get?_append, h, Option.bind_some, get?_cons]
  change (entries.lookup name).bind some = entries.lookup name
  cases entries.lookup name <;> rfl

theorem sightAt?_eq_some_folder {tree : FileTree} {place : List String} :
    tree.sightAt? place = some .folder ↔ ∃ entries, tree.get? place = some (.folder entries) := by
  unfold sightAt?
  cases tree.get? place with
  | none => simp
  | some found => cases found <;> simp

theorem sightAt?_eq_some_file {tree : FileTree} {place : List String} {content : ByteArray} :
    tree.sightAt? place = some (.file content) ↔ tree.get? place = some (.file content) := by
  unfold sightAt?
  cases tree.get? place with
  | none => simp
  | some found => cases found <;> simp

theorem bytesAt?_eq_some {tree : FileTree} {place : List String} {content : ByteArray} :
    tree.bytesAt? place = some content ↔ tree.sightAt? place = some (.file content) := by
  rw [sightAt?_eq_some_file]
  unfold bytesAt?
  cases tree.get? place with
  | none => simp
  | some found => cases found <;> simp [content?]

/-- Places at which the same is seen hold the same bytes. -/
theorem bytesAt?_congr {tree other : FileTree} {place : List String}
    (h : other.sightAt? place = tree.sightAt? place) :
    other.bytesAt? place = tree.bytesAt? place := by
  refine Option.ext fun content => ?_
  rw [bytesAt?_eq_some, bytesAt?_eq_some, h]

/-! ### Updates -/

theorem lookup_cons_eq_ite {α : Type} (other first : String) (value : α)
    (rest : List (String × α)) :
    List.lookup other ((first, value) :: rest) =
      if other = first then some value else rest.lookup other := by
  rw [List.lookup_cons]
  by_cases h : other = first
  · simp [h]
  · have hbeq : (other == first) = false := by simpa using h
    rw [hbeq, if_neg h]

theorem lookup_setEntry (name other : String) (new : FileTree)
    (entries : List (String × FileTree)) :
    (setEntry name new entries).lookup other =
      if other = name then some new else entries.lookup other := by
  induction entries with
  | nil => rw [setEntry, lookup_cons_eq_ite]
  | cons entry rest ih =>
    obtain ⟨first, old⟩ := entry
    unfold setEntry
    by_cases hfirst : name = first
    · subst hfirst
      rw [if_pos rfl, lookup_cons_eq_ite, lookup_cons_eq_ite]
      by_cases h : other = name <;> simp [h]
    · rw [if_neg hfirst, lookup_cons_eq_ite, lookup_cons_eq_ite, ih]
      by_cases h : other = first
      · subst h
        simp [Ne.symm hfirst]
      · simp [h]

theorem put_singleton (entries : List (String × FileTree)) (name : String) (new : FileTree) :
    (folder entries).put [name] new = folder (setEntry name new entries) := by
  rw [put]

/-- An update further down is an update of an entry. -/
theorem put_cons {entries : List (String × FileTree)} {name : String} {below : FileTree}
    (hbelow : entries.lookup name = some below) {place : List String} (hplace : place ≠ [])
    (new : FileTree) :
    (folder entries).put (name :: place) new =
      folder (setEntry name (below.put place new) entries) := by
  cases place with
  | nil => exact absurd rfl hplace
  | cons next rest => rw [put, hbelow]

/-- A place that starts in a folder goes on in one of its entries. -/
theorem exists_entry_of_get?_cons {tree : FileTree} {name : String} {place : List String}
    {found : FileTree} (h : tree.get? (name :: place) = some found) :
    ∃ entries below, tree = folder entries ∧ entries.lookup name = some below ∧
      below.get? place = some found := by
  rw [get?_cons] at h
  obtain ⟨below, hentry, hbelow⟩ := Option.bind_eq_some_iff.mp h
  cases tree with
  | file content => cases hentry
  | folder entries => exact ⟨entries, below, rfl, hentry, hbelow⟩

/-- Nothing stands below a file or an empty folder. -/
theorem get?_cons_of_entries_eq_nil {tree : FileTree} (h : tree.entries = []) (name : String)
    (place : List String) : tree.get? (name :: place) = none := by
  rw [get?_cons, entry?, h]
  rfl

/-- **What is seen after an update.**  A file or an empty folder that is put at an entry of a
folder, where at most another file or empty folder stood before, is seen there; everywhere else
is seen what was seen before. -/
theorem sightAt?_put {tree new : FileTree} {place : List String} {name : String}
    (hfolder : tree.sightAt? place = some .folder) (hnew : new.entries = [])
    (hold : ∀ old, tree.get? (place ++ [name]) = some old → old.entries = [])
    (other : List String) :
    (tree.put (place ++ [name]) new).sightAt? other =
      if other = place ++ [name] then some new.sight else tree.sightAt? other := by
  rw [sightAt?_eq_some_folder] at hfolder
  obtain ⟨inside, hfolder⟩ := hfolder
  unfold sightAt?
  induction place generalizing tree other with
  | nil =>
    obtain rfl := Option.some.inj hfolder
    rw [List.nil_append, put_singleton]
    cases other with
    | nil => simp
    | cons first rest =>
      rw [get?_cons, get?_cons, entry?, entry?, entries, entries, lookup_setEntry]
      by_cases hfirst : first = name
      · subst hfirst
        rw [if_pos rfl, Option.bind_some]
        cases rest with
        | nil => simp
        | cons next more =>
          -- below the entry there was nothing, and there is nothing now
          rw [if_neg (by simp), get?_cons_of_entries_eq_nil hnew]
          cases hlookup : inside.lookup first with
          | none => rfl
          | some old =>
            have hempty := hold old (get?_cons_of_lookup hlookup [])
            rw [Option.bind_some, get?_cons_of_entries_eq_nil hempty]
      · rw [if_neg hfirst, if_neg (by simp [hfirst])]
  | cons head place ih =>
    obtain ⟨entries, below, rfl, hbelow, hinside⟩ := exists_entry_of_get?_cons hfolder
    rw [List.cons_append, put_cons hbelow (by simp)]
    cases other with
    | nil => simp
    | cons first rest =>
      rw [get?_cons, get?_cons, entry?, entry?, FileTree.entries, FileTree.entries,
        lookup_setEntry]
      by_cases hfirst : first = head
      · subst hfirst
        have holdBelow : ∀ old, below.get? (place ++ [name]) = some old → old.entries = [] := by
          intro old hget
          refine hold old ?_
          rwa [List.cons_append, get?_cons_of_lookup hbelow]
        rw [if_pos rfl, Option.bind_some, hbelow, Option.bind_some, ih holdBelow rest hinside]
        simp
      · rw [if_neg hfirst, if_neg (by simp [hfirst])]

/-! ### Listing files -/

/-- The places of all files below whose names pass a test, after the given place. -/
def keptPlacesFrom (keep : String → Bool) (place : List String) (tree : FileTree) :
    List (List String) :=
  ((tree.filesFrom place).map Prod.fst).filter fun found => keep (found.getLastD "")

/-- The places of all files whose names pass a test. -/
def keptPlaces (keep : String → Bool) (tree : FileTree) : List (List String) :=
  tree.keptPlacesFrom keep []

/-- The places of all files in a list of entries whose names pass a test. -/
def keptPlacesOf (keep : String → Bool) (place : List String)
    (entries : List (String × FileTree)) : List (List String) :=
  ((filesOfEntries place entries).map Prod.fst).filter fun found => keep (found.getLastD "")

theorem keptPlacesFrom_folder (keep : String → Bool) (place : List String)
    (entries : List (String × FileTree)) :
    (folder entries).keptPlacesFrom keep place = keptPlacesOf keep place entries := by
  rw [keptPlacesFrom, filesFrom, keptPlacesOf]

theorem keptPlacesOf_cons (keep : String → Bool) (place : List String) (name : String)
    (tree : FileTree) (rest : List (String × FileTree)) :
    keptPlacesOf keep place ((name, tree) :: rest) =
      tree.keptPlacesFrom keep (place ++ [name]) ++ keptPlacesOf keep place rest := by
  rw [keptPlacesOf, filesOfEntries, List.map_append, List.filter_append]
  rfl

/-- The list does not change when an entry is replaced by one in which the same is kept. -/
theorem keptPlacesOf_setEntry {keep : String → Bool} {place : List String} {name : String}
    {new : FileTree} {entries : List (String × FileTree)}
    (h : new.keptPlacesFrom keep (place ++ [name]) =
      ((entries.lookup name).map (keptPlacesFrom keep (place ++ [name]))).getD []) :
    keptPlacesOf keep place (setEntry name new entries) = keptPlacesOf keep place entries := by
  induction entries with
  | nil =>
    rw [setEntry, keptPlacesOf_cons, h]
    rfl
  | cons entry rest ih =>
    obtain ⟨first, old⟩ := entry
    unfold setEntry
    by_cases hfirst : name = first
    · subst hfirst
      rw [if_pos rfl, keptPlacesOf_cons, keptPlacesOf_cons, h, List.lookup_cons_self]
      rfl
    · have hbeq : (name == first) = false := by simpa using hfirst
      rw [if_neg hfirst, keptPlacesOf_cons, keptPlacesOf_cons, ih]
      rw [h, List.lookup_cons, hbeq]

/-- The file or empty folder adds nothing to the list when it stands under this name. -/
def Unlisted (keep : String → Bool) (name : String) (tree : FileTree) : Prop :=
  tree.entries = [] ∧ (tree.isFolder = false → keep name = false)

theorem Unlisted.keptPlacesFrom_eq_nil {keep : String → Bool} {name : String} {tree : FileTree}
    (h : Unlisted keep name tree) (place : List String) :
    tree.keptPlacesFrom keep (place ++ [name]) = [] := by
  obtain ⟨hempty, hname⟩ := h
  cases tree with
  | file content => simp [keptPlacesFrom, filesFrom, hname rfl]
  | folder entries =>
    obtain rfl : entries = [] := hempty
    rfl

/-- An update under a name that is left out of the list does not change it. -/
theorem keptPlacesFrom_put {keep : String → Bool} {tree new : FileTree} {place : List String}
    {name : String} (hfolder : tree.sightAt? place = some .folder)
    (hnew : Unlisted keep name new)
    (hold : ∀ old, tree.get? (place ++ [name]) = some old → Unlisted keep name old)
    (above : List String) :
    (tree.put (place ++ [name]) new).keptPlacesFrom keep above =
      tree.keptPlacesFrom keep above := by
  rw [sightAt?_eq_some_folder] at hfolder
  obtain ⟨inside, hfolder⟩ := hfolder
  induction place generalizing tree above with
  | nil =>
    obtain rfl := Option.some.inj hfolder
    rw [List.nil_append, put_singleton, keptPlacesFrom_folder, keptPlacesFrom_folder]
    refine keptPlacesOf_setEntry ?_
    rw [hnew.keptPlacesFrom_eq_nil]
    cases hlookup : inside.lookup name with
    | none => rfl
    | some old =>
      have hunlisted := hold old (by rw [get?_append_singleton hfolder, hlookup])
      rw [Option.map_some, hunlisted.keptPlacesFrom_eq_nil]
      rfl
  | cons head place ih =>
    obtain ⟨entries, below, rfl, hbelow, hinside⟩ := exists_entry_of_get?_cons hfolder
    rw [List.cons_append, put_cons hbelow (by simp), keptPlacesFrom_folder,
      keptPlacesFrom_folder]
    refine keptPlacesOf_setEntry ?_
    rw [hbelow, Option.map_some, Option.getD_some]
    refine ih (fun old hget => hold old ?_) _ hinside
    rwa [List.cons_append, get?_cons_of_lookup hbelow]

/-- **The files with names that pass a test are listed as before**, below every place of the
tree, when a file or an empty folder is put under a name that does not pass. -/
theorem get?_put_kept {keep : String → Bool} {tree new : FileTree} {place : List String}
    {name : String} (hfolder : tree.sightAt? place = some .folder)
    (hnew : Unlisted keep name new)
    (hold : ∀ old, tree.get? (place ++ [name]) = some old → Unlisted keep name old)
    {other : List String} {found : FileTree} (hfound : tree.get? other = some found)
    (hother : other ≠ place ++ [name]) :
    ∃ after, (tree.put (place ++ [name]) new).get? other = some after ∧
      after.keptPlaces keep = found.keptPlaces keep := by
  rw [sightAt?_eq_some_folder] at hfolder
  obtain ⟨inside, hfolder⟩ := hfolder
  induction other generalizing tree place with
  | nil =>
    obtain rfl := Option.some.inj hfound
    refine ⟨_, rfl, keptPlacesFrom_put (sightAt?_eq_some_folder.mpr ⟨inside, hfolder⟩) hnew hold []⟩
  | cons first rest ih =>
    obtain ⟨entries, below, rfl, hbelow, hrest⟩ := exists_entry_of_get?_cons hfound
    cases place with
    | nil =>
      rw [List.nil_append, put_singleton, get?_cons, entry?, FileTree.entries, lookup_setEntry]
      by_cases hfirst : first = name
      · subst hfirst
        -- the place would lie below a file or an empty folder
        have hempty := (hold below (get?_cons_of_lookup hbelow [])).1
        cases rest with
        | nil => exact absurd rfl hother
        | cons next more =>
          rw [get?_cons_of_entries_eq_nil hempty] at hrest
          cases hrest
      · rw [if_neg hfirst, hbelow]
        exact ⟨found, hrest, rfl⟩
    | cons head place =>
      obtain ⟨entries', inner, heq, hinner, hinside⟩ := exists_entry_of_get?_cons hfolder
      obtain rfl := FileTree.folder.inj heq
      rw [List.cons_append, put_cons hinner (by simp), get?_cons, entry?, FileTree.entries,
        lookup_setEntry]
      by_cases hfirst : first = head
      · subst hfirst
        obtain rfl := Option.some.inj (hbelow.symm.trans hinner)
        rw [if_pos rfl, Option.bind_some]
        have hne : rest ≠ place ++ [name] := fun h => hother (by rw [h]; rfl)
        refine ih (fun old hget => hold old ?_) hrest hne hinside
        rwa [List.cons_append, get?_cons_of_lookup hbelow]
      · rw [if_neg hfirst, hbelow]
        exact ⟨found, hrest, rfl⟩

end Wiring.FileTree
