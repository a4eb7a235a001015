import Mathlib.Data.List.Lex
import Mathlib.Data.List.Nodup
import Mathlib.Data.List.Sort
import Mathlib.Data.String.Basic
import Wiring.Proofs.ManifestSearch
import Wiring.Proofs.RecordReading

/-!
# The order of manifests

Folders list their entries in any order, and so do walks over a tree.  Manifests are put in the
order of their paths, component by component; as no path comes twice, whatever lists the same files
gives the same list of manifests.

## Main definitions

* `FileTree.Proper` — the entries of each folder have names, and different ones.
* `FileTree.Walk` — a list of everything in a tree, in any order.
* `FileTree.walkFrom` — the walk in the order in which folders list their entries.
* `FileTree.ManifestAt` — a manifest stands at a place.
* `manifestsOfWalk` — the manifests that a walk comes upon.

## Main results

* `FileTree.Proper.walk` — every proper tree has a walk.
* `Path.components_pathBelow`, `Path.le_pathBelow` — paths below a folder and their order.
* `isManifest_pathBelow_iff` — which files are manifests.
* `exists_manifestsOfWalk` — the manifests of a walk, said without its order.
* `manifestsOfWalk_eq` — every walk over a folder comes upon the manifests in it.
-/

namespace Wiring

open Wiring.Path FileTree Disk

instance (name : String) : Decidable (IsName name) :=
  inferInstanceAs (Decidable ('/' ∉ name.toList ∧ hop? name.toList = some (.down name)))

namespace FileTree

/-! ### Proper trees -/

/-- The entries of each folder have names, and different ones. -/
inductive Proper : FileTree → Prop where
  /-- A file. -/
  | file (content : ByteArray) : Proper (.file content)
  /-- A folder. -/
  | folder {entries : List (String × FileTree)} (distinct : (entries.map Prod.fst).Nodup)
      (names : ∀ entry ∈ entries, IsName entry.1) (below : ∀ entry ∈ entries, Proper entry.2) :
      Proper (.folder entries)

theorem Proper.lookup_eq_some_iff {entries : List (String × FileTree)}
    (h : (FileTree.folder entries).Proper) {name : String} {below : FileTree} :
    entries.lookup name = some below ↔ (name, below) ∈ entries := by
  cases h with
  | folder distinct _ _ => exact Json.lookup_eq_some_iff_mem distinct

/-- Whatever stands in a proper tree is proper, and the way to it goes by names. -/
theorem Proper.get? {tree found : FileTree} (h : tree.Proper) {place : List String}
    (hget : tree.get? place = some found) : found.Proper ∧ ∀ name ∈ place, IsName name := by
  induction place generalizing tree with
  | nil =>
    obtain rfl := Option.some.inj hget
    exact ⟨h, by simp⟩
  | cons name rest ih =>
    obtain ⟨entries, below, rfl, hlookup, hbelow⟩ := exists_entry_of_get?_cons hget
    have hmem := h.lookup_eq_some_iff.mp hlookup
    cases h with
    | folder _ names proper =>
      obtain ⟨hfound, hrest⟩ := ih (proper _ hmem) hbelow
      exact ⟨hfound, List.forall_mem_cons.mpr ⟨names _ hmem, hrest⟩⟩

/-! ### Walks -/

/-- A walk over a tree comes upon everything in it once, in any order. -/
structure Walk (tree : FileTree) (walk : List (List String × FileTree)) : Prop where
  /-- No place comes twice. -/
  once : (walk.map Prod.fst).Nodup
  /-- Whatever stands in the tree comes, and nothing else. -/
  complete : ∀ place found, (place, found) ∈ walk ↔ tree.get? place = some found

/-- The order of a walk can be changed. -/
theorem Walk.perm {tree : FileTree} {walk other : List (List String × FileTree)}
    (h : tree.Walk walk) (hperm : other.Perm walk) : tree.Walk other where
  once := (hperm.map Prod.fst).nodup_iff.mpr h.once
  complete place found := hperm.mem_iff.trans (h.complete place found)

/-- The files that a walk comes upon. -/
def filesOfWalk (walk : List (List String × FileTree)) : List (List String × FileTree) :=
  walk.filter fun entry => !entry.2.isFolder

/-- A walk comes upon every file once. -/
theorem Walk.files {tree : FileTree} {walk : List (List String × FileTree)} (h : tree.Walk walk) :
    ((filesOfWalk walk).map Prod.fst).Nodup ∧
      ∀ place, place ∈ (filesOfWalk walk).map Prod.fst ↔ (tree.bytesAt? place).isSome := by
  refine ⟨h.once.sublist (List.filter_sublist.map _), fun place => ?_⟩
  rw [List.mem_map, Option.isSome_iff_exists]
  constructor
  · rintro ⟨⟨place, found⟩, hmem, rfl⟩
    obtain ⟨hwalk, hfile⟩ := List.mem_filter.mp hmem
    have hget := (h.complete _ _).mp hwalk
    cases found with
    | file content => exact ⟨content, bytesAt?_eq_some.mpr (sightAt?_eq_some_file.mpr hget)⟩
    | folder entries => cases hfile
  · rintro ⟨content, hcontent⟩
    have hget := sightAt?_eq_some_file.mp (bytesAt?_eq_some.mp hcontent)
    exact ⟨(place, .file content), List.mem_filter.mpr ⟨(h.complete _ _).mpr hget, rfl⟩, rfl⟩

mutual

/-- Everything in a tree, with its places after the given one; a folder comes before what is in it,
and its entries come in the order in which it lists them. -/
def walkFrom (place : List String) : FileTree → List (List String × FileTree)
  | file content => [(place, .file content)]
  | folder entries => (place, .folder entries) :: walkOfEntries place entries

/-- Everything in a list of entries. -/
def walkOfEntries (place : List String) :
    List (String × FileTree) → List (List String × FileTree)
  | [] => []
  | (name, tree) :: rest => walkFrom (place ++ [name]) tree ++ walkOfEntries place rest

end

theorem walkOfEntries_eq_flatMap (place : List String) (entries : List (String × FileTree)) :
    walkOfEntries place entries =
      entries.flatMap fun entry => entry.2.walkFrom (place ++ [entry.1]) := by
  induction entries with
  | nil => rw [walkOfEntries, List.flatMap_nil]
  | cons entry rest ih => rw [walkOfEntries, List.flatMap_cons, ih]

mutual

/-- Files are listed in the order of this walk. -/
theorem map_fst_filesFrom (place : List String) :
    ∀ tree : FileTree, (tree.filesFrom place).map Prod.fst =
      (filesOfWalk (tree.walkFrom place)).map Prod.fst
  | file content => by rw [filesFrom, walkFrom]; rfl
  | folder entries => by
      rw [filesFrom, map_fst_filesOfEntries place entries, walkFrom]
      rfl

theorem map_fst_filesOfEntries (place : List String) :
    ∀ entries : List (String × FileTree), (filesOfEntries place entries).map Prod.fst =
      (filesOfWalk (walkOfEntries place entries)).map Prod.fst
  | [] => by rw [filesOfEntries, walkOfEntries]; rfl
  | (name, tree) :: rest => by
      rw [filesOfEntries, walkOfEntries, filesOfWalk, List.filter_append, List.map_append,
        List.map_append, map_fst_filesFrom _ tree, map_fst_filesOfEntries place rest]
      rfl

end

/-- The walk comes upon what stands in a proper tree. -/
theorem Proper.mem_walkFrom {tree : FileTree} (h : tree.Proper) (place : List String)
    {found : List String × FileTree} :
    found ∈ tree.walkFrom place ↔
      ∃ below, found.1 = place ++ below ∧ tree.get? below = some found.2 := by
  obtain ⟨inside, seen⟩ := found
  induction h generalizing place with
  | file content =>
    rw [walkFrom, List.mem_singleton, Prod.mk.injEq]
    constructor
    · rintro ⟨rfl, rfl⟩
      exact ⟨[], (List.append_nil _).symm, rfl⟩
    · rintro ⟨below, hplace, hget⟩
      cases below with
      | nil => exact ⟨hplace.trans (List.append_nil _), (Option.some.inj hget).symm⟩
      | cons name rest => cases hget
  | @folder entries distinct names proper ih =>
    have htree : (FileTree.folder entries).Proper := .folder distinct names proper
    rw [walkFrom, List.mem_cons, walkOfEntries_eq_flatMap, List.mem_flatMap, Prod.mk.injEq]
    constructor
    · rintro (⟨rfl, rfl⟩ | ⟨⟨name, inner⟩, hmem, hfound⟩)
      · exact ⟨[], (List.append_nil _).symm, rfl⟩
      · obtain ⟨below, hplace, hget⟩ := (ih _ hmem _).mp hfound
        refine ⟨name :: below, by simpa using hplace, ?_⟩
        rwa [get?_cons_of_lookup (htree.lookup_eq_some_iff.mpr hmem)]
    · rintro ⟨below, hplace, hget⟩
      cases below with
      | nil => exact .inl ⟨hplace.trans (List.append_nil _), (Option.some.inj hget).symm⟩
      | cons name rest =>
        obtain ⟨_, inner, heq, hlookup, hinner⟩ := exists_entry_of_get?_cons hget
        obtain rfl := FileTree.folder.inj heq
        have hmem := htree.lookup_eq_some_iff.mp hlookup
        exact .inr ⟨(name, inner), hmem, (ih _ hmem _).mpr ⟨rest, by simpa using hplace, hinner⟩⟩

/-- The walk comes to no place twice. -/
theorem Proper.nodup_walkFrom {tree : FileTree} (h : tree.Proper) (place : List String) :
    ((tree.walkFrom place).map Prod.fst).Nodup := by
  induction h generalizing place with
  | file content =>
    rw [walkFrom]
    exact List.nodup_singleton _
  | @folder entries distinct names proper ih =>
    -- what comes from an entry stands below the name of the entry
    have hbelow : ∀ entry ∈ entries,
        ∀ inside ∈ (entry.2.walkFrom (place ++ [entry.1])).map Prod.fst,
          ∃ rest, inside = place ++ entry.1 :: rest := by
      intro entry hmem inside hinside
      obtain ⟨found, hfound, rfl⟩ := List.mem_map.mp hinside
      obtain ⟨rest, hplace, -⟩ := ((proper _ hmem).mem_walkFrom _).mp hfound
      exact ⟨rest, by simpa using hplace⟩
    rw [walkFrom, List.map_cons, List.nodup_cons, walkOfEntries_eq_flatMap, List.map_flatMap,
      List.nodup_flatMap]
    refine ⟨fun hplace => ?_, fun entry hmem => ih entry hmem _, ?_⟩
    · obtain ⟨entry, hmem, hinside⟩ := List.mem_flatMap.mp hplace
      obtain ⟨rest, hrest⟩ := hbelow entry hmem place hinside
      simp at hrest
    · refine (List.pairwise_map.mp distinct).imp_of_mem fun {first second} hfirst hsecond hne => ?_
      refine List.disjoint_left.mpr fun inside hin hin' => ?_
      obtain ⟨rest, rfl⟩ := hbelow first hfirst inside hin
      obtain ⟨other, hother⟩ := hbelow second hsecond _ hin'
      exact hne (List.cons.inj (List.append_cancel_left hother)).1

/-- **Every proper tree has a walk.** -/
theorem Proper.walk {tree : FileTree} (h : tree.Proper) : tree.Walk (tree.walkFrom []) where
  once := h.nodup_walkFrom []
  complete place found := by
    rw [h.mem_walkFrom []]
    constructor
    · rintro ⟨below, hplace, hget⟩
      rwa [show place = below from hplace]
    · exact fun hget => ⟨place, rfl, hget⟩

end FileTree

/-! ### Paths below a folder -/

namespace Path

section

variable {place other : List String}

/-- The components of a path below a folder: those of the folder, and the names of the way. -/
theorem components_pathBelow (folder : Path) (h : ∀ name ∈ place, IsName name) :
    (pathBelow folder place).components = folder.components ++ place.map .entry := by
  have hroot : ∀ name ∈ place, startsAtRoot name = false := fun name hmem =>
    (h name hmem).startsAtRoot
  have hmap : (place.map Hop.down).filterMap Hop.component? = place.map .entry := by
    rw [List.filterMap_map]
    exact congrFun (List.filterMap_eq_map (f := Component.entry)) place
  unfold components pathBelow
  rw [isAbsolute_foldl_push hroot, hops_foldl_push hroot, hops_names h, List.filterMap_append, hmap]
  split
  · rfl
  · -- a dot that the folder starts with is a component, so its first step is looked at
    cases folder.hops with
    | nil =>
      cases place with
      | nil => rfl
      | cons name rest => simpa using hmap
    | cons hop rest =>
      cases hop with
      | here =>
        rw [List.cons_append]
        dsimp only
        rw [List.filterMap_append, hmap, List.cons_append]
      | up => rw [List.cons_append, ← hmap, ← List.filterMap_append, List.cons_append]
      | down name => rw [List.cons_append, ← hmap, ← List.filterMap_append, List.cons_append]

theorem before_self (component : Component) : component.before component = false := by
  cases component with
  | entry name => exact decide_eq_false (String.lt_irrefl name)
  | _ => rfl

theorem notAfter_append (front back rest : List Component) :
    notAfter (front ++ back) (front ++ rest) = notAfter back rest := by
  induction front with
  | nil => rfl
  | cons component front ih =>
    rw [List.cons_append, List.cons_append, notAfter, before_self, ih]
    simp

/-- Ways are compared by the first name in which they differ. -/
theorem cons_le_cons_iff {name name' : String} :
    name :: place ≤ name' :: other ↔ name < name' ∨ name = name' ∧ place ≤ other := by
  have hlt : name :: place < name' :: other ↔ name < name' ∨ name = name' ∧ place < other :=
    List.cons_lt_cons_iff
  rw [le_iff_lt_or_eq, hlt, le_iff_lt_or_eq (a := place), List.cons.injEq, and_or_left, or_assoc]

/-- Names are compared one after the other. -/
theorem notAfter_entries (place other : List String) :
    notAfter (place.map .entry) (other.map .entry) = decide (place ≤ other) := by
  induction place generalizing other with
  | nil =>
    refine (decide_eq_true (le_iff_lt_or_eq.mpr ?_)).symm
    exact (List.lex_nil_or_eq_nil other).imp id Eq.symm
  | cons name rest ih =>
    cases other with
    | nil =>
      refine (decide_eq_false fun h => ?_).symm
      rcases le_iff_lt_or_eq.mp h with hlt | heq
      · cases hlt
      · cases heq
    | cons name' rest' =>
      rw [List.map_cons, List.map_cons, notAfter, ih, Bool.eq_iff_iff, decide_eq_true_iff,
        cons_le_cons_iff, Bool.or_eq_true, Bool.and_eq_true, decide_eq_true_iff,
        decide_eq_true_iff, Component.entry.injEq, Component.before, decide_eq_true_iff]

/-- The order of paths below a folder is that of the names that lead to them. -/
theorem le_pathBelow (folder : Path) (h : ∀ name ∈ place, IsName name)
    (h' : ∀ name ∈ other, IsName name) :
    (pathBelow folder place).le (pathBelow folder other) = decide (place ≤ other) := by
  rw [Path.le, components_pathBelow folder h, components_pathBelow folder h', notAfter_append,
    notAfter_entries]

end

end Path

/-! ### Names of manifests -/

/-- A text is cut at a separator after which there is no other. -/
theorem Text.splitLast?_append {sep : Char} (before : List Char) {after : List Char}
    (h : sep ∉ after) : splitLast? sep (before ++ sep :: after) = some (before, after) := by
  induction before with
  | nil => simp [splitLast?, splitLast?_eq_none_iff.mpr h]
  | cons c before ih => rw [List.cons_append, splitLast?, ih]

/-- The file is a manifest by its name: a stem with the extension, and not the name of an index. -/
def IsManifestName (name : String) : Prop :=
  (∃ stem, stem ≠ "" ∧ name = stem ++ ".json") ∧ name ≠ Provenance.fileName

theorem extension?_eq_json_iff {path : Path} {name : String} (h : path.fileName? = some name) :
    path.extension? = some "json" ↔ ∃ stem, stem ≠ "" ∧ name = stem ++ ".json" := by
  rw [extension?, h, Option.bind_some]
  constructor
  · intro hextension
    split at hextension
    · cases hextension
    · rename_i before after hne hcut
      obtain rfl := String.ofList_eq.mp (Option.some.inj hextension)
      refine ⟨String.ofList before, fun hempty => hne (String.ofList_eq.mp hempty), ?_⟩
      rw [← String.toList_inj, (Text.eq_of_splitLast? hcut).1]
      simp [String.toList_append]
    · cases hextension
  · rintro ⟨stem, hstem, rfl⟩
    have hcut : Text.splitLast? '.' (stem ++ ".json").toList =
        some (stem.toList, "json".toList) := by
      rw [String.toList_append]
      exact Text.splitLast?_append stem.toList (by decide)
    have hne : stem.toList ≠ [] := fun hnil => hstem (String.toList_eq_nil_iff.mp hnil)
    rw [hcut]
    cases hcs : stem.toList with
    | nil => exact absurd hcs hne
    | cons c cs => rfl

/-- **Which files are manifests** is told by their names alone. -/
theorem isManifest_pathBelow_iff (folder : Path) {above : List String} {name : String}
    (h : IsName name) :
    isManifest (pathBelow folder (above ++ [name])) = true ↔ IsManifestName name := by
  have hpath : pathBelow folder (above ++ [name]) = (pathBelow folder above).push name := by
    rw [pathBelow, List.foldl_append]
    rfl
  have hname := (endsIn_push (pathBelow folder above) h).fileName?
  rw [hpath, isManifest, isJson, hname, Bool.and_eq_true, decide_eq_true_iff, decide_eq_true_iff,
    extension?_eq_json_iff hname, IsManifestName, Ne, Option.some.injEq]

/-- A manifest stands at the place. -/
def FileTree.ManifestAt (tree : FileTree) (place : List String) : Prop :=
  (tree.bytesAt? place).isSome ∧ ∃ above name, place = above ++ [name] ∧ IsManifestName name

/-! ### Manifests of walks -/

/-- Ways that come one after the other are told by which ones they are. -/
theorem eq_of_increasing_places {places others : List (List String)}
    (h : places.Pairwise (List.Lex (· < ·))) (h' : others.Pairwise (List.Lex (· < ·)))
    (hmem : ∀ place, place ∈ places ↔ place ∈ others) : places = others := by
  have hirrefl : Std.Irrefl (List.Lex (α := String) (· < ·)) :=
    ⟨fun place => lt_irrefl place⟩
  have hantisymm : Std.Antisymm (List.Lex (α := String) (· < ·)) :=
    ⟨fun place other hlt hgt => absurd hgt (lt_asymm (a := place) (b := other) hlt)⟩
  exact List.Pairwise.eq_of_mem_iff h h' hmem

/-- Different ways come one after the other once they are sorted. -/
theorem increasing_mergeSort_places {places : List (List String)} (h : places.Nodup) :
    (places.mergeSort fun place other => decide (place ≤ other)).Pairwise (List.Lex (· < ·)) := by
  have hdistinct := (List.mergeSort_perm places fun place other =>
    decide (place ≤ other)).nodup_iff.mpr h
  have hsorted : (places.mergeSort fun place other => decide (place ≤ other)).Pairwise
      fun place other => decide (place ≤ other) = true := by
    refine List.pairwise_mergeSort (fun first second third hle hle' => ?_)
      (fun place other => by simpa using le_total place other) places
    exact decide_eq_true (le_trans (of_decide_eq_true hle) (of_decide_eq_true hle'))
  exact (hsorted.and hdistinct).imp fun hboth =>
    lt_of_le_of_ne (of_decide_eq_true hboth.1) hboth.2

/-- The manifests that a walk below a folder comes upon, in the order of their paths. -/
def manifestsOfWalk (folder : Path) (walk : List (List String × FileTree)) : List Path :=
  manifestsAmong ((filesOfWalk walk).map fun entry => pathBelow folder entry.1)

/-- **The manifests of a walk**: each is there once, and they come in the order of the names that
lead to them. -/
theorem exists_manifestsOfWalk (folder : Path) {entries : List (String × FileTree)}
    (h : (FileTree.folder entries).Proper) {walk : List (List String × FileTree)}
    (hwalk : (FileTree.folder entries).Walk walk) :
    ∃ places : List (List String),
      (∀ place, place ∈ places ↔ (FileTree.folder entries).ManifestAt place) ∧
      places.Pairwise (List.Lex (· < ·)) ∧
      manifestsOfWalk folder walk = places.map (pathBelow folder) := by
  obtain ⟨hnodup, hlisted⟩ := hwalk.files
  have hmanifests : manifestsOfWalk folder walk =
      manifestsAmong (((filesOfWalk walk).map Prod.fst).map (pathBelow folder)) := by
    rw [manifestsOfWalk, List.map_map]
    rfl
  rw [hmanifests]
  generalize (filesOfWalk walk).map Prod.fst = listed at hnodup hlisted
  have hnames : ∀ place ∈ listed, ∀ name ∈ place, IsName name := by
    intro place hplace
    obtain ⟨content, hcontent⟩ := Option.isSome_iff_exists.mp ((hlisted place).mp hplace)
    exact (h.get? (sightAt?_eq_some_file.mp (bytesAt?_eq_some.mp hcontent))).2
  -- all paths start with the folder, so sorting them is sorting the ways below it
  refine ⟨(listed.filter fun place => isManifest (pathBelow folder place)).mergeSort
    fun place other => decide (place ≤ other), fun place => ?_, ?_, ?_⟩
  · rw [List.mem_mergeSort, List.mem_filter, hlisted, ManifestAt, and_congr_right_iff]
    intro hfile
    have hplace := hnames place ((hlisted place).mpr hfile)
    rcases List.eq_nil_or_concat place with rfl | ⟨above, name, rfl⟩
    · cases hfile
    · rw [List.concat_eq_append] at hplace ⊢
      rw [isManifest_pathBelow_iff folder (hplace name (by simp))]
      constructor
      · exact fun hname => ⟨above, name, rfl, hname⟩
      · rintro ⟨_, _, heq, hname⟩
        rwa [List.singleton_inj.mp (List.append_inj' heq rfl).2]
  · exact increasing_mergeSort_places (hnodup.filter _)
  · rw [manifestsAmong, List.filter_map]
    refine (List.map_mergeSort fun place hplace other hother => ?_).symm
    exact (le_pathBelow folder (hnames place (List.mem_of_mem_filter hplace))
      (hnames other (List.mem_of_mem_filter hother))).symm

section

variable {disk : Disk} {folder : Path} {entries : List (String × FileTree)}

/-- The manifests in a folder are those of the walk in the order of its listing. -/
theorem manifestsBelow_eq_manifestsOfWalk
    (hfound : disk.find folder = .ok (FileTree.folder entries)) :
    manifestsBelow disk folder =
      manifestsOfWalk folder ((FileTree.folder entries).walkFrom []) := by
  rw [manifestsBelow, filesBelow_eq hfound, files, map_fst_filesFrom, manifestsOfWalk,
    List.map_map]
  rfl

/-- The manifests in a proper folder. -/
theorem exists_manifestsBelow (h : (FileTree.folder entries).Proper)
    (hfound : disk.find folder = .ok (FileTree.folder entries)) :
    ∃ places : List (List String),
      (∀ place, place ∈ places ↔ (FileTree.folder entries).ManifestAt place) ∧
      places.Pairwise (List.Lex (· < ·)) ∧
      manifestsBelow disk folder = places.map (pathBelow folder) := by
  rw [manifestsBelow_eq_manifestsOfWalk hfound]
  exact exists_manifestsOfWalk folder h h.walk

/-- **Every walk** over a folder comes upon the manifests in it. -/
theorem manifestsOfWalk_eq (h : (FileTree.folder entries).Proper)
    (hfound : disk.find folder = .ok (FileTree.folder entries))
    {walk : List (List String × FileTree)} (hwalk : (FileTree.folder entries).Walk walk) :
    manifestsOfWalk folder walk = manifestsBelow disk folder := by
  obtain ⟨places, hplaces, hincreasing, hbelow⟩ := exists_manifestsBelow h hfound
  obtain ⟨others, hothers, hincreasing', hwalked⟩ := exists_manifestsOfWalk folder h hwalk
  have hsame : others = places := eq_of_increasing_places hincreasing' hincreasing
    fun place => (hothers place).trans (hplaces place).symm
  rw [hbelow, hwalked, hsame]

end

end Wiring
