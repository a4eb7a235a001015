import Mathlib.Data.List.Perm.Basic
import Wiring.Proofs.Assembly
import Wiring.SourceFile

/-!
# Owners are compiled independently

The file of an owner depends on the properties of that owner alone.  Compiling a list of
properties is compiling the properties of each owner on its own, and putting the files one
after the other in the order in which the owners first appear; it succeeds exactly if each of
the small compilations does.

## Main definitions

* `fileOfGroup` — the file of one group.

## Main results

* `compile_eq_ok_iff` — the files are those of the groups, in order.
* `compile_propertiesOf` — one owner alone gets the one file of its group.
* `compile_owner_by_owner` — compiling is compiling owner by owner.
-/

namespace Wiring

/-- The file of one group. -/
def fileOfGroup (settings : Settings) (group : OwnerGroup) : Except Misuse SourceFile :=
  (Injector.ofGroup settings group).map (SourceFile.ofInjector settings)

/-- The files of a list of properties are those of its groups, in order. -/
theorem compile_eq_ok_iff {settings : Settings} {properties : List Property}
    {files : List SourceFile} :
    compile settings properties = .ok files ↔
      ∃ groups, groupByOwner properties = .ok groups ∧
        List.Forall₂ (fun group file => fileOfGroup settings group = .ok file) groups files := by
  constructor
  · intro h
    unfold compile at h
    cases hinjectors : injectorsOf settings properties with
    | error misuse => rw [hinjectors] at h; cases h
    | ok injectors =>
      rw [hinjectors] at h
      obtain rfl := Except.ok.inj h
      obtain ⟨groups, hgroups, hall⟩ := injectorsOf_eq_ok_iff.mp hinjectors
      refine ⟨groups, hgroups, List.forall₂_map_right_iff.mpr (hall.imp ?_)⟩
      intro group injector hinjector
      rw [fileOfGroup, hinjector]
      rfl
  · rintro ⟨groups, hgroups, hall⟩
    -- every file of the list comes from an injector of its group
    have hex : ∃ injectors, List.Forall₂
        (fun group injector => Injector.ofGroup settings group = .ok injector)
        groups injectors ∧ files = injectors.map (SourceFile.ofInjector settings) := by
      clear hgroups
      induction hall with
      | nil => exact ⟨[], .nil, rfl⟩
      | @cons group file groups files hfile _ ih =>
        obtain ⟨injectors, hinjectors, rfl⟩ := ih
        unfold fileOfGroup at hfile
        cases hgroup : Injector.ofGroup settings group with
        | error misuse => rw [hgroup] at hfile; cases hfile
        | ok injector =>
          rw [hgroup] at hfile
          obtain rfl := Except.ok.inj hfile
          exact ⟨injector :: injectors, .cons hgroup hinjectors, rfl⟩
    obtain ⟨injectors, hinjectors, rfl⟩ := hex
    unfold compile
    rw [injectorsOf_eq_ok_iff.mpr ⟨groups, hgroups, hinjectors⟩]

/-- Compiling succeeds exactly if grouping does and every group has a file. -/
theorem compile_succeeds_iff {settings : Settings} {properties : List Property} :
    (∃ files, compile settings properties = .ok files) ↔
      ∃ groups, groupByOwner properties = .ok groups ∧
        ∀ group ∈ groups, ∃ file, fileOfGroup settings group = .ok file := by
  constructor
  · rintro ⟨files, h⟩
    obtain ⟨groups, hgroups, hall⟩ := compile_eq_ok_iff.mp h
    exact ⟨groups, hgroups, mapM_succeeds_iff.mp ⟨files, mapM_eq_ok_iff.mpr hall⟩⟩
  · rintro ⟨groups, hgroups, hall⟩
    obtain ⟨files, hfiles⟩ := mapM_succeeds_iff.mpr hall
    exact ⟨files, compile_eq_ok_iff.mpr ⟨groups, hgroups, mapM_eq_ok_iff.mp hfiles⟩⟩

/-- The properties of one owner compile to the file of its group, or fail as the group does. -/
theorem compile_propertiesOf {settings : Settings} {properties : List Property}
    {groups : List OwnerGroup} (h : groupByOwner properties = .ok groups) {group : OwnerGroup}
    (hgroup : group ∈ groups) (files : List SourceFile) :
    compile settings (propertiesOf group.owner.name properties) = .ok files ↔
      ∃ file, fileOfGroup settings group = .ok file ∧ files = [file] := by
  rw [compile_eq_ok_iff, groupByOwner_propertiesOf h hgroup]
  constructor
  · rintro ⟨groups, hgroups, hall⟩
    obtain rfl := Except.ok.inj hgroups
    obtain ⟨file, rest, hfile, hrest, rfl⟩ := List.forall₂_cons_left_iff.mp hall
    rw [List.forall₂_nil_left_iff] at hrest
    exact ⟨file, hfile, by rw [hrest]⟩
  · rintro ⟨file, hfile, rfl⟩
    exact ⟨[group], rfl, .cons hfile .nil⟩

/-- Each owner on its own: if every property has an owner, the properties of one owner compile
whenever all do, and all do if those of each owner do. -/
theorem compile_succeeds_iff_each {settings : Settings} {properties : List Property}
    (howned : ∀ property ∈ properties, property.owner ≠ none) :
    (∃ files, compile settings properties = .ok files) ↔
      ∀ name ∈ ownerNames properties,
        ∃ files, compile settings (propertiesOf name properties) = .ok files := by
  constructor
  · intro h name hname
    obtain ⟨groups, hgroups, hall⟩ := compile_succeeds_iff.mp h
    rw [← (grouped_groupByOwner hgroups).names] at hname
    obtain ⟨group, hgroup, rfl⟩ := List.mem_map.mp hname
    obtain ⟨file, hfile⟩ := hall group hgroup
    exact ⟨[file], (compile_propertiesOf hgroups hgroup _).mpr ⟨file, hfile, rfl⟩⟩
  · intro h
    -- a private property would be refused among those of its owner as well
    have heligible : ∀ property ∈ properties, property.Eligible := by
      intro property hmem
      obtain ⟨owner, howner⟩ := Option.ne_none_iff_exists'.mp (howned property hmem)
      have hown : property.ownerName? = some owner.name := by
        rw [Property.ownerName?, howner]
        rfl
      obtain ⟨groups, hgroups, -⟩ :=
        compile_succeeds_iff.mp (h owner.name (mem_ownerNames.mpr ⟨property, hmem, hown⟩))
      exact groupByOwner_ok_iff.mp ⟨groups, hgroups⟩ property
        (mem_propertiesOf.mpr ⟨hmem, hown⟩)
    obtain ⟨groups, hgroups⟩ := groupByOwner_ok_iff.mpr heligible
    refine compile_succeeds_iff.mpr ⟨groups, hgroups, fun group hgroup => ?_⟩
    have hname : group.owner.name ∈ ownerNames properties := by
      rw [← (grouped_groupByOwner hgroups).names]
      exact List.mem_map_of_mem hgroup
    obtain ⟨files, hfiles⟩ := h group.owner.name hname
    obtain ⟨file, hfile, -⟩ := (compile_propertiesOf hgroups hgroup _).mp hfiles
    exact ⟨file, hfile⟩

/-- The files of a list of properties, owner by owner: each owner's properties alone give
exactly one file, and these files in order of first appearance are the result. -/
theorem forall₂_compile {settings : Settings} {properties : List Property}
    {files : List SourceFile} (h : compile settings properties = .ok files) :
    List.Forall₂
      (fun name file => compile settings (propertiesOf name properties) = .ok [file])
      (ownerNames properties) files := by
  obtain ⟨groups, hgroups, hall⟩ := compile_eq_ok_iff.mp h
  rw [← (grouped_groupByOwner hgroups).names, List.forall₂_map_left_iff]
  have hmem : List.Forall₂
      (fun group file => group ∈ groups ∧ fileOfGroup settings group = .ok file) groups files :=
    (List.forall₂_and_left _ _).mpr ⟨fun _ hgroup => hgroup, hall⟩
  refine hmem.imp ?_
  rintro group file ⟨hgroup, hfile⟩
  exact (compile_propertiesOf hgroups hgroup _).mpr ⟨file, hfile, rfl⟩

/-- The file of an owner does not depend on the other owners' properties. -/
theorem file_of_owner {settings : Settings} {properties others : List Property}
    {files otherFiles : List SourceFile} (h : compile settings properties = .ok files)
    (hothers : compile settings others = .ok otherFiles) {name : String}
    (hname : name ∈ ownerNames properties)
    (hsame : propertiesOf name others = propertiesOf name properties) :
    ∃ file, (name, file) ∈ (ownerNames properties).zip files ∧
      (name, file) ∈ (ownerNames others).zip otherFiles := by
  have hnameOthers : name ∈ ownerNames others := by
    obtain ⟨property, hmem⟩ := List.exists_mem_of_ne_nil _ (propertiesOf_ne_nil hname)
    rw [← hsame] at hmem
    obtain ⟨hin, hown⟩ := mem_propertiesOf.mp hmem
    exact mem_ownerNames.mpr ⟨property, hin, hown⟩
  obtain ⟨file, hzip, hfile⟩ := exists_mem_zip_of_forall₂ (forall₂_compile h) hname
  obtain ⟨file', hzip', hfile'⟩ := exists_mem_zip_of_forall₂ (forall₂_compile hothers) hnameOthers
  rw [hsame, hfile] at hfile'
  obtain rfl := (List.cons.inj (Except.ok.inj hfile')).1
  exact ⟨file, hzip, hzip'⟩

/-- Two lists with the same owners, each with the same properties in the same order, have the
same files up to their order. -/
theorem perm_of_compile {settings : Settings} {properties others : List Property}
    {files moved : List SourceFile} (h : compile settings properties = .ok files)
    (hmoved : compile settings others = .ok moved)
    (hnames : (ownerNames others).Perm (ownerNames properties))
    (hsame : ∀ name, propertiesOf name others = propertiesOf name properties) :
    moved.Perm files := by
  have hothers : List.Forall₂
      (fun name file => compile settings (propertiesOf name properties) = .ok [file])
      (ownerNames others) moved := by
    refine (forall₂_compile hmoved).imp ?_
    intro name file hfile
    rwa [hsame name] at hfile
  obtain ⟨files', hfiles', hperm⟩ := List.perm_comp_forall₂ hnames (forall₂_compile h)
  -- an owner has one file only, so the two lists of files for `others` are the same
  have hunique : Relator.RightUnique fun name file =>
      compile settings (propertiesOf name properties) = .ok [file] := by
    intro name first second hfirst hsecond
    rw [hfirst] at hsecond
    exact (List.cons.inj (Except.ok.inj hsecond)).1
  rw [hunique.forall₂ hothers hfiles']
  exact hperm

/-- Rearranging properties leaves the owners the same, up to their order. -/
theorem perm_ownerNames {properties others : List Property} (h : others.Perm properties) :
    (ownerNames others).Perm (ownerNames properties) := by
  refine (List.perm_ext_iff_of_nodup (nodup_ownerNames _) (nodup_ownerNames _)).mpr ?_
  intro name
  simp only [mem_ownerNames, h.mem_iff]

/-- **Compiling is compiling owner by owner.**  If every property has an owner, then compiling
succeeds exactly if it does for the properties of each owner alone; the files are those of the
owners alone, one for each, in order of first appearance.  So the file of an owner is the same
whatever other owners' properties are compiled with it, and rearranging the properties without
changing their order inside any owner rearranges the files and does nothing else. -/
theorem compile_owner_by_owner (settings : Settings) (properties : List Property)
    (howned : ∀ property ∈ properties, property.owner ≠ none) :
    ((∃ files, compile settings properties = .ok files) ↔
      ∀ name ∈ ownerNames properties,
        ∃ files, compile settings (propertiesOf name properties) = .ok files) ∧
    (∀ files, compile settings properties = .ok files →
      List.Forall₂
        (fun name file => compile settings (propertiesOf name properties) = .ok [file])
        (ownerNames properties) files) ∧
    (∀ others files otherFiles name, compile settings properties = .ok files →
      compile settings others = .ok otherFiles → name ∈ ownerNames properties →
      propertiesOf name others = propertiesOf name properties →
      ∃ file, (name, file) ∈ (ownerNames properties).zip files ∧
        (name, file) ∈ (ownerNames others).zip otherFiles) ∧
    (∀ others, others.Perm properties →
      (∀ name, propertiesOf name others = propertiesOf name properties) →
      ((∃ moved, compile settings others = .ok moved) ↔
        ∃ files, compile settings properties = .ok files) ∧
      ∀ files moved, compile settings properties = .ok files →
        compile settings others = .ok moved → moved.Perm files) := by
  refine ⟨compile_succeeds_iff_each howned, fun _ => forall₂_compile, ?_, ?_⟩
  · intro others files otherFiles name hfiles hothers hname hsame
    exact file_of_owner hfiles hothers hname hsame
  · intro others hperm hsame
    have hothersOwned : ∀ property ∈ others, property.owner ≠ none :=
      fun property hmem => howned property (hperm.mem_iff.mp hmem)
    refine ⟨?_, fun files moved hfiles hmoved =>
      perm_of_compile hfiles hmoved (perm_ownerNames hperm) hsame⟩
    rw [compile_succeeds_iff_each hothersOwned, compile_succeeds_iff_each howned]
    simp only [hsame, (perm_ownerNames hperm).mem_iff]

/-- An integer property of the screen of this name. -/
def screenInt (name owner : String) : Property :=
  ⟨name, .ofName "kotlin.Int", .visible, some ⟨owner, none, .screen, none⟩, .plain⟩

/-- Two owners, interleaved and apart: the same files in another order. -/
theorem compile_interleaved_owners :
    (∀ property ∈ [screenInt "a" "x.Main", screenInt "b" "x.Other", screenInt "c" "x.Main"],
      property.owner ≠ none) ∧
    ∃ files moved,
      compile {} [screenInt "a" "x.Main", screenInt "b" "x.Other", screenInt "c" "x.Main"]
        = .ok files ∧
      compile {} [screenInt "b" "x.Other", screenInt "a" "x.Main", screenInt "c" "x.Main"]
        = .ok moved ∧
      moved.Perm files := by
  have howned : ∀ property ∈
      [screenInt "a" "x.Main", screenInt "b" "x.Other", screenInt "c" "x.Main"],
      property.owner ≠ none := by
    simp [screenInt]
  refine ⟨howned, _, _, rfl, rfl, ?_⟩
  refine ((compile_owner_by_owner {} _ howned).2.2.2
    [screenInt "b" "x.Other", screenInt "a" "x.Main", screenInt "c" "x.Main"]
    (List.Perm.swap _ _ _) ?_).2 _ _ rfl rfl
  intro name
  by_cases hmain : "x.Main" = name
  · subst hmain; rfl
  · simp only [propertiesOf, List.filter_cons]
    simp [screenInt, Property.ownerName?, hmain]

end Wiring
