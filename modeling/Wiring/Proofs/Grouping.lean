import Mathlib.Data.List.Nodup
import Wiring.Injector
import Wiring.Proofs.FallibleLists

/-!
# What grouping by owner does

Grouping goes through the properties once and keeps the groups met so far.  After every step
the groups are those of the properties seen: the owners in order of first appearance, each with
exactly its own properties, in order, and as its first property gives it.  That is the
invariant `Grouped`; a single step keeps it (`Grouped.step`) and so does a whole run
(`Grouped.run`).

## Main definitions

* `Property.ownerName?`, `propertiesOf`, `ownerNames` — the owners of a list of properties and
  what belongs to each.
* `Property.Eligible` — the property may be injected.
* `Grouped` — the groups are those of the properties.

## Main results

* `groupByOwner_ok_iff` — grouping succeeds exactly on eligible properties.
* `grouped_groupByOwner` — what it gives is `Grouped`.
* `groupByOwner_propertiesOf` — the properties of one owner form its group alone.
-/

namespace Wiring

/-! ### Owners and what belongs to them -/

/-- The qualified name of a property's owner, if it has one. -/
def Property.ownerName? (property : Property) : Option String := property.owner.map Owner.name

/-- The properties of the owner of this name, in order. -/
def propertiesOf (name : String) (properties : List Property) : List Property :=
  properties.filter fun property => property.ownerName? = some name

/-- The names of the owners, in order of first appearance. -/
def ownerNames (properties : List Property) : List String :=
  (properties.filterMap Property.ownerName?).eraseDups

/-- The property may be injected: it has an owner and is not private. -/
def Property.Eligible (property : Property) : Prop :=
  property.owner ≠ none ∧ property.visibility ≠ .privateOnly

theorem mem_propertiesOf {name : String} {properties : List Property} {property : Property} :
    property ∈ propertiesOf name properties ↔
      property ∈ properties ∧ property.ownerName? = some name := by
  simp [propertiesOf]

theorem mem_ownerNames {name : String} {properties : List Property} :
    name ∈ ownerNames properties ↔
      ∃ property ∈ properties, property.ownerName? = some name := by
  simp [ownerNames, List.mem_eraseDups, List.mem_filterMap]

@[simp] theorem propertiesOf_propertiesOf (name : String) (properties : List Property) :
    propertiesOf name (propertiesOf name properties) = propertiesOf name properties := by
  simp [propertiesOf, List.filter_filter]

theorem propertiesOf_ne_nil {name : String} {properties : List Property}
    (h : name ∈ ownerNames properties) : propertiesOf name properties ≠ [] := by
  obtain ⟨property, hmem, hname⟩ := mem_ownerNames.mp h
  exact List.ne_nil_of_mem (mem_propertiesOf.mpr ⟨hmem, hname⟩)

/-- Keeping first occurrences leaves no name twice. -/
theorem nodup_eraseDups : ∀ names : List String, names.eraseDups.Nodup
  | [] => List.nodup_nil
  | name :: rest => by
      rw [List.eraseDups_cons, List.nodup_cons]
      refine ⟨?_, nodup_eraseDups _⟩
      simp [List.mem_eraseDups]
termination_by names => names.length
decreasing_by exact Nat.lt_succ_of_le (List.length_filter_le _ _)

/-- A name at the end is kept if it is new. -/
theorem eraseDups_append_singleton (names : List String) (name : String) :
    (names ++ [name]).eraseDups =
      if name ∈ names.eraseDups then names.eraseDups else names.eraseDups ++ [name] := by
  rw [List.eraseDups_append]
  by_cases h : name ∈ names
  · rw [if_pos (List.mem_eraseDups.mpr h)]
    simp [List.removeAll, h]
  · rw [if_neg fun hmem => h (List.mem_eraseDups.mp hmem)]
    simp [List.removeAll, h, List.eraseDups_cons]

theorem nodup_ownerNames (properties : List Property) : (ownerNames properties).Nodup :=
  nodup_eraseDups _

/-- One more property names a new owner at the end, or none. -/
theorem ownerNames_append_singleton {properties : List Property} {property : Property}
    {owner : Owner} (howner : property.owner = some owner) :
    ownerNames (properties ++ [property]) =
      if owner.name ∈ ownerNames properties then ownerNames properties
      else ownerNames properties ++ [owner.name] := by
  have hname : [property].filterMap Property.ownerName? = [owner.name] := by
    simp [Property.ownerName?, howner]
  unfold ownerNames
  rw [List.filterMap_append, hname, eraseDups_append_singleton]

theorem propertiesOf_append_singleton {properties : List Property} {property : Property}
    {owner : Owner} (howner : property.owner = some owner) (name : String) :
    propertiesOf name (properties ++ [property]) =
      if owner.name = name then propertiesOf name properties ++ [property]
      else propertiesOf name properties := by
  unfold propertiesOf
  rw [List.filter_append]
  by_cases h : owner.name = name <;> simp [Property.ownerName?, howner, h]

/-- All properties of one owner name that owner only. -/
theorem ownerNames_propertiesOf {name : String} {properties : List Property}
    (h : name ∈ ownerNames properties) : ownerNames (propertiesOf name properties) = [name] := by
  have hall : ∀ other ∈ ownerNames (propertiesOf name properties), other = name := by
    intro other hother
    obtain ⟨property, hmem, hname⟩ := mem_ownerNames.mp hother
    have := (mem_propertiesOf.mp hmem).2
    rw [hname] at this
    exact Option.some.inj this
  have hmem : name ∈ ownerNames (propertiesOf name properties) := by
    obtain ⟨property, hprop, hname⟩ := mem_ownerNames.mp h
    exact mem_ownerNames.mpr ⟨property, mem_propertiesOf.mpr ⟨hprop, hname⟩, hname⟩
  have hnodup := nodup_ownerNames (propertiesOf name properties)
  -- a list without repetition whose only member is `name`
  revert hall hmem hnodup
  generalize ownerNames (propertiesOf name properties) = names
  intro hall hmem hnodup
  match names with
  | [] => exact absurd hmem List.not_mem_nil
  | [first] => rw [hall first List.mem_cons_self]
  | first :: second :: rest =>
    have hfirst := hall first (by simp)
    have hsecond := hall second (by simp)
    rw [List.nodup_cons] at hnodup
    exact absurd (by simp [hfirst, hsecond]) hnodup.1

/-! ### One step -/

/-- The names of the groups after a step: a new one at the end, or none. -/
theorem map_name_addToGroup (property : Property) (owner : Owner) (groups : List OwnerGroup) :
    (addToGroup property owner groups).map (fun group => group.owner.name) =
      if owner.name ∈ groups.map (fun group => group.owner.name) then
        groups.map (fun group => group.owner.name)
      else groups.map (fun group => group.owner.name) ++ [owner.name] := by
  induction groups with
  | nil => rfl
  | cons group rest ih =>
    unfold addToGroup
    by_cases h : group.owner.name = owner.name
    · simp [h]
    · rw [if_neg h, List.map_cons, ih, List.map_cons]
      by_cases hrest : owner.name ∈ rest.map (fun group => group.owner.name)
      · rw [if_pos hrest, if_pos (List.mem_cons_of_mem _ hrest)]
      · have hne : owner.name ∉ group.owner.name :: rest.map (fun group => group.owner.name) := by
          rw [List.mem_cons, not_or]
          exact ⟨Ne.symm h, hrest⟩
        rw [if_neg hrest, if_neg hne, List.cons_append]

/-- What a group is after a step: untouched, of the property's owner and one property longer,
or new. -/
theorem mem_addToGroup {property : Property} {owner : Owner} {groups : List OwnerGroup}
    (hnodup : (groups.map fun group => group.owner.name).Nodup) {group : OwnerGroup}
    (h : group ∈ addToGroup property owner groups) :
    (group ∈ groups ∧ group.owner.name ≠ owner.name) ∨
      (∃ old ∈ groups, old.owner.name = owner.name ∧
        group = { old with properties := old.properties ++ [property] }) ∨
      (owner.name ∉ groups.map (fun group => group.owner.name) ∧ group = ⟨owner, [property]⟩) := by
  induction groups with
  | nil =>
    rw [addToGroup, List.mem_singleton] at h
    exact .inr (.inr ⟨List.not_mem_nil, h⟩)
  | cons first rest ih =>
    rw [List.map_cons, List.nodup_cons] at hnodup
    unfold addToGroup at h
    by_cases hname : first.owner.name = owner.name
    · rw [if_pos hname, List.mem_cons] at h
      rcases h with rfl | hmem
      · exact .inr (.inl ⟨first, List.mem_cons_self, hname, rfl⟩)
      · -- the names are different, so no later group has this owner
        refine .inl ⟨List.mem_cons_of_mem _ hmem, fun heq => hnodup.1 ?_⟩
        rw [hname, ← heq]
        exact List.mem_map_of_mem hmem
    · rw [if_neg hname, List.mem_cons] at h
      rcases h with rfl | hmem
      · exact .inl ⟨List.mem_cons_self, hname⟩
      · rcases ih hnodup.2 hmem with ⟨hold, hne⟩ | ⟨old, hold, hown, rfl⟩ | ⟨hnew, rfl⟩
        · exact .inl ⟨List.mem_cons_of_mem _ hold, hne⟩
        · exact .inr (.inl ⟨old, List.mem_cons_of_mem _ hold, hown, rfl⟩)
        · refine .inr (.inr ⟨?_, rfl⟩)
          rw [List.map_cons, List.mem_cons, not_or]
          exact ⟨Ne.symm hname, hnew⟩

/-! ### The invariant -/

/-- The groups are those of the properties: one for each owner, in order of first appearance,
with all properties of the owner, and with the owner as its first property gives it. -/
structure Grouped (properties : List Property) (groups : List OwnerGroup) : Prop where
  /-- One group for each owner, in order of first appearance. -/
  names : groups.map (fun group => group.owner.name) = ownerNames properties
  /-- A group has all properties of its owner, in order. -/
  members : ∀ group ∈ groups, group.properties = propertiesOf group.owner.name properties
  /-- A group is not empty, and its first property gives the owner. -/
  owners : ∀ group ∈ groups,
    ∃ first rest, group.properties = first :: rest ∧ first.owner = some group.owner

namespace Grouped

variable {properties : List Property} {groups : List OwnerGroup}

theorem nil : Grouped [] [] where
  names := rfl
  members := fun _ h => absurd h List.not_mem_nil
  owners := fun _ h => absurd h List.not_mem_nil

theorem nodup (h : Grouped properties groups) :
    (groups.map fun group => group.owner.name).Nodup := by
  rw [h.names]
  exact nodup_ownerNames properties

/-- Adding a property to its group keeps the invariant. -/
theorem step (h : Grouped properties groups) {property : Property} {owner : Owner}
    (howner : property.owner = some owner) :
    Grouped (properties ++ [property]) (addToGroup property owner groups) where
  names := by
    rw [map_name_addToGroup, h.names, ownerNames_append_singleton howner]
  members := by
    intro group hmem
    rw [propertiesOf_append_singleton howner]
    rcases mem_addToGroup h.nodup hmem with ⟨hold, hne⟩ | ⟨old, hold, hown, rfl⟩ | ⟨hnew, rfl⟩
    · rw [if_neg (Ne.symm hne)]
      exact h.members group hold
    · rw [if_pos hown.symm]
      exact congrArg (· ++ [property]) (h.members old hold)
    · -- no earlier property has this owner
      have hnone : propertiesOf owner.name properties = [] := by
        rw [List.eq_nil_iff_forall_not_mem]
        intro other hother
        obtain ⟨hin, hname⟩ := mem_propertiesOf.mp hother
        rw [h.names] at hnew
        exact hnew (mem_ownerNames.mpr ⟨other, hin, hname⟩)
      rw [if_pos rfl, hnone, List.nil_append]
  owners := by
    intro group hmem
    rcases mem_addToGroup h.nodup hmem with ⟨hold, -⟩ | ⟨old, hold, -, rfl⟩ | ⟨-, rfl⟩
    · exact h.owners group hold
    · obtain ⟨first, rest, hprops, hfirst⟩ := h.owners old hold
      exact ⟨first, rest ++ [property], by simp [hprops], hfirst⟩
    · exact ⟨property, [], rfl, howner⟩

/-- The group of an owner is determined by the properties. -/
theorem group_unique {others : List Property} {more : List OwnerGroup}
    (h : Grouped properties groups) (hmore : Grouped others more)
    {group other : OwnerGroup} (hgroup : group ∈ groups) (hother : other ∈ more)
    (hname : group.owner.name = other.owner.name)
    (hsame : propertiesOf group.owner.name properties = propertiesOf group.owner.name others) :
    group = other := by
  have hprops : group.properties = other.properties := by
    rw [h.members group hgroup, hsame, hname, ← hmore.members other hother]
  obtain ⟨first, rest, hfirst, howner⟩ := h.owners group hgroup
  obtain ⟨first', rest', hfirst', howner'⟩ := hmore.owners other hother
  rw [hprops, hfirst'] at hfirst
  obtain ⟨rfl, rfl⟩ := List.cons.inj hfirst
  rw [howner'] at howner
  have hown : other.owner = group.owner := Option.some.inj howner
  cases group
  cases other
  simp_all

end Grouped

/-! ### The whole run -/

theorem eligibleOwner_ok_iff {property : Property} {owner : Owner} :
    eligibleOwner property = .ok owner ↔
      property.owner = some owner ∧ property.visibility ≠ .privateOnly := by
  unfold eligibleOwner
  cases property.owner with
  | none => simp
  | some given =>
    by_cases h : property.visibility = .privateOnly <;> simp [h]

/-- A property is eligible exactly if an owner is found for it. -/
theorem eligible_iff {property : Property} :
    property.Eligible ↔ ∃ owner, eligibleOwner property = .ok owner := by
  simp only [eligibleOwner_ok_iff, exists_and_right, Property.Eligible, Option.ne_none_iff_exists']

/-- Every group list that a run passes through is that of the properties seen. -/
theorem Grouped.run {seen : List Property} {groups result : List OwnerGroup}
    (h : Grouped seen groups) {properties : List Property}
    (hrun : groupInto groups properties = .ok result) : Grouped (seen ++ properties) result := by
  induction properties generalizing seen groups with
  | nil =>
    rw [groupInto] at hrun
    cases hrun
    rwa [List.append_nil]
  | cons property rest ih =>
    rw [groupInto] at hrun
    cases howner : eligibleOwner property with
    | error misuse => rw [howner] at hrun; cases hrun
    | ok owner =>
      rw [howner] at hrun
      have hstep := ih (h.step (eligibleOwner_ok_iff.mp howner).1) hrun
      rwa [List.append_assoc] at hstep

/-- A run gets through exactly if all properties are eligible. -/
theorem groupInto_ok_iff {groups : List OwnerGroup} {properties : List Property} :
    (∃ result, groupInto groups properties = .ok result) ↔
      ∀ property ∈ properties, property.Eligible := by
  induction properties generalizing groups with
  | nil => exact ⟨fun _ _ h => absurd h List.not_mem_nil, fun _ => ⟨groups, rfl⟩⟩
  | cons property rest ih =>
    rw [List.forall_mem_cons, eligible_iff, groupInto]
    cases howner : eligibleOwner property with
    | error misuse =>
      constructor
      · rintro ⟨result, h⟩; cases h
      · rintro ⟨⟨owner, h⟩, -⟩; cases h
    | ok owner =>
      constructor
      · intro h; exact ⟨⟨owner, rfl⟩, ih.mp h⟩
      · intro h; exact ih.mpr h.2

theorem groupByOwner_ok_iff {properties : List Property} :
    (∃ groups, groupByOwner properties = .ok groups) ↔
      ∀ property ∈ properties, property.Eligible :=
  groupInto_ok_iff

/-- The groups that grouping gives are those of the properties. -/
theorem grouped_groupByOwner {properties : List Property} {groups : List OwnerGroup}
    (h : groupByOwner properties = .ok groups) : Grouped properties groups :=
  Grouped.nil.run h

/-- The properties of one owner form one group, the same as among all properties. -/
theorem groupByOwner_propertiesOf {properties : List Property} {groups : List OwnerGroup}
    (h : groupByOwner properties = .ok groups) {group : OwnerGroup} (hgroup : group ∈ groups) :
    groupByOwner (propertiesOf group.owner.name properties) = .ok [group] := by
  have hgrouped := grouped_groupByOwner h
  have hname : group.owner.name ∈ ownerNames properties := by
    rw [← hgrouped.names]
    exact List.mem_map_of_mem hgroup
  have heligible : ∀ property ∈ propertiesOf group.owner.name properties, property.Eligible :=
    fun property hmem => groupByOwner_ok_iff.mp ⟨groups, h⟩ property (mem_propertiesOf.mp hmem).1
  obtain ⟨own, hown⟩ := groupByOwner_ok_iff.mpr heligible
  have hgroupedOwn := grouped_groupByOwner hown
  -- there is one name, so there is one group
  have hnames := hgroupedOwn.names
  rw [ownerNames_propertiesOf hname] at hnames
  obtain ⟨only, rest, rfl, honly, hrest⟩ := List.map_eq_cons_iff.mp hnames
  rw [List.map_eq_nil_iff] at hrest
  subst hrest
  have heq : group = only :=
    hgrouped.group_unique hgroupedOwn hgroup List.mem_cons_self honly.symm
      (propertiesOf_propertiesOf _ _).symm
  rw [hown, heq]

end Wiring
