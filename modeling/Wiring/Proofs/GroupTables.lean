import Wiring.Proofs.FirstMisuse

/-!
# Groups found by an index, and what grouping loses

To put a property into its group, the groups met so far may be searched from the front, or an index
may say at which place the group of an owner stands.  The index has to grow with the groups: after
every step, and also when the pass ends early, it gives for each name the place that a search from
the front would find (`GroupTable.InStep`), so both ways lead to the same groups.

Whichever way they are found, the groups are the properties themselves in another order: each
property is put into exactly one group, and none twice.

## Main definitions

* `GroupTable` — the groups met so far with an index of their places.
* `GroupTable.add`, `GroupTable.addAll` — one step and a whole run with such a table.
* `GroupTable.InStep` — the index gives the places of the groups.

## Main results

* `GroupTable.InStep.add` — a step keeps the index in step, and leads to the groups of a search.
* `GroupTable.addAll_spec` — so does a run, and it stops where the search stops.
* `groupByOwner_partitions` — **when grouping succeeds, what the groups are, and which property
  decides the fault.**
-/

namespace Wiring

/-- The name by which the group of an owner is found. -/
def OwnerGroup.name (group : OwnerGroup) : String := group.owner.name

/-- The group with one property more. -/
def OwnerGroup.push (property : Property) (group : OwnerGroup) : OwnerGroup :=
  { group with properties := group.properties ++ [property] }

/-! ### A table with an index -/

/-- The groups met so far with an index of their places. -/
structure GroupTable where
  /-- The groups, in order of first appearance. -/
  groups : List OwnerGroup
  /-- The place of each owner's group. -/
  places : Std.HashMap String Nat

namespace GroupTable

/-- A table without groups. -/
def empty : GroupTable := ⟨[], ∅⟩

/-- Puts a property into the group at the place that the index gives, or opens a new group at the
end and notes its place. -/
def add (table : GroupTable) (property : Property) (owner : Owner) : GroupTable :=
  match table.places[owner.name]? with
  | some place => { table with groups := table.groups.modify place (OwnerGroup.push property) }
  | none =>
      { groups := table.groups ++ [⟨owner, [property]⟩]
        places := table.places.insert owner.name table.groups.length }

/-- Adds properties to a table, up to the first that may not be injected. -/
def addAll (table : GroupTable) : List Property → Except Misuse GroupTable
  | [] => .ok table
  | property :: rest =>
      match eligibleOwner property with
      | .error misuse => .error misuse
      | .ok owner => (table.add property owner).addAll rest

/-- The index gives for each name the place of the first group of that name, and nothing for a name
without group. -/
def InStep (table : GroupTable) : Prop :=
  ∀ name, table.places[name]? = (table.groups.map OwnerGroup.name).idxOf? name

end GroupTable

/-! ### Searching from the front -/

section Searching

variable {property : Property} {owner : Owner} {groups : List OwnerGroup}

/-- Where there is a group of the owner, the search adds the property at its place. -/
theorem addToGroup_of_idxOf? {place : Nat}
    (h : (groups.map OwnerGroup.name).idxOf? owner.name = some place) :
    addToGroup property owner groups = groups.modify place (OwnerGroup.push property) := by
  induction groups generalizing place with
  | nil => cases h
  | cons group rest ih =>
    rw [List.map_cons, List.idxOf?_cons] at h
    unfold addToGroup
    by_cases hname : group.owner.name = owner.name
    · have hhere : group.name = owner.name := hname
      rw [if_pos (beq_iff_eq.mpr hhere)] at h
      obtain rfl : 0 = place := Option.some.inj h
      rw [if_pos hname, List.modify_zero_cons]
      rfl
    · have hhere : group.name ≠ owner.name := hname
      rw [if_neg (by simpa using hhere), Option.map_eq_some_iff] at h
      obtain ⟨later, hlater, rfl⟩ := h
      rw [if_neg hname, List.modify_succ_cons, ih hlater]

/-- Where there is none, the search opens a group at the end. -/
theorem addToGroup_of_not_mem (h : owner.name ∉ groups.map OwnerGroup.name) :
    addToGroup property owner groups = groups ++ [⟨owner, [property]⟩] := by
  induction groups with
  | nil => rfl
  | cons group rest ih =>
    rw [List.map_cons, List.mem_cons, not_or] at h
    have hname : group.owner.name ≠ owner.name := Ne.symm h.1
    rw [addToGroup, if_neg hname, ih h.2, List.cons_append]

/-- Adding to a group changes no name. -/
theorem map_name_modify_push (place : Nat) :
    (groups.modify place (OwnerGroup.push property)).map OwnerGroup.name =
      groups.map OwnerGroup.name := by
  induction groups generalizing place with
  | nil => rw [List.modify_nil]
  | cons group rest ih =>
    cases place with
    | zero => rfl
    | succ place => rw [List.modify_succ_cons, List.map_cons, ih, List.map_cons]

/-- The place of a name after one more at the end, which was not there before. -/
theorem idxOf?_append_singleton {names : List String} {last : String} (h : last ∉ names)
    (name : String) :
    (names ++ [last]).idxOf? name =
      if last == name then some names.length else names.idxOf? name := by
  have happ : (names ++ [last]).idxOf? name =
      (names.idxOf? name).or (([last].idxOf? name).map (· + names.length)) :=
    List.findIdx?_append
  rw [happ, List.idxOf?_cons]
  by_cases hlast : last = name
  · have hnone : names.idxOf? name = none := List.idxOf?_eq_none_iff.mpr (hlast ▸ h)
    simp [hnone, hlast]
  · simp [hlast]

end Searching

/-! ### The index keeps up with the groups -/

namespace GroupTable

variable {table : GroupTable}

theorem inStep_empty : empty.InStep := fun _ => Std.HashMap.getElem?_empty

/-- A step keeps the index in step with the groups, which become those of a search. -/
theorem InStep.add (h : table.InStep) (property : Property) (owner : Owner) :
    (table.add property owner).InStep ∧
      (table.add property owner).groups = addToGroup property owner table.groups := by
  unfold GroupTable.add
  cases hplace : table.places[owner.name]? with
  | some place =>
    -- the names stay as they are, so the index need not change
    have hsearch : addToGroup property owner table.groups =
        table.groups.modify place (OwnerGroup.push property) :=
      addToGroup_of_idxOf? ((h owner.name).symm.trans hplace)
    refine ⟨fun name => ?_, hsearch.symm⟩
    show table.places[name]? = _
    rw [map_name_modify_push, h name]
  | none =>
    have hnew : owner.name ∉ table.groups.map OwnerGroup.name :=
      List.idxOf?_eq_none_iff.mp ((h owner.name).symm.trans hplace)
    refine ⟨fun name => ?_, (addToGroup_of_not_mem hnew).symm⟩
    show (table.places.insert owner.name table.groups.length)[name]? = _
    have hnames : (table.groups ++ [(⟨owner, [property]⟩ : OwnerGroup)]).map OwnerGroup.name =
        table.groups.map OwnerGroup.name ++ [owner.name] := List.map_append
    rw [hnames, idxOf?_append_singleton hnew, Std.HashMap.getElem?_insert, List.length_map, h name]

/-- A run with an index ends as a run that searches does, at the same property if it fails; where it
gives a table, the index is in step. -/
theorem addAll_spec (h : table.InStep) (properties : List Property) :
    (table.addAll properties).map GroupTable.groups = groupInto table.groups properties ∧
      ∀ final, table.addAll properties = .ok final → final.InStep := by
  induction properties generalizing table with
  | nil =>
    refine ⟨rfl, fun final hfinal => ?_⟩
    obtain rfl : table = final := Except.ok.inj hfinal
    exact h
  | cons property rest ih =>
    unfold addAll groupInto
    cases eligibleOwner property with
    | error misuse => exact ⟨rfl, fun final hfinal => by cases hfinal⟩
    | ok owner =>
      obtain ⟨hstep, hgroups⟩ := h.add property owner
      have hrest := ih hstep
      rw [hgroups] at hrest
      exact hrest

end GroupTable

/-! ### Nothing is lost -/

/-- A step puts the property among those that are grouped, and moves no other. -/
theorem flatMap_properties_addToGroup (property : Property) (owner : Owner)
    (groups : List OwnerGroup) :
    ((addToGroup property owner groups).flatMap OwnerGroup.properties).Perm
      (groups.flatMap OwnerGroup.properties ++ [property]) := by
  induction groups with
  | nil => exact .refl _
  | cons group rest ih =>
    unfold addToGroup
    split
    · simp only [List.flatMap_cons, List.append_assoc]
      exact (List.perm_append_comm).append_left group.properties
    · simp only [List.flatMap_cons, List.append_assoc]
      exact ih.append_left group.properties

/-- The properties that a run has grouped are those it started with and those it has seen. -/
theorem flatMap_properties_groupInto {groups result : List OwnerGroup} {properties : List Property}
    (h : groupInto groups properties = .ok result) :
    (result.flatMap OwnerGroup.properties).Perm
      (groups.flatMap OwnerGroup.properties ++ properties) := by
  induction properties generalizing groups with
  | nil =>
    obtain rfl : groups = result := Except.ok.inj h
    rw [List.append_nil]
  | cons property rest ih =>
    unfold groupInto at h
    cases howner : eligibleOwner property with
    | error misuse => rw [howner] at h; cases h
    | ok owner =>
      rw [howner] at h
      have hstep := (flatMap_properties_addToGroup property owner groups).append_right rest
      rw [List.append_assoc, List.singleton_append] at hstep
      exact (ih h).trans hstep

/-- **When grouping succeeds, what the groups are, and which property decides the fault.**  It
succeeds exactly if every property has an owner and none is private.  Then there is one group for
each owner, in order of first appearance, and no owner has two; a group has exactly the properties
of its owner, in order, at least one, and the owner is as the first of them gives it; together the
groups have every property as often as the list.  Otherwise the first property that may not be
injected decides the fault: it is named with its owner and the file of its owner, and that it has
no owner comes before that it is private.  Groups found by an index are no others. -/
theorem groupByOwner_partitions (properties : List Property) :
    ((∃ groups, groupByOwner properties = .ok groups) ↔
      ∀ property ∈ properties, property.owner ≠ none ∧ property.visibility ≠ .privateOnly) ∧
    (∀ groups, groupByOwner properties = .ok groups →
      (groups.map fun group => group.owner.name).Nodup ∧
      (groups.map fun group => group.owner.name) = ownerNames properties ∧
      (∀ group ∈ groups, group.properties = propertiesOf group.owner.name properties ∧
        ∃ first rest, group.properties = first :: rest ∧ first.owner = some group.owner) ∧
      (groups.flatMap OwnerGroup.properties).Perm properties) ∧
    (∀ misuse, groupByOwner properties = .error misuse ↔
      ∃ property, FirstWith (fun property => ¬ property.Eligible) properties property ∧
        Refused property misuse) ∧
    (∀ misuse, groupByOwner properties = .error misuse →
      ∃ property, FirstWith (fun property => ¬ property.Eligible) properties property ∧
        misuse.kind = (if property.owner.isNone then .missingOwner else .privateField) ∧
        misuse.field = property.name ∧ misuse.owner = property.owner.map Owner.name ∧
        misuse.sourceFile = property.owner.bind Owner.sourceFile) ∧
    (GroupTable.empty.addAll properties).map GroupTable.groups = groupByOwner properties := by
  refine ⟨groupByOwner_ok_iff, ?_, fun misuse => groupByOwner_eq_error_iff, ?_,
    (GroupTable.addAll_spec GroupTable.inStep_empty properties).1⟩
  · intro groups hgroups
    have hgrouped := grouped_groupByOwner hgroups
    refine ⟨hgrouped.nodup, hgrouped.names, ?_, flatMap_properties_groupInto hgroups⟩
    intro group hmem
    exact ⟨hgrouped.members group hmem, hgrouped.owners group hmem⟩
  · intro misuse hmisuse
    obtain ⟨property, hfirst, hrefused⟩ := groupByOwner_eq_error_iff.mp hmisuse
    exact ⟨property, hfirst, hrefused.told⟩

/-- Two owners in turn, and then a private property without owner and one with an owner. -/
def lostAndHidden : List Property :=
  [plainField "id" "kotlin.Int" .visible mainScreen,
    plainField "size" "kotlin.Int" .internalOnly syncJob,
    plainField "title" "kotlin.String" .protectedOnly mainScreen,
    plainField "lost" "kotlin.Int" .privateOnly none,
    plainField "token" "kotlin.String" .privateOnly syncJob]

/-- The private property without owner is told that it has none; without it the next private one is
the fault; and without both the two owners have their groups. -/
theorem groupByOwner_partitions_lost :
    (∃ misuse property, groupByOwner lostAndHidden = .error misuse ∧
      FirstWith (fun property => ¬ property.Eligible) lostAndHidden property ∧
      misuse.kind = .missingOwner ∧ property.name = "lost" ∧ misuse.owner = none) ∧
    (∃ misuse property, groupByOwner (lostAndHidden.eraseIdx 3) = .error misuse ∧
      FirstWith (fun property => ¬ property.Eligible) (lostAndHidden.eraseIdx 3) property ∧
      misuse.kind = .privateField ∧ property.name = "token" ∧ misuse.owner = some "x.Sync" ∧
      misuse.sourceFile = some "Sync.kt") ∧
    ∃ groups, groupByOwner (lostAndHidden.take 3) = .ok groups ∧
      groups.map (fun group => group.owner.name) = ["x.Main", "x.Sync"] ∧
      (groups.flatMap OwnerGroup.properties).Perm (lostAndHidden.take 3) := by
  refine ⟨?_, ?_, ?_⟩
  · obtain ⟨misuse, hfault, hkind, hfield, howner⟩ : ∃ misuse,
        groupByOwner lostAndHidden = .error misuse ∧ misuse.kind = .missingOwner ∧
        misuse.field = "lost" ∧ misuse.owner = none := ⟨_, rfl, rfl, rfl, rfl⟩
    obtain ⟨property, hfirst, -, hname, -⟩ :=
      (groupByOwner_partitions lostAndHidden).2.2.2.1 misuse hfault
    exact ⟨misuse, property, hfault, hfirst, hkind, hname.symm.trans hfield, howner⟩
  · obtain ⟨misuse, hfault, hkind, hfield, howner, hfile⟩ : ∃ misuse,
        groupByOwner (lostAndHidden.eraseIdx 3) = .error misuse ∧ misuse.kind = .privateField ∧
        misuse.field = "token" ∧ misuse.owner = some "x.Sync" ∧
        misuse.sourceFile = some "Sync.kt" := ⟨_, rfl, rfl, rfl, rfl, rfl⟩
    obtain ⟨property, hfirst, -, hname, -⟩ :=
      (groupByOwner_partitions (lostAndHidden.eraseIdx 3)).2.2.2.1 misuse hfault
    exact ⟨misuse, property, hfault, hfirst, hkind, hname.symm.trans hfield, howner, hfile⟩
  · obtain ⟨groups, hgroups⟩ := (groupByOwner_partitions (lostAndHidden.take 3)).1.mpr (by decide)
    obtain ⟨-, hnames, -, hperm⟩ :=
      (groupByOwner_partitions (lostAndHidden.take 3)).2.1 groups hgroups
    exact ⟨groups, hgroups, hnames.trans (by decide), hperm⟩

end Wiring
