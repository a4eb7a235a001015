import Mathlib.Data.List.Forall2
import Wiring.Proofs.Grouping

/-!
# The injectors of a list of properties

A list of properties gives one injector for each owner, and the injector of an owner is made
from the plans of the owner's properties, in order.

## Main definitions

* `Planned` — the plans of an owner's properties.

## Main results

* `injectorsOf_eq_ok_iff` — the injectors are those of the groups.
* `eq_make_of_mem`, `prelude_of_mem`, `planned_of_mem` — what an injector is made from.
-/

namespace Wiring

/-- The plans are those of the owner's properties, in order. -/
def Planned (settings : Settings) (owner : Owner) (properties : List Property)
    (fields : List FieldPlan) : Prop :=
  List.Forall₂ (fun property plan => Injector.planFor settings owner property = .ok plan)
    properties fields

/-- The injector of a group is made from the plans of its properties. -/
theorem ofGroup_eq_ok_iff {settings : Settings} {group : OwnerGroup} {injector : Injector} :
    Injector.ofGroup settings group = .ok injector ↔
      ∃ fields, Planned settings group.owner group.properties fields ∧
        injector = .make settings group.owner fields := by
  unfold Injector.ofGroup Planned
  simp only [← mapM_eq_ok_iff]
  cases hplans : group.properties.mapM (Injector.planFor settings group.owner) with
  | error misuse => simp
  | ok fields => simp [eq_comm]

/-- The injectors of a list of properties are those of its groups, in order. -/
theorem injectorsOf_eq_ok_iff {settings : Settings} {properties : List Property}
    {injectors : List Injector} :
    injectorsOf settings properties = .ok injectors ↔
      ∃ groups, groupByOwner properties = .ok groups ∧
        List.Forall₂ (fun group injector => Injector.ofGroup settings group = .ok injector)
          groups injectors := by
  unfold injectorsOf
  cases hgroups : groupByOwner properties with
  | error misuse => simp
  | ok groups =>
    simp only [mapM_eq_ok_iff, Except.ok.injEq, exists_eq_left']

section

variable {settings : Settings} {properties : List Property} {injectors : List Injector}
  {injector : Injector}

/-- An injector of the list comes from a group of the list. -/
theorem exists_group_of_mem (h : injectorsOf settings properties = .ok injectors)
    (hmem : injector ∈ injectors) :
    ∃ groups group, groupByOwner properties = .ok groups ∧ group ∈ groups ∧
      Injector.ofGroup settings group = .ok injector := by
  obtain ⟨groups, hgroups, hall⟩ := injectorsOf_eq_ok_iff.mp h
  obtain ⟨group, hzip, hmade⟩ := exists_mem_zip_of_forall₂ hall.flip hmem
  exact ⟨groups, group, hgroups, (List.of_mem_zip hzip).2, hmade⟩

/-- An injector is made from its owner and its plans. -/
theorem eq_make_of_mem (h : injectorsOf settings properties = .ok injectors)
    (hmem : injector ∈ injectors) :
    injector = .make settings injector.owner injector.fields := by
  obtain ⟨groups, group, -, -, hmade⟩ := exists_group_of_mem h hmem
  obtain ⟨fields, -, rfl⟩ := ofGroup_eq_ok_iff.mp hmade
  rfl

/-- Every injector has the same prelude but for the owner in it. -/
theorem prelude_of_mem (h : injectorsOf settings properties = .ok injectors)
    (hmem : injector ∈ injectors) : injector.prelude = Injector.preludeFor injector.owner := by
  rw [eq_make_of_mem h hmem]
  rfl

/-- The plans of an injector are those of its owner's properties, in order. -/
theorem planned_of_mem (h : injectorsOf settings properties = .ok injectors)
    (hmem : injector ∈ injectors) :
    Planned settings injector.owner (propertiesOf injector.owner.name properties)
      injector.fields := by
  obtain ⟨groups, group, hgroups, hgroup, hmade⟩ := exists_group_of_mem h hmem
  obtain ⟨fields, hplanned, rfl⟩ := ofGroup_eq_ok_iff.mp hmade
  rw [(grouped_groupByOwner hgroups).members group hgroup] at hplanned
  exact hplanned

end

end Wiring
