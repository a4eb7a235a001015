import Wiring.Statement

/-!
# What statements do

The meaning of the statement language: what an injection does to its target when it runs.
Everything that is not part of the statements, such as the arguments of the owner, the service
registry and the service that builds objects, is a `World`.  Executing a statement changes the
fields of the target, the log and the local variables, and may end the injection by an
exception.  Some statements make no sense where they stand, such as the bound value outside a
`whenPresent` statement; executing one of them gets stuck.

## Main definitions

* `Value`, `World`, `State` — values, the surroundings of a run and its state.
* `eval`, `test` — the value of an expression and the answer of a condition.
* `exec`, `execAll` — executing statements.
* `run`, `Report` — a whole run and what can be seen of it.

## Main results

* `execAll_append` — executing statements one after the other.
-/

namespace Wiring.Runtime

/-! ### Values, surroundings, states -/

/-- A value; `α` are the objects that are no texts. -/
inductive Value (α : Type) where
  /-- Null. -/
  | null
  /-- A text. -/
  | text (words : String)
  /-- Any other object. -/
  | object (of : α)
  /-- An argument bundle: the values stored under its keys. -/
  | bundle (stored : String → Option (Value α))

namespace Value

variable {α : Type}

/-- The value is null. -/
def isNull : Value α → Bool
  | null => true
  | _ => false

/-- The value as a text, null if it is none. -/
def asText : Value α → Value α
  | text words => text words
  | _ => null

/-- The first of two values, the second if the first is null. -/
def orElse : Value α → Value α → Value α
  | null, other => other
  | value, _ => value

end Value

/-- What a run finds around it. -/
structure World (α : Type) where
  /-- The target is of the type. -/
  targetIsA : DeclaredType → Bool
  /-- The argument bundle of a source; none if it is null. -/
  arguments : BundleSource → Option (String → Option (Value α))
  /-- What a typed read makes of the value under its key. -/
  view : Getter → Value α → Value α
  /-- The value is of the type. -/
  isA : DeclaredType → Value α → Bool
  /-- The service registered for a type, or null. -/
  byType : DeclaredType → Value α
  /-- The service registered under a key, or null. -/
  byKey : String → Value α
  /-- The service that builds objects of a type from texts, if there is one.  It may fail. -/
  deserializer : Option (String → DeclaredType → Option (Value α))

/-- The state of a run. -/
structure State (α : Type) where
  /-- The service that builds objects, once it is looked up. -/
  deserializer : Option (String → DeclaredType → Option (Value α))
  /-- The fields of the target. -/
  fields : String → Value α
  /-- The local variables in scope. -/
  locals : String → Option (Value α)
  /-- The log, oldest entry first. -/
  log : List String

/-- Exceptions. -/
inductive Thrown where
  /-- The target is not of the owner's type. -/
  | wrongTarget (message : String)
  /-- A service is missing or not of the type it is cast to. -/
  | failedCast
  /-- A required field is null. -/
  | missing (message : String)
  deriving Repr, DecidableEq, Inhabited

/-- Why a run ends early. -/
inductive Stop where
  /-- An exception was thrown. -/
  | thrown (exception : Thrown)
  /-- A statement makes no sense where it stands. -/
  | stuck
  deriving Repr, DecidableEq, Inhabited

/-- How executing statements ends, and the state it leaves. -/
inductive Run (α : Type) where
  /-- All statements were executed. -/
  | finished (state : State α)
  /-- A statement ended the run. -/
  | stopped (why : Stop) (state : State α)

variable {α : Type}

namespace World

/-- The value under a key of the arguments of a source, if there is one. -/
def argument (w : World α) (source : BundleSource) (key : String) : Option (Value α) :=
  (w.arguments source).bind fun stored => stored key

/-- A checked cast: null unless the value is of the type. -/
def cast (w : World α) (type : DeclaredType) : Value α → Value α
  | .null => .null
  | value => if w.isA type value then value else .null

/-- The bundle of a source as a value. -/
def bundleOf (w : World α) (source : BundleSource) : Value α :=
  match w.arguments source with
  | none => .null
  | some stored => .bundle stored

end World

/-- The fields with a value in one of them. -/
def updated (fields : String → Value α) (field : String) (value : Value α) : String → Value α :=
  fun other => if other = field then value else fields other

namespace State

/-- The state with a value in a field. -/
def assign (s : State α) (field : String) (value : Value α) : State α :=
  { s with fields := updated s.fields field value }

/-- The state with more entries in the log. -/
def note (s : State α) (messages : List String) : State α := { s with log := s.log ++ messages }

/-- The state with a local variable. -/
def declare (s : State α) (name : String) (value : Value α) : State α :=
  { s with locals := fun other => if other = name then some value else s.locals other }

end State

namespace Run

/-- Goes on after a run that was not ended early. -/
def andThen : Run α → (State α → Run α) → Run α
  | finished s, next => next s
  | stopped why s, _ => stopped why s

/-- Leaves a block: the local variables are those of the surroundings again. -/
def leave (outer : State α) : Run α → Run α
  | finished s => finished { s with locals := outer.locals }
  | stopped why s => stopped why s

@[simp] theorem finished_andThen (s : State α) (next : State α → Run α) :
    (finished s).andThen next = next s := rfl

@[simp] theorem stopped_andThen (why : Stop) (s : State α) (next : State α → Run α) :
    (stopped why s).andThen next = stopped why s := rfl

theorem andThen_assoc (r : Run α) (first second : State α → Run α) :
    (r.andThen first).andThen second = r.andThen fun s => (first s).andThen second := by
  cases r <;> rfl

@[simp] theorem andThen_finished (r : Run α) : r.andThen finished = r := by
  cases r <;> rfl

end Run

/-! ### Expressions and conditions -/

/-- The value of an expression; `it` is the value bound by the nearest `whenPresent`. -/
def eval (w : World α) (it : Option (Value α)) (s : State α) :
    Expression → Except Stop (Value α)
  | .bound =>
      match it with
      | some value => .ok value
      | none => .error .stuck
  | .bundle source => .ok (w.bundleOf source)
  | .read getter key fallback =>
      match it with
      | some (.bundle stored) =>
          match stored key, fallback with
          | some value, _ => .ok (w.view getter value)
          | none, some field => .ok (s.fields field)
          | none, none => .error .stuck
      | _ => .error .stuck
  | .readString source key => .ok ((w.argument source key).elim .null Value.asText)
  | .readSerializable source key type => .ok ((w.argument source key).elim .null (w.cast type))
  | .readParcelable source key type => .ok ((w.argument source key).elim .null (w.cast type))
  | .serviceByType type => .ok (w.byType type)
  | .serviceByName key type nullable =>
      match w.cast type (w.byKey key) with
      | .null => if nullable then .ok .null else .error (.thrown .failedCast)
      | service => .ok service
  | .deserialize raw type =>
      match s.deserializer, s.locals raw with
      | none, _ => .ok .null
      | some build, some (.text words) => .ok ((build words type).getD .null)
      | some _, _ => .error .stuck

/-- The answer of a condition. -/
def test (it : Option (Value α)) (s : State α) : Condition → Except Stop Bool
  | .containsKey key =>
      match it with
      | some (.bundle stored) => .ok (stored key).isSome
      | _ => .error .stuck
  | .notNullOrEmpty name =>
      match s.locals name with
      | some (.text words) => .ok (words ≠ "")
      | some .null => .ok false
      | _ => .error .stuck
  | .deserializerAvailable => .ok s.deserializer.isSome
  | .fieldIsNull field => .ok (s.fields field).isNull

section

variable {w : World α} {it : Option (Value α)} {s : State α}

end

/-! ### Statements -/

/-- What a failed check does. -/
def fail (s : State α) : Failure → Run α
  | .fatal message => .stopped (.thrown (.missing message)) s
  | .diagnostic message => .finished (s.note [message])

mutual

/-- Executes a statement. -/
def exec (w : World α) (it : Option (Value α)) : Statement → State α → Run α
  | .resolveDeserializer, s => .finished { s with deserializer := w.deserializer }
  | .bindTarget owner message, s =>
      if w.targetIsA owner then .finished s
      else .stopped (.thrown (.wrongTarget message)) s
  | .assign field value, s =>
      match eval w it s value with
      | .error why => .stopped why s
      | .ok result => .finished (s.assign field result)
  | .declare name value, s =>
      match eval w it s value with
      | .error why => .stopped why s
      | .ok result => .finished (s.declare name result)
  | .whenPresent subject body, s =>
      match eval w it s subject with
      | .error why => .stopped why s
      | .ok .null => .finished s
      | .ok result => (execAll w (some result) body s).leave s
  | .ifThen condition yes no, s =>
      match test it s condition with
      | .error why => .stopped why s
      | .ok true => (execAll w it yes s).leave s
      | .ok false => (execElse w it no s).leave s
  | .require field failure, s => if (s.fields field).isNull then fail s failure else .finished s
  | .log message, s => .finished (s.note [message])

/-- Executes statements one after the other. -/
def execAll (w : World α) (it : Option (Value α)) : List Statement → State α → Run α
  | [], s => .finished s
  | statement :: rest, s => (exec w it statement s).andThen fun t => execAll w it rest t

/-- Executes an else branch, if there is one. -/
def execElse (w : World α) (it : Option (Value α)) : Option (List Statement) → State α → Run α
  | none, s => .finished s
  | some statements, s => execAll w it statements s

end

@[simp] theorem execAll_nil (w : World α) (it : Option (Value α)) (s : State α) :
    execAll w it [] s = .finished s := by
  rw [execAll]

@[simp] theorem execAll_cons (w : World α) (it : Option (Value α)) (statement : Statement)
    (rest : List Statement) (s : State α) :
    execAll w it (statement :: rest) s = (exec w it statement s).andThen (execAll w it rest) := by
  rw [execAll]

theorem execAll_singleton (w : World α) (it : Option (Value α)) (statement : Statement)
    (s : State α) : execAll w it [statement] s = exec w it statement s := by
  rw [execAll_cons]
  have hnil : execAll w it [] = Run.finished := funext fun t => execAll_nil w it t
  rw [hnil, Run.andThen_finished]

/-- Statements that were put together are executed one part after the other. -/
theorem execAll_append (w : World α) (it : Option (Value α)) (first second : List Statement)
    (s : State α) :
    execAll w it (first ++ second) s = (execAll w it first s).andThen (execAll w it second) := by
  induction first generalizing s with
  | nil => rw [List.nil_append, execAll_nil, Run.finished_andThen]
  | cons statement rest ih =>
    rw [List.cons_append, execAll_cons, execAll_cons, Run.andThen_assoc]
    congr 1
    exact funext ih

section

variable {w : World α} {it : Option (Value α)} {s : State α}

end

/-! ### Whole runs -/

/-- What can be seen of a run: the fields of the target, the log, and the exception that ended
it, if one did. -/
structure Report (α : Type) where
  /-- The fields of the target. -/
  fields : String → Value α
  /-- The log, oldest entry first. -/
  log : List String
  /-- The exception that ended the run. -/
  exception : Option Thrown

/-- What can be seen of a run; a run that got stuck has no report. -/
def Run.report : Run α → Option (Report α)
  | finished s => some ⟨s.fields, s.log, none⟩
  | stopped (.thrown exception) s => some ⟨s.fields, s.log, some exception⟩
  | stopped .stuck _ => none

/-- A run of statements on a target with these fields. -/
def run (w : World α) (fields : String → Value α) (statements : List Statement) : Run α :=
  execAll w none statements
    { deserializer := none, fields, locals := fun _ => none, log := [] }

end Wiring.Runtime
