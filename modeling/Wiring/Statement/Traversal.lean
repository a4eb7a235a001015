import Wiring.Statement

/-!
# Walking through statements

A visitor walks through a list of statements and all the lists inside them, in source order,
carrying a state.  It enters a statement before the lists inside it and leaves it after them;
entering decides whether the lists inside are walked at all.  A statement is left even when
the lists inside it were passed over.

## Main definitions

* `Visitor` — what to do on entering and on leaving a statement.
* `Visitor.visit`, `Visitor.visitAll` — one walk.
* `visitInTurn` — several visitors, each walking the whole list before the next one starts.
* `Step`, `steps` — the record that visitors with given answers leave.

## Main results

* `Visitor.visit_eq` — a visit in terms of the lists directly inside a statement.
* `Visitor.visitAll_append` — the walk of a list that was put together.
-/

namespace Wiring

/-- What to do on entering and on leaving a statement. -/
structure Visitor (σ : Type) where
  /-- Enters a statement; the answer says whether to walk the lists inside it. -/
  enter : Statement → σ → Bool × σ
  /-- Leaves a statement. -/
  leave : Statement → σ → σ

namespace Visitor

variable {σ : Type}

mutual

/-- The walk through one statement. -/
def visit (v : Visitor σ) : Statement → σ → σ
  | .whenPresent subject body, s =>
      let entered := v.enter (.whenPresent subject body) s
      v.leave (.whenPresent subject body)
        (if entered.1 then v.visitAll body entered.2 else entered.2)
  | .ifThen condition yes no, s =>
      let entered := v.enter (.ifThen condition yes no) s
      v.leave (.ifThen condition yes no)
        (if entered.1 then v.visitElse no (v.visitAll yes entered.2) else entered.2)
  | .resolveDeserializer, s => v.leave .resolveDeserializer (v.enter .resolveDeserializer s).2
  | .bindTarget owner message, s =>
      v.leave (.bindTarget owner message) (v.enter (.bindTarget owner message) s).2
  | .assign field value, s => v.leave (.assign field value) (v.enter (.assign field value) s).2
  | .declare name value, s =>
      v.leave (.declare name value) (v.enter (.declare name value) s).2
  | .require field failure, s =>
      v.leave (.require field failure) (v.enter (.require field failure) s).2
  | .log message, s => v.leave (.log message) (v.enter (.log message) s).2

/-- The walk through a list of statements, one after the other. -/
def visitAll (v : Visitor σ) : List Statement → σ → σ
  | [], s => s
  | statement :: rest, s => v.visitAll rest (v.visit statement s)

/-- The walk through an else branch; a missing one adds nothing. -/
def visitElse (v : Visitor σ) : Option (List Statement) → σ → σ
  | none, s => s
  | some statements, s => v.visitAll statements s

end

@[simp] theorem visitAll_nil (v : Visitor σ) (s : σ) : v.visitAll [] s = s := rfl

@[simp] theorem visitAll_cons (v : Visitor σ) (statement : Statement) (rest : List Statement)
    (s : σ) : v.visitAll (statement :: rest) s = v.visitAll rest (v.visit statement s) := rfl

/-- A visit enters the statement, walks the lists directly inside it if so answered, and
leaves the statement. -/
theorem visit_eq (v : Visitor σ) (statement : Statement) (s : σ) :
    v.visit statement s =
      v.leave statement
        (if (v.enter statement s).1 then
          statement.children.foldl (fun t list => v.visitAll list t) (v.enter statement s).2
        else (v.enter statement s).2) := by
  cases statement with
  | whenPresent subject body => rfl
  | ifThen condition yes no => cases no <;> rfl
  | _ => simp [visit, Statement.children]

/-- The walk of a list that was put together is the walk of its parts. -/
theorem visitAll_append (v : Visitor σ) (first second : List Statement) (s : σ) :
    v.visitAll (first ++ second) s = v.visitAll second (v.visitAll first s) := by
  induction first generalizing s with
  | nil => rfl
  | cons statement rest ih => exact ih _

end Visitor

/-- Several visitors in turn: each walks the whole list before the next one starts. -/
def visitInTurn {σ : Type} (visitors : List (Visitor σ)) (statements : List Statement) (s : σ) :
    σ :=
  visitors.foldl (fun t v => v.visitAll statements t) s

/-! ### The record of a walk -/

/-- One step of a walk. -/
inductive Step where
  /-- The visitor of this number entered the statement. -/
  | entered (visitor : Nat) (statement : Statement)
  /-- The visitor of this number left the statement. -/
  | left (visitor : Nat) (statement : Statement)
  deriving Repr, Inhabited

/-- The visitor that records its steps, latest first, and goes into the statements that pass
the test. -/
def Visitor.recording (number : Nat) (goesInto : Statement → Bool) : Visitor (List Step) where
  enter statement steps := (goesInto statement, .entered number statement :: steps)
  leave statement steps := .left number statement :: steps

/-- The steps of recording visitors in turn, in the order they were taken. -/
def steps (answers : List (Statement → Bool)) (statements : List Statement) : List Step :=
  (visitInTurn (answers.mapIdx Visitor.recording) statements []).reverse

end Wiring
