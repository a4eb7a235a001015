import Mathlib.Data.List.Basic
import Mathlib.Data.List.Lex
import Wiring.Proofs.Recording

/-!
# The order of a walk

A walk through a forest of statements is the row of calls that a visitor gets.  Equal statements
may stand at several places, so each call is taken together with the place of its statement: the
number of the statement among those directly inside the one around it, behind the place of that
one.  Places in the order of lists of numbers are places in source order.

A visitor may answer as it likes, and differently each time it is asked.  Whatever it answers, its
walk enters and leaves exactly the statements that are inside none it has passed over, each of
them once and in source order; and between entering a statement and leaving it, it enters and
leaves those inside it and no others.

## Main definitions

* `statementAt?` — the statement at a place of a forest.
* `Visitor.watched` — a visitor whose calls are noted.
* `watchInTurn` — visitors in turn, with all calls noted.
* `Walk` — the possible walks through a forest.
* `Open`, `Nested` — which places a walk gets to, and what happens between entering and leaving.
* `InOrder` — what a walk is like.

## Main results

* `forest_induction` — induction over a forest, by first statement inside and next statement.
* `Visitor.exists_walk` — the calls of a visitor are a walk, and noting them changes nothing else.
* `Walk.inOrder` — every walk is in order.
* `watchInTurn_inOrder` — **visitors in turn walk in order, one after the other.**
* `steps_eq_calls` — what recording visitors write down are the calls they get.
-/

namespace Wiring

/-! ### Forests -/

/-- The statements directly inside a statement, list after list. -/
def Statement.inside (statement : Statement) : List Statement := statement.children.flatten

/-- The branches of a test follow one another; a missing else branch adds nothing. -/
theorem Statement.inside_ifThen (condition : Condition) (yes : List Statement)
    (no : Option (List Statement)) :
    (ifThen condition yes no).inside = yes ++ no.getD [] := by
  cases no <;> simp [inside, children]

/-- All statements of a tree are the one on top and those of the forest inside it. -/
theorem Statement.preorder_eq (statement : Statement) :
    statement.preorder = statement :: preorderAll statement.inside := by
  cases statement with
  | whenPresent subject body => simp [preorder, inside, children]
  | ifThen condition yes no =>
    cases no <;> simp [preorder, inside_ifThen, preorderAll_append, preorderElse]
  | _ => simp [preorder, inside, children, preorderAll]

/-- Induction over a forest: what holds of the forest inside the first statement and of the forest
behind it holds of the whole. -/
theorem forest_induction {motive : List Statement → Prop} (nil : motive [])
    (cons : ∀ statement rest, motive statement.inside → motive rest → motive (statement :: rest))
    (forest : List Statement) : motive forest := by
  -- both smaller forests have fewer statements, at all depths
  induction hcount : (preorderAll forest).length using Nat.strong_induction_on
    generalizing forest with
  | _ n ih =>
    cases forest with
    | nil => exact nil
    | cons statement rest =>
      rw [preorderAll, Statement.preorder_eq, List.length_append, List.length_cons] at hcount
      exact cons statement rest (ih _ (by omega) _ rfl) (ih _ (by omega) _ rfl)

/-! ### Places -/

/-- A place in a forest: the number of a statement, and then a place in the forest inside it. -/
abbrev Position := List Nat

/-- The same place among the statements behind another one. -/
def Position.next : Position → Position
  | [] => []
  | number :: inner => (number + 1) :: inner

/-- The place is inside the statement at the other one. -/
def Position.Below (position above : Position) : Prop := above <+: position ∧ above ≠ position

namespace Position

@[simp] theorem next_nil : next [] = [] := rfl

@[simp] theorem next_cons (number : Nat) (inner : Position) :
    next (number :: inner) = (number + 1) :: inner := rfl

theorem next_ne_cons_zero (position inner : Position) : position.next ≠ 0 :: inner := by
  cases position <;> simp

theorem next_ne_nil {position : Position} (h : position ≠ []) : position.next ≠ [] := by
  cases position with
  | nil => exact absurd rfl h
  | cons number inner => simp

theorem next_injective : Function.Injective next := by
  intro first second h
  cases first <;> cases second <;> simp_all

theorem next_lt_next {first second : Position} (h : first < second) : first.next < second.next := by
  cases first with
  | nil =>
    cases second with
    | nil => exact h
    | cons number inner => exact List.nil_lt_cons _ _
  | cons number inner =>
    cases second with
    | nil => exact absurd h (List.not_lt_nil _)
    | cons other more =>
      rw [List.cons_lt_cons_iff] at h
      rw [next_cons, next_cons, List.cons_lt_cons_iff]
      exact h.imp Nat.succ_lt_succ fun hsame => ⟨congrArg Nat.succ hsame.1, hsame.2⟩

/-- What is inside the first statement comes before what is behind it. -/
theorem cons_zero_lt_next (inner : Position) {position : Position} (h : position ≠ []) :
    0 :: inner < position.next := by
  cases position with
  | nil => exact absurd rfl h
  | cons number more =>
    rw [next_cons, List.cons_lt_cons_iff]
    exact .inl (Nat.succ_pos number)

@[simp] theorem below_cons_zero {position above : Position} :
    Below (0 :: position) (0 :: above) ↔ Below position above := by
  simp [Below]

@[simp] theorem below_next {position above : Position} :
    position.next.Below above.next ↔ position.Below above := by
  cases position <;> cases above <;> simp [Below]

theorem below_first {inner : Position} (h : inner ≠ []) : Below (0 :: inner) [0] := by
  simpa [Below] using h.symm

theorem not_below_first {position : Position} (above : Position) :
    ¬ position.next.Below (0 :: above) := by
  cases position <;> simp [Below]

theorem not_below_next (inner : Position) {above : Position} (h : above ≠ []) :
    ¬ Below (0 :: inner) above.next := by
  cases above with
  | nil => exact absurd rfl h
  | cons number more => simp [Below]

theorem not_first_below {above : Position} (h : above ≠ []) : ¬ Below [0] above := by
  cases above with
  | nil => exact absurd rfl h
  | cons number more =>
    rintro ⟨hinitial, hne⟩
    exact hne (hinitial.eq_of_length_le (by simp))

end Position

/-- The statement at a place. -/
def statementAt? (forest : List Statement) : Position → Option Statement
  | [] => none
  | number :: inner =>
      match forest[number]? with
      | none => none
      | some statement => if inner = [] then some statement else statementAt? statement.inside inner

section

variable {statement : Statement} {rest : List Statement}

@[simp] theorem statementAt?_nil (position : Position) : statementAt? [] position = none := by
  cases position <;> rfl

@[simp] theorem statementAt?_first : statementAt? (statement :: rest) [0] = some statement := rfl

theorem statementAt?_inside {inner : Position} (h : inner ≠ []) :
    statementAt? (statement :: rest) (0 :: inner) = statementAt? statement.inside inner := by
  simp [statementAt?, h]

@[simp] theorem statementAt?_next (position : Position) :
    statementAt? (statement :: rest) position.next = statementAt? rest position := by
  cases position <;> rfl

end

/-! ### Calls and walks -/

/-- What a visitor is called for. -/
inductive Turn where
  /-- To enter a statement; it answers whether to go inside. -/
  | enter (answer : Bool)
  /-- To leave a statement. -/
  | leave
  deriving Repr, DecidableEq, Inhabited

/-- A call of the visitor with a number. -/
structure Call where
  /-- The number of the visitor. -/
  visitor : Nat
  /-- The statement. -/
  statement : Statement
  /-- What the visitor is called for. -/
  turn : Turn
  deriving Repr, Inhabited

/-- A step of a walk: a call for the statement at a place. -/
structure Event where
  /-- The place. -/
  position : Position
  /-- The statement. -/
  statement : Statement
  /-- What the visitor is called for. -/
  turn : Turn
  deriving Repr, Inhabited

namespace Event

/-- The call of the visitor with a number. -/
def call (number : Nat) (event : Event) : Call := ⟨number, event.statement, event.turn⟩

/-- The same step inside the first statement of a forest. -/
def below (event : Event) : Event := { event with position := 0 :: event.position }

/-- The same step behind the first statement of a forest. -/
def next (event : Event) : Event := { event with position := event.position.next }

theorem call_comp_below (number : Nat) : call number ∘ below = call number := rfl

theorem call_comp_next (number : Nat) : call number ∘ next = call number := rfl

end Event

/-- The visitor that does the same and notes its calls, with its number. -/
def Visitor.watched {σ : Type} (v : Visitor σ) (number : Nat) : Visitor (σ × List Call) where
  enter statement s :=
    let entered := v.enter statement s.1
    (entered.1, entered.2, s.2 ++ [⟨number, statement, .enter entered.1⟩])
  leave statement s := (v.leave statement s.1, s.2 ++ [⟨number, statement, .leave⟩])

/-- Visitors in turn, with all calls noted. -/
def watchInTurn {σ : Type} (visitors : List (Visitor σ)) (forest : List Statement) (s : σ) :
    σ × List Call :=
  visitInTurn (visitors.mapIdx fun number v => v.watched number) forest (s, [])

/-- The first statement of a forest is entered, and left after what happens inside it; then the walk
goes on behind it. -/
def walkFrom (statement : Statement) (answer : Bool) (within after : List Event) : List Event :=
  ⟨[0], statement, .enter answer⟩ ::
    (within.map Event.below ++ ⟨[0], statement, .leave⟩ :: after.map Event.next)

/-- The walks through a forest, with any answers. -/
inductive Walk : List Statement → List Event → Prop where
  /-- There is nothing to walk through. -/
  | nil : Walk [] []
  /-- What is inside the first statement is walked through if the visitor so answers. -/
  | cons {statement : Statement} {rest : List Statement} {within after : List Event}
      (answer : Bool) (hwithin : Walk (if answer then statement.inside else []) within)
      (hafter : Walk rest after) : Walk (statement :: rest) (walkFrom statement answer within after)

namespace Visitor

variable {σ : Type} (v : Visitor σ)

/-- A visit walks through the forest inside the statement, if so answered. -/
theorem visit_of_enter {statement : Statement} {s entered : σ} {answer : Bool}
    (h : v.enter statement s = (answer, entered)) :
    v.visit statement s =
      v.leave statement (v.visitAll (if answer then statement.inside else []) entered) := by
  have hlists : ∀ (lists : List (List Statement)) (t : σ),
      lists.foldl (fun t list => v.visitAll list t) t = v.visitAll lists.flatten t := by
    intro lists
    induction lists with
    | nil => intro t; rfl
    | cons list lists ih => intro t; rw [List.foldl_cons, ih, List.flatten_cons, visitAll_append]
  rw [visit_eq, hlists, h, Statement.inside]
  cases answer <;> rfl

/-- The calls that a visitor gets on its way through a forest are a walk, and noting them changes
nothing else. -/
theorem exists_walk (number : Nat) (forest : List Statement) :
    ∀ (s : σ) (calls : List Call), ∃ walk, Walk forest walk ∧
      (v.watched number).visitAll forest (s, calls) =
        (v.visitAll forest s, calls ++ walk.map (Event.call number)) := by
  induction forest using forest_induction with
  | nil => exact fun s calls => ⟨[], .nil, by simp⟩
  | cons statement rest hinside hrest =>
    intro s calls
    rcases hentered : v.enter statement s with ⟨answer, entered⟩
    have hwatched : (v.watched number).enter statement (s, calls) =
        (answer, entered, calls ++ [⟨number, statement, .enter answer⟩]) := by
      simp [watched, hentered]
    -- what is inside a statement that is passed over is not walked through
    have hwithin : ∀ (t : σ) (noted : List Call), ∃ within,
        Walk (if answer then statement.inside else []) within ∧
        (v.watched number).visitAll (if answer then statement.inside else []) (t, noted) =
          (v.visitAll (if answer then statement.inside else []) t,
            noted ++ within.map (Event.call number)) := by
      cases answer with
      | true => exact hinside
      | false => exact fun t noted => ⟨[], .nil, by simp⟩
    obtain ⟨within, hwithin, hstate⟩ :=
      hwithin entered (calls ++ [⟨number, statement, .enter answer⟩])
    obtain ⟨after, hafter, hlast⟩ := hrest (v.visit statement s)
      (calls ++ [⟨number, statement, .enter answer⟩] ++ within.map (Event.call number) ++
        [⟨number, statement, .leave⟩])
    have hleave : (v.watched number).visit statement (s, calls) =
        (v.visit statement s, calls ++ [⟨number, statement, .enter answer⟩] ++
          within.map (Event.call number) ++ [⟨number, statement, .leave⟩]) := by
      rw [visit_of_enter _ hwatched, visit_of_enter _ hentered, hstate]
      rfl
    refine ⟨_, .cons answer hwithin hafter, ?_⟩
    rw [visitAll_cons, visitAll_cons, hleave, hlast]
    simp [walkFrom, Event.call, List.map_map, Event.call_comp_below, Event.call_comp_next]

end Visitor

/-! ### What a walk is like -/

namespace Turn

/-- A statement is entered. -/
def isEnter : Turn → Bool
  | enter _ => true
  | leave => false

/-- A statement is entered, and what is inside it is passed over. -/
def passesOver : Turn → Bool
  | enter answer => !answer
  | leave => false

/-- A statement is left. -/
def isLeave : Turn → Bool
  | enter _ => false
  | leave => true

end Turn

/-- The places of the steps of a kind, in the order of the walk. -/
def positionsOf (kind : Turn → Bool) (walk : List Event) : List Position :=
  (walk.filter fun event => kind event.turn).map Event.position

/-- The place is inside no statement that the walk has passed over. -/
def Open (walk : List Event) (position : Position) : Prop :=
  ∀ above ∈ positionsOf Turn.passesOver walk, ¬ position.Below above

/-- Between entering the statement at a place and leaving it stand all steps for those inside it,
and no others. -/
def Nested (walk : List Event) (position : Position) : Prop :=
  ∃ before statement answer between after,
    walk = before ++ ⟨position, statement, .enter answer⟩ :: between ++
      ⟨position, statement, .leave⟩ :: after ∧
    ∀ event ∈ walk, event ∈ between ↔ event.position.Below position

/-- A walk enters and leaves what it should, in the order in which it should. -/
structure InOrder (forest : List Statement) (walk : List Event) : Prop where
  /-- The statement of each step is the one at its place. -/
  statement_at : ∀ event ∈ walk, statementAt? forest event.position = some event.statement
  /-- Those statements are entered that are inside none that was passed over. -/
  entered_iff : ∀ position, position ∈ positionsOf Turn.isEnter walk ↔
    (statementAt? forest position).isSome = true ∧ Open walk position
  /-- Each of them is entered once, before those that come later in the source. -/
  entered_sorted : (positionsOf Turn.isEnter walk).Pairwise (· < ·)
  /-- The same statements are left, each of them once. -/
  left_perm : (positionsOf Turn.isLeave walk).Perm (positionsOf Turn.isEnter walk)
  /-- Whatever happens inside a statement happens between entering and leaving it. -/
  nested : ∀ position ∈ positionsOf Turn.isEnter walk, Nested walk position

section

variable {kind : Turn → Bool} {forest : List Statement} {walk within after : List Event}

theorem mem_positionsOf {position : Position} :
    position ∈ positionsOf kind walk ↔
      ∃ event ∈ walk, kind event.turn = true ∧ event.position = position := by
  simp [positionsOf, and_assoc]

variable {statement : Statement} {answer : Bool}

theorem mem_walkFrom {event : Event} :
    event ∈ walkFrom statement answer within after ↔
      event = ⟨[0], statement, .enter answer⟩ ∨ (∃ inner ∈ within, inner.below = event) ∨
        event = ⟨[0], statement, .leave⟩ ∨ ∃ later ∈ after, later.next = event := by
  simp [walkFrom]

theorem positionsOf_walkFrom :
    positionsOf kind (walkFrom statement answer within after) =
      (if kind (.enter answer) then [[0]] else []) ++ (positionsOf kind within).map (0 :: ·) ++
        (if kind .leave then [[0]] else []) ++ (positionsOf kind after).map Position.next := by
  have hwithin : positionsOf kind (within.map Event.below) =
      (positionsOf kind within).map (0 :: ·) := by
    simp [positionsOf, List.filter_map, Function.comp_def, Event.below]
  have hafter : positionsOf kind (after.map Event.next) =
      (positionsOf kind after).map Position.next := by
    simp [positionsOf, List.filter_map, Function.comp_def, Event.next]
  rw [← hwithin, ← hafter]
  unfold positionsOf walkFrom
  simp only [List.filter_append, List.filter_cons]
  split <;> split <;> simp

/-- The first statement is entered first. -/
theorem entered_walkFrom :
    positionsOf Turn.isEnter (walkFrom statement answer within after) =
      [0] :: ((positionsOf Turn.isEnter within).map (0 :: ·) ++
        (positionsOf Turn.isEnter after).map Position.next) := by
  simp [positionsOf_walkFrom, Turn.isEnter]

/-- The first statement is left after those inside it. -/
theorem left_walkFrom :
    positionsOf Turn.isLeave (walkFrom statement answer within after) =
      (positionsOf Turn.isLeave within).map (0 :: ·) ++
        [0] :: (positionsOf Turn.isLeave after).map Position.next := by
  simp [positionsOf_walkFrom, Turn.isLeave]

theorem mem_entered_walkFrom {position : Position} :
    position ∈ positionsOf Turn.isEnter (walkFrom statement answer within after) ↔
      position = [0] ∨ (∃ inner ∈ positionsOf Turn.isEnter within, 0 :: inner = position) ∨
        ∃ later ∈ positionsOf Turn.isEnter after, later.next = position := by
  simp [entered_walkFrom]

theorem entered_inside {inner : Position} (h : inner ≠ []) :
    0 :: inner ∈ positionsOf Turn.isEnter (walkFrom statement answer within after) ↔
      inner ∈ positionsOf Turn.isEnter within := by
  simp [mem_entered_walkFrom, h, Position.next_ne_cons_zero]

theorem entered_behind {later : Position} :
    later.next ∈ positionsOf Turn.isEnter (walkFrom statement answer within after) ↔
      later ∈ positionsOf Turn.isEnter after := by
  simp [mem_entered_walkFrom, Position.next_ne_cons_zero, (Position.next_ne_cons_zero _ _).symm,
    Position.next_injective.eq_iff]

theorem open_walkFrom {position : Position} :
    Open (walkFrom statement answer within after) position ↔
      (answer = false → ¬ position.Below [0]) ∧
        (∀ above ∈ positionsOf Turn.passesOver within, ¬ position.Below (0 :: above)) ∧
        ∀ above ∈ positionsOf Turn.passesOver after, ¬ position.Below above.next := by
  unfold Open
  cases answer <;> simp [positionsOf_walkFrom, Turn.passesOver, or_imp, forall_and]

namespace Walk

/-- Each step of a walk is for the statement at its place. -/
theorem statement_at (h : Walk forest walk) :
    ∀ event ∈ walk, statementAt? forest event.position = some event.statement := by
  induction h with
  | nil => simp
  | @cons statement rest within after answer hwithin _ ihwithin ihafter =>
    intro event hevent
    rcases mem_walkFrom.mp hevent with rfl | ⟨inner, hinner, rfl⟩ | rfl | ⟨later, hlater, rfl⟩
    · rfl
    · -- there is nothing inside a statement that is passed over
      have hat := ihwithin inner hinner
      cases answer with
      | false => rw [if_neg Bool.false_ne_true, statementAt?_nil] at hat; cases hat
      | true =>
        have hne : inner.position ≠ [] := by
          intro hnil
          rw [hnil] at hat
          cases hat
        exact (statementAt?_inside hne).trans hat
    · rfl
    · exact (statementAt?_next later.position).trans (ihafter later hlater)

/-- The place of a step is the place of a statement. -/
theorem step_ne_nil (h : Walk forest walk) {event : Event} (hevent : event ∈ walk) :
    event.position ≠ [] := by
  intro hnil
  have hat := h.statement_at event hevent
  rw [hnil] at hat
  cases hat

theorem position_ne_nil (h : Walk forest walk) {position : Position}
    (hmem : position ∈ positionsOf kind walk) : position ≠ [] := by
  obtain ⟨event, hevent, -, rfl⟩ := mem_positionsOf.mp hmem
  exact h.step_ne_nil hevent

/-- What is inside the first statement is open if the visitor goes inside and it is open there. -/
theorem open_inside (hafter : Walk forest after) {inner : Position} (h : inner ≠ []) :
    Open (walkFrom statement answer within after) (0 :: inner) ↔
      answer = true ∧ Open within inner := by
  have hbehind : ∀ above ∈ positionsOf Turn.passesOver after,
      ¬ Position.Below (0 :: inner) above.next :=
    fun above habove => Position.not_below_next inner (hafter.position_ne_nil habove)
  rw [open_walkFrom]
  simp only [Position.below_first h, Position.below_cons_zero, not_true, imp_false,
    Bool.not_eq_false]
  exact ⟨fun hall => ⟨hall.1, hall.2.1⟩, fun hall => ⟨hall.1, hall.2, hbehind⟩⟩

/-- What is behind the first statement is open if it is open there. -/
theorem open_behind {later : Position} :
    Open (walkFrom statement answer within after) later.next ↔ Open after later := by
  rw [open_walkFrom]
  simp [Position.not_below_first, Open]

/-- A walk enters the statements that are inside none it has passed over. -/
theorem entered_iff (h : Walk forest walk) : ∀ position,
    position ∈ positionsOf Turn.isEnter walk ↔
      (statementAt? forest position).isSome = true ∧ Open walk position := by
  induction h with
  | nil => simp [positionsOf]
  | @cons statement rest within after answer hwithin hafter ihwithin ihafter =>
    intro position
    match position with
    | [] =>
      have hne : [] ∉ positionsOf Turn.isEnter (walkFrom statement answer within after) :=
        fun hmem => (Walk.cons answer hwithin hafter).position_ne_nil hmem rfl
      simp [hne, statementAt?]
    | [0] =>
      -- nothing is above the first statement
      have hopen : Open (walkFrom statement answer within after) [0] :=
        fun above habove => Position.not_first_below
          ((Walk.cons answer hwithin hafter).position_ne_nil habove)
      simp [mem_entered_walkFrom, hopen]
    | 0 :: number :: inner =>
      have hne : number :: inner ≠ [] := List.cons_ne_nil number inner
      rw [entered_inside hne, open_inside hafter hne, statementAt?_inside hne, ihwithin]
      cases answer <;> simp
    | (number + 1) :: inner =>
      have hnext : (number + 1) :: inner = Position.next (number :: inner) := rfl
      rw [hnext, entered_behind, open_behind, statementAt?_next, ihafter]

/-- Statements are entered in source order. -/
theorem entered_sorted (h : Walk forest walk) :
    (positionsOf Turn.isEnter walk).Pairwise (· < ·) := by
  induction h with
  | nil => exact .nil
  | @cons statement rest within after answer hwithin hafter ihwithin ihafter =>
    have hinside : ((positionsOf Turn.isEnter within).map (0 :: ·)).Pairwise (· < ·) := by
      rw [List.pairwise_map]
      exact ihwithin.imp fun hlt => List.cons_lt_cons_iff.mpr (.inr ⟨rfl, hlt⟩)
    have hbehind : ((positionsOf Turn.isEnter after).map Position.next).Pairwise (· < ·) := by
      rw [List.pairwise_map]
      exact ihafter.imp Position.next_lt_next
    have hfirst : ∀ inner ∈ positionsOf Turn.isEnter within, [0] < 0 :: inner := by
      intro inner hinner
      obtain ⟨number, more, rfl⟩ := List.exists_cons_of_ne_nil (hwithin.position_ne_nil hinner)
      exact List.cons_lt_cons_iff.mpr (.inr ⟨rfl, List.nil_lt_cons number more⟩)
    have hlast : ∀ inner, ∀ later ∈ positionsOf Turn.isEnter after, 0 :: inner < later.next :=
      fun inner later hlater =>
        Position.cons_zero_lt_next inner (hafter.position_ne_nil hlater)
    rw [entered_walkFrom, List.pairwise_cons, List.pairwise_append]
    simp only [List.mem_append, List.mem_map]
    refine ⟨?_, hinside, hbehind, ?_⟩
    · rintro _ (⟨inner, hinner, rfl⟩ | ⟨later, hlater, rfl⟩)
      · exact hfirst inner hinner
      · exact hlast [] later hlater
    · rintro _ ⟨inner, -, rfl⟩ _ ⟨later, hlater, rfl⟩
      exact hlast inner later hlater

/-- The statements that are left are those that were entered. -/
theorem left_perm (h : Walk forest walk) :
    (positionsOf Turn.isLeave walk).Perm (positionsOf Turn.isEnter walk) := by
  induction h with
  | nil => exact .nil
  | cons answer _ _ ihwithin ihafter =>
    -- the first statement is left after all that is inside it
    rw [left_walkFrom, entered_walkFrom]
    exact List.perm_middle.trans
      (((ihwithin.map _).append (ihafter.map _)).cons [0])

/-- Steps inside the first statement stand between entering and leaving it. -/
theorem nested_first (hwithin : Walk forest within) :
    Nested (walkFrom statement answer within after) [0] := by
  refine ⟨[], statement, answer, within.map Event.below, after.map Event.next, by simp [walkFrom],
    fun event hevent => ⟨fun hbetween => ?_, fun hbelow => ?_⟩⟩
  · obtain ⟨inner, hinner, rfl⟩ := List.mem_map.mp hbetween
    exact Position.below_first (hwithin.step_ne_nil hinner)
  · rcases mem_walkFrom.mp hevent with rfl | ⟨inner, hinner, rfl⟩ | rfl | ⟨later, -, rfl⟩
    · exact absurd rfl hbelow.2
    · exact List.mem_map_of_mem hinner
    · exact absurd rfl hbelow.2
    · exact absurd hbelow (Position.not_below_first [])

/-- What is nested inside the first statement stays so. -/
theorem nested_inside {inner : Position} (h : Nested within inner) :
    Nested (walkFrom statement answer within after) (0 :: inner) := by
  obtain ⟨before, entered, reply, between, behind, rfl, hbetween⟩ := h
  refine ⟨⟨[0], statement, .enter answer⟩ :: before.map Event.below, entered, reply,
    between.map Event.below,
    behind.map Event.below ++ ⟨[0], statement, .leave⟩ :: after.map Event.next,
    by simp [walkFrom, Event.below], fun event hevent => ⟨fun hmem => ?_, fun hbelow => ?_⟩⟩
  · obtain ⟨step, hstep, rfl⟩ := List.mem_map.mp hmem
    exact Position.below_cons_zero.mpr ((hbetween step (by simp [hstep])).mp hstep)
  · rcases mem_walkFrom.mp hevent with rfl | ⟨step, hstep, rfl⟩ | rfl | ⟨later, -, rfl⟩
    · exact absurd hbelow (Position.not_first_below (List.cons_ne_nil 0 inner))
    · exact List.mem_map_of_mem ((hbetween step hstep).mpr (Position.below_cons_zero.mp hbelow))
    · exact absurd hbelow (Position.not_first_below (List.cons_ne_nil 0 inner))
    · exact absurd hbelow (Position.not_below_first inner)

/-- What is nested behind the first statement stays so. -/
theorem nested_behind {later : Position} (h : Nested after later) (hne : later ≠ []) :
    Nested (walkFrom statement answer within after) later.next := by
  obtain ⟨before, entered, reply, between, behind, rfl, hbetween⟩ := h
  refine ⟨⟨[0], statement, .enter answer⟩ ::
      (within.map Event.below ++ ⟨[0], statement, .leave⟩ :: before.map Event.next),
    entered, reply, between.map Event.next, behind.map Event.next,
    by simp [walkFrom, Event.next], fun event hevent => ⟨fun hmem => ?_, fun hbelow => ?_⟩⟩
  · obtain ⟨step, hstep, rfl⟩ := List.mem_map.mp hmem
    exact Position.below_next.mpr ((hbetween step (by simp [hstep])).mp hstep)
  · have hnext : later.next ≠ [] := Position.next_ne_nil hne
    rcases mem_walkFrom.mp hevent with rfl | ⟨inner, -, rfl⟩ | rfl | ⟨step, hstep, rfl⟩
    · exact absurd hbelow (Position.not_first_below hnext)
    · exact absurd hbelow (Position.not_below_next inner.position hne)
    · exact absurd hbelow (Position.not_first_below hnext)
    · exact List.mem_map_of_mem ((hbetween step hstep).mpr (Position.below_next.mp hbelow))

/-- Whatever happens inside a statement happens between entering and leaving it. -/
theorem nested (h : Walk forest walk) :
    ∀ position ∈ positionsOf Turn.isEnter walk, Nested walk position := by
  induction h with
  | nil => simp [positionsOf]
  | cons answer hwithin hafter ihwithin ihafter =>
    intro position hposition
    rcases mem_entered_walkFrom.mp hposition with rfl | ⟨inner, hinner, rfl⟩ | ⟨later, hlater, rfl⟩
    · exact nested_first hwithin
    · exact nested_inside (ihwithin inner hinner)
    · exact nested_behind (ihafter later hlater) (hafter.position_ne_nil hlater)

/-- Every walk is in order. -/
theorem inOrder (h : Walk forest walk) : InOrder forest walk :=
  ⟨h.statement_at, h.entered_iff, h.entered_sorted, h.left_perm, h.nested⟩

end Walk

end

/-! ### Visitors in turn -/

section

variable {σ : Type}

/-- The calls that visitors in turn get are walks through the whole forest, one after the other. -/
theorem exists_walks (forest : List Statement) (visitors : List (Visitor σ)) :
    ∀ (numbers : Nat → Nat) (s : σ) (calls : List Call), ∃ walks : List (List Event),
      walks.length = visitors.length ∧ (∀ walk ∈ walks, Walk forest walk) ∧
      visitInTurn (visitors.mapIdx fun number v => v.watched (numbers number)) forest (s, calls) =
        (visitInTurn visitors forest s,
          calls ++ (walks.mapIdx fun number walk =>
            walk.map (Event.call (numbers number))).flatten) := by
  induction visitors with
  | nil => exact fun _ s calls => ⟨[], by simp [visitInTurn]⟩
  | cons v rest ih =>
    -- the other visitors have the numbers from the second one on
    intro numbers s calls
    obtain ⟨walk, hwalk, hfirst⟩ := v.exists_walk (numbers 0) forest s calls
    obtain ⟨walks, hlength, hwalks, hrest⟩ := ih (fun number => numbers (number + 1))
      (v.visitAll forest s) (calls ++ walk.map (Event.call (numbers 0)))
    refine ⟨walk :: walks, by simp [hlength], List.forall_mem_cons.mpr ⟨hwalk, hwalks⟩, ?_⟩
    unfold visitInTurn at hrest ⊢
    rw [List.mapIdx_cons, List.foldl_cons, hfirst, hrest]
    simp

/-- **Visitors in turn walk in order**: each of them enters and leaves exactly the statements that
are inside none it has passed over, each of them once, in source order and properly nested, and the
next one starts when it is done with the whole forest.  The branches of a test follow one another,
and a missing one adds nothing. -/
theorem watchInTurn_inOrder (visitors : List (Visitor σ)) (forest : List Statement) (s : σ) :
    (∃ walks : List (List Event),
      walks.length = visitors.length ∧ (∀ walk ∈ walks, InOrder forest walk) ∧
      watchInTurn visitors forest s =
        (visitInTurn visitors forest s,
          (walks.mapIdx fun number walk => walk.map (Event.call number)).flatten)) ∧
    ∀ condition yes no, (Statement.ifThen condition yes no).inside = yes ++ no.getD [] := by
  obtain ⟨walks, hlength, hwalks, hcalls⟩ := exists_walks forest visitors id s []
  exact ⟨⟨walks, hlength, fun walk hwalk => (hwalks walk hwalk).inOrder, hcalls⟩,
    Statement.inside_ifThen⟩

end

/-! ### Recorded steps -/

/-- The visitor that keeps no state and goes into the statements that pass the test. -/
def Visitor.answering (goesInto : Statement → Bool) : Visitor Unit where
  enter statement _ := (goesInto statement, ())
  leave _ _ := ()

/-- A call as a recorded step. -/
def Call.step (call : Call) : Step :=
  match call.turn with
  | .enter _ => .entered call.visitor call.statement
  | .leave => .left call.visitor call.statement

/-- A visitor that does on the images of states what another one does on states ends in the
image. -/
theorem Visitor.visitAll_image {σ τ : Type} {v : Visitor σ} {w : Visitor τ} (f : σ → τ)
    (henter : ∀ statement s,
      w.enter statement (f s) = ((v.enter statement s).1, f (v.enter statement s).2))
    (hleave : ∀ statement s, w.leave statement (f s) = f (v.leave statement s))
    (forest : List Statement) : ∀ s, w.visitAll forest (f s) = f (v.visitAll forest s) := by
  induction forest using forest_induction with
  | nil => exact fun s => rfl
  | cons statement rest hinside hrest =>
    intro s
    have hvisit : w.visit statement (f s) = f (v.visit statement s) := by
      -- both visitors give the same answer
      rw [visit_of_enter w (henter statement s), visit_of_enter v rfl, ← hleave]
      cases (v.enter statement s).1 with
      | true => exact congrArg _ (hinside _)
      | false => rfl
    rw [visitAll_cons, visitAll_cons, hvisit, hrest]

/-- Recording visitors write down what watched ones that answer the same are called for. -/
theorem visitInTurn_recording (forest : List Statement) (answers : List (Statement → Bool)) :
    ∀ (numbers : Nat → Nat) (s : Unit × List Call),
      visitInTurn (answers.mapIdx fun number => Visitor.recording (numbers number)) forest
          (s.2.map Call.step).reverse =
        ((visitInTurn ((answers.map Visitor.answering).mapIdx fun number v =>
          v.watched (numbers number)) forest s).2.map Call.step).reverse := by
  induction answers with
  | nil => exact fun _ _ => rfl
  | cons goesInto answers ih =>
    intro numbers s
    have hfirst := Visitor.visitAll_image
      (v := (Visitor.answering goesInto).watched (numbers 0))
      (w := Visitor.recording (numbers 0) goesInto)
      (fun s => (s.2.map Call.step).reverse)
      (fun _ _ => by simp [Visitor.recording, Visitor.watched, Visitor.answering, Call.step])
      (fun _ _ => by simp [Visitor.recording, Visitor.watched, Call.step]) forest s
    unfold visitInTurn at ih ⊢
    rw [List.mapIdx_cons, List.foldl_cons, hfirst, ih fun number => numbers (number + 1)]
    simp

/-- The recorded steps are the calls that visitors with these answers get. -/
theorem steps_eq_calls (answers : List (Statement → Bool)) (forest : List Statement) :
    steps answers forest =
      (watchInTurn (answers.map Visitor.answering) forest ()).2.map Call.step := by
  have hrecorded := visitInTurn_recording forest answers id ((), [])
  exact (congrArg List.reverse hrecorded).trans (List.reverse_reverse _)

end Wiring
