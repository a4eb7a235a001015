import Wiring.Proofs.Recording

/-!
# Walking in batches

The walks may be given the statements of a unit all at once, or in batches one after the other, and
what one batch leaves is what the next one starts from.  Nothing that has been recorded is ever
taken back, and what a statement makes a walk record does not depend on what is there.  So a fact
about the record holds in the end exactly if some statement has established it, wherever it stands
in the trees, in whichever batch, however often the batch is walked, and whichever of the two walks
comes first.

## Main definitions

* `Visitor.Establishes` — on which statements a visitor establishes a fact about its state.
* `Statement.AsksRegistry`, `Statement.WritesLog`, `Statement.DescribesType` — the statements that
  need runtime helpers.
* `Statement.Needs` — the names that a written statement needs.
* `Records` — everything that is recorded from some statements.
* `Batched` — batches into which lists of statements have been cut, in any order, some of them
  repeated.

## Main results

* `establishes_typeVisitor`, `establishes_runtimeVisitor` — what a single statement establishes.
* `Visitor.Establishes.visitAll_iff`, `ofStatements_iff`, `foldl_ofStatements_iff` — facts after a
  walk, after both walks over a list, and after all batches.
* `Records.unique` — the statements determine the record.
* `records_of_batched` — **cutting, repeating and the order of the walks leave the record as it
  is.**
-/

namespace Wiring

/-! ### Facts that are established once and for all -/

/-- If each step establishes a fact for some elements and keeps it otherwise, it holds after all
steps exactly if it held before or one of the elements has established it. -/
theorem foldl_iff {σ α : Type} {P : σ → Prop} {p : α → Prop} {step : σ → α → σ}
    (hstep : ∀ s x, P (step s x) ↔ P s ∨ p x) (xs : List α) (s : σ) :
    P (xs.foldl step s) ↔ P s ∨ ∃ x ∈ xs, p x := by
  induction xs generalizing s with
  | nil => simp
  | cons x xs ih =>
    rw [List.foldl_cons, ih, hstep, or_assoc]
    simp only [List.mem_cons, exists_eq_or_imp]

/-- Entering a statement establishes a fact about the state exactly if the statement is of the given
kind, and otherwise the fact stays as it is. -/
def Visitor.Establishes {σ : Type} (v : Visitor σ) (P : σ → Prop) (p : Statement → Prop) : Prop :=
  ∀ statement s, P (v.enter statement s).2 ↔ P s ∨ p statement

/-- The walk of a visitor that goes into every statement and does nothing on leaving establishes a
fact exactly if there is a statement of the kind in the trees. -/
theorem Visitor.Establishes.visitAll_iff {σ : Type} {v : Visitor σ} {P : σ → Prop}
    {p : Statement → Prop} (h : v.Establishes P p)
    (henter : ∀ statement s, (v.enter statement s).1 = true)
    (hleave : ∀ statement s, v.leave statement s = s) (statements : List Statement) (s : σ) :
    P (v.visitAll statements s) ↔ P s ∨ ∃ statement ∈ preorderAll statements, p statement := by
  -- whatever is inside what, the walk meets the statements one after the other
  rw [Visitor.visitAll_eq_foldl henter hleave]
  exact foldl_iff (fun t statement => h statement t) _ _

/-! ### The statements that need runtime helpers -/

/-- The expression looks up a service. -/
def Expression.LooksUpService (value : Expression) : Prop :=
  (∃ type, value = .serviceByType type) ∨
    ∃ key type nullable, value = .serviceByName key type nullable

/-- The expression builds an object of a type that it describes by the generic token. -/
def Expression.DescribesType (value : Expression) : Prop :=
  ∃ raw type, value = .deserialize raw type

/-- The statement asks the service registry, or holds an expression that does. -/
def Statement.AsksRegistry (statement : Statement) : Prop :=
  statement = .resolveDeserializer ∨ ∃ value ∈ statement.expressions, value.LooksUpService

/-- The statement may write to the log. -/
def Statement.WritesLog (statement : Statement) : Prop :=
  (∃ message, statement = .log message) ∨
    ∃ field message, statement = .require field (.diagnostic message)

/-- The statement holds an expression that describes a type by the generic token. -/
def Statement.DescribesType (statement : Statement) : Prop :=
  ∃ value ∈ statement.expressions, value.DescribesType

/-- The written statement needs the name: it is in the owner's type that the target is cast to, or
at any depth in the type of an expression, or it is a runtime symbol. -/
def Statement.Needs (symbols : Symbols) (statement : Statement) (name : String) : Prop :=
  (∃ owner message, statement = .bindTarget owner message ∧ name ∈ owner.names) ∨
  (∃ value ∈ statement.expressions, ∃ type, value.type? = some type ∧ name ∈ type.names) ∨
  (name = symbols.registry ∧ statement.AsksRegistry) ∨
  (name = symbols.serializationService ∧ statement = .resolveDeserializer) ∨
  (name = symbols.logFacility ∧ statement.WritesLog) ∨
  (name = symbols.typeWrapper ∧ statement.DescribesType)

/-- Everything that is recorded from some statements, and from nothing else: those of the names they
need that have a dot, and which runtime helpers they use. -/
structure Records (symbols : Symbols) (statements : List Statement) (mentions : Mentions) :
    Prop where
  /-- The recorded names. -/
  mem_types_iff : ∀ name, name ∈ mentions.types ↔
    isDotted name = true ∧ ∃ statement ∈ statements, statement.Needs symbols name
  /-- The registry is used. -/
  usesRegistry_iff : mentions.usesRegistry = true ↔ ∃ statement ∈ statements, statement.AsksRegistry
  /-- The log is used. -/
  usesLog_iff : mentions.usesLog = true ↔ ∃ statement ∈ statements, statement.WritesLog
  /-- The generic token is used. -/
  usesTypeWrapper_iff :
    mentions.usesTypeWrapper = true ↔ ∃ statement ∈ statements, statement.DescribesType

/-! ### The names that a single statement makes the walks record -/

theorem Statement.mem_typeNames {statement : Statement} {name : String} :
    name ∈ statement.typeNames ↔
      (∃ owner message, statement = .bindTarget owner message ∧ name ∈ owner.names) ∨
        ∃ value ∈ statement.expressions, ∃ type, value.type? = some type ∧ name ∈ type.names := by
  unfold Statement.typeNames
  rw [List.mem_append, mem_typeNames_iff]
  cases statement <;> simp

theorem Expression.mem_helperNames {symbols : Symbols} {value : Expression} {name : String} :
    name ∈ value.helperNames symbols ↔
      (name = symbols.registry ∧ value.LooksUpService) ∨
        (name = symbols.typeWrapper ∧ value.DescribesType) := by
  unfold Expression.LooksUpService Expression.DescribesType
  cases value <;> simp [Expression.helperNames]

theorem Statement.mem_helperNames {symbols : Symbols} {statement : Statement} {name : String} :
    name ∈ statement.helperNames symbols ↔
      (name = symbols.registry ∧ statement.AsksRegistry) ∨
      (name = symbols.serializationService ∧ statement = .resolveDeserializer) ∨
      (name = symbols.logFacility ∧ statement.WritesLog) ∨
      (name = symbols.typeWrapper ∧ statement.DescribesType) := by
  unfold Statement.helperNames Statement.AsksRegistry Statement.WritesLog Statement.DescribesType
  rw [List.mem_append, List.mem_flatMap]
  simp only [Expression.mem_helperNames]
  cases statement with
  | resolveDeserializer => simp [Statement.expressions]
  | log message => simp [Statement.expressions]
  | require field failure => cases failure <;> simp [Statement.expressions]
  | _ => simp [Statement.expressions]

/-- The names that the two walks record on entering a statement are those that it needs. -/
theorem Statement.needs_iff {symbols : Symbols} {statement : Statement} {name : String} :
    statement.Needs symbols name ↔
      name ∈ statement.typeNames ∨ name ∈ statement.helperNames symbols := by
  rw [Statement.mem_typeNames, Statement.mem_helperNames, or_assoc]
  rfl

/-! ### What a single statement establishes -/

namespace Mentions

variable (mentions : Mentions)

@[simp] theorem usesRegistry_note (name : String) :
    (mentions.note name).usesRegistry = mentions.usesRegistry := by
  unfold note; split <;> rfl

@[simp] theorem usesLog_note (name : String) :
    (mentions.note name).usesLog = mentions.usesLog := by
  unfold note; split <;> rfl

@[simp] theorem usesTypeWrapper_note (name : String) :
    (mentions.note name).usesTypeWrapper = mentions.usesTypeWrapper := by
  unfold note; split <;> rfl

end Mentions

section Establishing

variable {symbols : Symbols} {P : Mentions → Prop}

/-- The walk for types establishes no fact that recording a name does not touch. -/
theorem establishes_typeVisitor
    (hnote : ∀ mentions name, P (mentions.note name) ↔ P mentions) :
    typeVisitor.Establishes P fun _ => False := by
  have hsame : ∀ mentions name, P (mentions.note name) ↔ P mentions ∨ False := by
    simpa only [or_false] using hnote
  have htype : ∀ mentions type, P (mentions.noteType type) ↔ P mentions ∨ False := by
    intro mentions type
    refine (foldl_iff hsame type.names mentions).trans ?_
    simp
  intro statement mentions
  refine (foldl_iff htype _ _).trans ?_
  cases statement with
  | bindTarget owner message => simp [htype]
  | _ => simp

/-- The walk for runtime symbols establishes a fact that recording a name does not touch at the
statements of those kinds whose flag establishes it. -/
theorem establishes_runtimeVisitor (registry log token : Prop)
    (hnote : ∀ mentions name, P (mentions.note name) ↔ P mentions)
    (hregistry : ∀ mentions : Mentions, P { mentions with usesRegistry := true } ↔
      P mentions ∨ registry)
    (hlog : ∀ mentions : Mentions, P { mentions with usesLog := true } ↔ P mentions ∨ log)
    (htoken : ∀ mentions : Mentions, P { mentions with usesTypeWrapper := true } ↔
      P mentions ∨ token) :
    (runtimeVisitor symbols).Establishes P fun statement =>
      (registry ∧ statement.AsksRegistry) ∨ (log ∧ statement.WritesLog) ∨
        (token ∧ statement.DescribesType) := by
  have hvalue : ∀ mentions value, P (Mentions.noteHelpers symbols mentions value) ↔
      P mentions ∨ ((registry ∧ value.LooksUpService) ∨ (token ∧ value.DescribesType)) := by
    intro mentions value
    unfold Expression.LooksUpService Expression.DescribesType
    cases value <;> simp [Mentions.noteHelpers, Mentions.noteRegistry, hnote, hregistry, htoken]
  intro statement mentions
  refine (foldl_iff hvalue _ _).trans ?_
  unfold Statement.AsksRegistry Statement.WritesLog Statement.DescribesType
  -- a statement sets a flag of its own or holds an expression that may, and never both
  cases statement with
  | resolveDeserializer =>
    simp [Mentions.noteRegistry, hnote, hregistry, Statement.expressions]
  | log message => simp [Mentions.noteLog, hnote, hlog, Statement.expressions]
  | require field failure =>
    cases failure <;> simp [Mentions.noteLog, hnote, hlog, Statement.expressions]
  | _ => simp [Statement.expressions]

end Establishing

/-! ### Both walks, over all batches -/

section Batches

variable {symbols : Symbols} {visitors : List (Visitor Mentions)} {P : Mentions → Prop}
  {p q : Statement → Prop}

/-- After both walks over a list, in either order, a fact holds exactly if it held before or a
statement in the trees has established it in one of the walks. -/
theorem ofStatements_iff
    (hvisitors : visitors = [typeVisitor, runtimeVisitor symbols] ∨
      visitors = [runtimeVisitor symbols, typeVisitor])
    (htypes : typeVisitor.Establishes P p) (hruntime : (runtimeVisitor symbols).Establishes P q)
    (mentions : Mentions) (statements : List Statement) :
    P (Mentions.ofStatements visitors mentions statements) ↔
      P mentions ∨ ∃ statement ∈ preorderAll statements, p statement ∨ q statement := by
  have hfirst := htypes.visitAll_iff (fun _ _ => rfl) (fun _ _ => rfl) statements
  have hsecond := hruntime.visitAll_iff (fun _ _ => rfl) (fun _ _ => rfl) statements
  have hboth : (∃ statement ∈ preorderAll statements, p statement ∨ q statement) ↔
      (∃ statement ∈ preorderAll statements, p statement) ∨
        ∃ statement ∈ preorderAll statements, q statement := by
    simp only [and_or_left, exists_or]
  rw [hboth]
  -- the later walk starts from what the earlier one leaves
  rcases hvisitors with rfl | rfl
  · refine (hsecond _).trans ?_
    rw [hfirst, or_assoc]
  · refine (hfirst _).trans ?_
    rw [hsecond, or_assoc, or_comm (b := ∃ statement ∈ preorderAll statements, p statement)]

/-- After all batches a fact holds exactly if a statement somewhere in them has established it. -/
theorem foldl_ofStatements_iff
    (hvisitors : visitors = [typeVisitor, runtimeVisitor symbols] ∨
      visitors = [runtimeVisitor symbols, typeVisitor])
    (htypes : typeVisitor.Establishes P p) (hruntime : (runtimeVisitor symbols).Establishes P q)
    (hnone : ¬ P .none) (batches : List (List Statement)) :
    P (batches.foldl (Mentions.ofStatements visitors) .none) ↔
      ∃ statement ∈ preorderAll batches.flatten, p statement ∨ q statement := by
  rw [foldl_iff (ofStatements_iff hvisitors htypes hruntime), or_iff_right hnone,
    preorderAll_flatten]
  constructor
  · rintro ⟨batch, hbatch, statement, hmem, hkind⟩
    exact ⟨statement, List.mem_flatMap.mpr ⟨batch, hbatch, hmem⟩, hkind⟩
  · rintro ⟨statement, hmem, hkind⟩
    obtain ⟨batch, hbatch, hmem⟩ := List.mem_flatMap.mp hmem
    exact ⟨batch, hbatch, statement, hmem, hkind⟩

/-- All batches together record what the statements in them mention. -/
theorem records_foldl_ofStatements
    (hvisitors : visitors = [typeVisitor, runtimeVisitor symbols] ∨
      visitors = [runtimeVisitor symbols, typeVisitor]) (batches : List (List Statement)) :
    Records symbols (preorderAll batches.flatten)
      (batches.foldl (Mentions.ofStatements visitors) .none) where
  mem_types_iff name := by
    have htypes : typeVisitor.Establishes (fun mentions => name ∈ mentions.types)
        fun statement => isDotted name = true ∧ name ∈ statement.typeNames :=
      fun statement mentions => Adds.enter_typeVisitor mentions statement name
    have hruntime : (runtimeVisitor symbols).Establishes (fun mentions => name ∈ mentions.types)
        fun statement => isDotted name = true ∧ name ∈ statement.helperNames symbols :=
      fun statement mentions => Adds.enter_runtimeVisitor symbols mentions statement name
    have hall := foldl_ofStatements_iff hvisitors htypes hruntime (NameSet.not_mem_empty name)
      batches
    refine hall.trans ?_
    simp only [Statement.needs_iff, ← and_or_left, and_left_comm, exists_and_left]
  usesRegistry_iff := by
    have hall := foldl_ofStatements_iff hvisitors
      (P := fun mentions => mentions.usesRegistry = true) (establishes_typeVisitor (by simp))
      (establishes_runtimeVisitor True False False (by simp) (by simp) (by simp) (by simp))
      (by simp [Mentions.none]) batches
    simpa using hall
  usesLog_iff := by
    have hall := foldl_ofStatements_iff hvisitors
      (P := fun mentions => mentions.usesLog = true) (establishes_typeVisitor (by simp))
      (establishes_runtimeVisitor False True False (by simp) (by simp) (by simp) (by simp))
      (by simp [Mentions.none]) batches
    simpa using hall
  usesTypeWrapper_iff := by
    have hall := foldl_ofStatements_iff hvisitors
      (P := fun mentions => mentions.usesTypeWrapper = true) (establishes_typeVisitor (by simp))
      (establishes_runtimeVisitor False False True (by simp) (by simp) (by simp) (by simp))
      (by simp [Mentions.none]) batches
    simpa using hall

/-- Statements of the same kinds leave one record. -/
theorem Records.unique {statements others : List Statement} {mentions more : Mentions}
    (h : Records symbols statements mentions) (hmore : Records symbols others more)
    (hsame : ∀ statement, statement ∈ statements ↔ statement ∈ others) : mentions = more := by
  have htypes : mentions.types = more.types := NameSet.ext fun name => by
    simp only [h.mem_types_iff, hmore.mem_types_iff, hsame]
  have hregistry : mentions.usesRegistry = more.usesRegistry := Bool.eq_iff_iff.mpr <| by
    simp only [h.usesRegistry_iff, hmore.usesRegistry_iff, hsame]
  have hlog : mentions.usesLog = more.usesLog := Bool.eq_iff_iff.mpr <| by
    simp only [h.usesLog_iff, hmore.usesLog_iff, hsame]
  have hwrapper : mentions.usesTypeWrapper = more.usesTypeWrapper := Bool.eq_iff_iff.mpr <| by
    simp only [h.usesTypeWrapper_iff, hmore.usesTypeWrapper_iff, hsame]
  cases mentions
  cases more
  simp_all

/-- The batches come from cutting each of some lists of statements into consecutive pieces; they are
walked in any order, each at least once. -/
def Batched (forests batches : List (List Statement)) : Prop :=
  ∃ cuts : List (List (List Statement)), cuts.map List.flatten = forests ∧
    ∀ batch, batch ∈ batches ↔ ∃ cut ∈ cuts, batch ∈ cut

/-- Batches have the statements of the lists that they were cut from, at every depth. -/
theorem Batched.mem_preorderAll_iff {forests batches : List (List Statement)}
    (h : Batched forests batches) {statement : Statement} :
    statement ∈ preorderAll batches.flatten ↔ statement ∈ preorderAll forests.flatten := by
  obtain ⟨cuts, rfl, hbatches⟩ := h
  simp only [preorderAll_flatten, List.mem_flatMap, List.mem_map, hbatches]
  constructor
  · rintro ⟨batch, ⟨cut, hcut, hbatch⟩, hmem⟩
    refine ⟨cut.flatten, ⟨cut, hcut, rfl⟩, ?_⟩
    rw [preorderAll_flatten]
    exact List.mem_flatMap.mpr ⟨batch, hbatch, hmem⟩
  · rintro ⟨-, ⟨cut, hcut, rfl⟩, hmem⟩
    rw [preorderAll_flatten] at hmem
    obtain ⟨batch, hbatch, hmem⟩ := List.mem_flatMap.mp hmem
    exact ⟨batch, ⟨cut, hcut, hbatch⟩, hmem⟩

/-- **Cutting, repeating and the order of the walks leave the record as it is.**  If lists of
statements are cut into batches, which are walked in any order, some of them repeatedly, and with
either of the two walks first, then the record is the same as when each list is walked once and as a
whole.  It has exactly the dotted names that some statement at any depth needs, and each helper is
marked as used exactly if some statement at any depth uses it. -/
theorem records_of_batched (symbols : Symbols) (visitors : List (Visitor Mentions))
    (forests batches : List (List Statement))
    (hvisitors : visitors = [typeVisitor, runtimeVisitor symbols] ∨
      visitors = [runtimeVisitor symbols, typeVisitor])
    (hbatches : Batched forests batches) :
    batches.foldl (Mentions.ofStatements visitors) .none =
        forests.foldl (Mentions.ofStatements (standardVisitors symbols)) .none ∧
      Records symbols (preorderAll forests.flatten)
        (batches.foldl (Mentions.ofStatements visitors) .none) := by
  have hwhole : Records symbols (preorderAll forests.flatten)
      (forests.foldl (Mentions.ofStatements (standardVisitors symbols)) .none) :=
    records_foldl_ofStatements (.inl rfl) forests
  have hcut := records_foldl_ofStatements hvisitors batches
  have heq := hcut.unique hwhole fun _ => hbatches.mem_preorderAll_iff
  refine ⟨heq, ?_⟩
  rw [heq]
  exact hwhole

/-- A branch in which a service is looked up or, if that is not possible, a message is logged. -/
def branching : Statement :=
  .ifThen .deserializerAvailable
    [.declare "service" (.serviceByType (.ofName "com.example.Service"))] (some [.log "missing"])

/-- The branch and the service that builds objects, cut apart, the latter first and once more at the
end, with the walk for runtime symbols before the one for types. -/
theorem records_of_batched_repeated :
    [[.resolveDeserializer], [branching], [.resolveDeserializer]].foldl
        (Mentions.ofStatements [runtimeVisitor {}, typeVisitor]) .none =
      [[branching, .resolveDeserializer]].foldl
        (Mentions.ofStatements (standardVisitors {})) .none ∧
    Records {} (preorderAll [[branching, .resolveDeserializer]].flatten)
      ([[.resolveDeserializer], [branching], [.resolveDeserializer]].foldl
        (Mentions.ofStatements [runtimeVisitor {}, typeVisitor]) .none) := by
  have hbatched : Batched [[branching, .resolveDeserializer]]
      [[.resolveDeserializer], [branching], [.resolveDeserializer]] := by
    refine ⟨[[[branching], [.resolveDeserializer]]], rfl, fun batch => ?_⟩
    simp only [List.mem_cons, List.not_mem_nil, or_false, exists_eq_left]
    grind
  exact records_of_batched {} _ _ _ (.inr rfl) hbatched

end Batches

end Wiring
