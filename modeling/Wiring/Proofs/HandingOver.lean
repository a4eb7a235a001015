import Wiring.Proofs.FirstMisuse
import Wiring.Proofs.OwnerIndependence

/-!
# How files are handed to a sink

A pass is all or nothing up to the moment at which the first file is handed over: whatever fails
before, in the source or with any property, fails without a call of the sink.  From then on the
sink decides.  It is called for the files in order, once for each, until a call fails, and the pass
fails exactly if one does.

To say which calls a sink receives, it is watched: `Sink.watched` does what the sink does and keeps
its calls, and since a pass works with any sink it may be run with the watched one.

## Main definitions

* `SinkCall`, `Sink.watched` — the calls of a sink, and a sink that keeps them.
* `Sink.Serves` — a sink answers some calls, from one state to another.
* `HandedOver` — the calls that hand some files over, and the files a pass ends with or its problem.

## Main results

* `emitAll_watched` — how files are handed over.
* `compile_fails_iff` — compiling fails if it does for any property.
* `run_all_or_nothing` — **a pass hands over all files, all up to a failing call, or none.**
-/

namespace Wiring

/-! ### Calls of a sink -/

/-- A call of a sink. -/
structure SinkCall where
  /-- The file that is handed over. -/
  file : SourceFile
  /-- What the sink answers. -/
  answer : Except Problem Outcome

namespace SinkCall

/-- The sink takes the file. -/
def Taken (call : SinkCall) : Prop := ∃ outcome, call.answer = .ok outcome

/-- The path of the file, if the sink takes it with this outcome. -/
def path? (outcome : Outcome) (call : SinkCall) : Option Path :=
  match call.answer with
  | .ok answer => if answer = outcome then some call.file.relativePath else none
  | .error _ => none

theorem taken_ok (file : SourceFile) (outcome : Outcome) : Taken ⟨file, .ok outcome⟩ :=
  ⟨outcome, rfl⟩

theorem not_taken_error (file : SourceFile) (problem : Problem) :
    ¬ Taken ⟨file, .error problem⟩ := by
  rintro ⟨outcome, h⟩
  cases h

theorem path?_eq (outcome : Outcome) (call : SinkCall) :
    call.path? outcome = none ∨ call.path? outcome = some call.file.relativePath := by
  unfold path?
  split
  · split
    · exact .inr rfl
    · exact .inl rfl
  · exact .inl rfl

/-- The paths with one outcome are among those of all files, in the same order. -/
theorem sublist_paths (outcome : Outcome) (calls : List SinkCall) :
    (calls.filterMap (path? outcome)).Sublist (calls.map fun call => call.file.relativePath) := by
  induction calls with
  | nil => exact .slnil
  | cons call rest ih =>
    rw [List.map_cons]
    rcases path?_eq outcome call with hpath | hpath
    · rw [List.filterMap_cons_none hpath]
      exact ih.cons _
    · rw [List.filterMap_cons_some hpath]
      exact ih.cons_cons _

/-- Of files that are taken, each is written or unchanged. -/
theorem perm_paths {calls : List SinkCall} (h : ∀ call ∈ calls, call.Taken) :
    (calls.filterMap (path? .written) ++ calls.filterMap (path? .unchanged)).Perm
      (calls.map fun call => call.file.relativePath) := by
  induction calls with
  | nil => exact .nil
  | cons call rest ih =>
    rw [List.forall_mem_cons] at h
    obtain ⟨⟨outcome, houtcome⟩, hrest⟩ := h
    obtain ⟨file, answer⟩ := call
    obtain rfl : answer = .ok outcome := houtcome
    cases outcome with
    | written => exact (ih hrest).cons _
    | unchanged => exact List.perm_middle.trans ((ih hrest).cons _)

end SinkCall

namespace Sink

variable {σ : Type}

/-- A sink that keeps its calls. -/
def watched (sink : Sink σ) : Sink (σ × List SinkCall) where
  emit := fun (state, calls) file =>
    let (next, answer) := sink.emit state file
    ((next, calls ++ [⟨file, answer⟩]), answer)

theorem watched_emit {sink : Sink σ} {state next : σ} {file : SourceFile}
    {answer : Except Problem Outcome} (h : sink.emit state file = (next, answer))
    (earlier : List SinkCall) :
    sink.watched.emit (state, earlier) file = ((next, earlier ++ [⟨file, answer⟩]), answer) := by
  simp only [watched, h]

/-- A sink in one state answers some calls one after the other and is then in another state. -/
inductive Serves (sink : Sink σ) : σ → List SinkCall → σ → Prop
  /-- Nothing happens without a call. -/
  | nothing (state : σ) : Serves sink state [] state
  /-- Each call is answered in the state that the one before has left. -/
  | call {state next last : σ} {file : SourceFile} {answer : Except Problem Outcome}
      {rest : List SinkCall} (hcall : sink.emit state file = (next, answer))
      (hrest : Serves sink next rest last) : Serves sink state (⟨file, answer⟩ :: rest) last

end Sink

/-! ### Handing files over -/

/-- The calls that hand some files over, and what comes of it. -/
inductive HandedOver (files : List SourceFile) : List SinkCall → Except Problem Summary → Prop
  /-- All files are taken. -/
  | all {calls : List SinkCall} {summary : Summary} (hfiles : calls.map SinkCall.file = files)
      (htaken : ∀ call ∈ calls, call.Taken) : HandedOver files calls (.ok summary)
  /-- The files before some file are taken; that one is not, and no more files are handed over. -/
  | stopped (taken : List SinkCall) {file : SourceFile} {rest : List SourceFile} {problem : Problem}
      (hfiles : taken.map SinkCall.file ++ file :: rest = files)
      (htaken : ∀ call ∈ taken, call.Taken) :
      HandedOver files (taken ++ [⟨file, .error problem⟩]) (.error problem)

namespace HandedOver

variable {files : List SourceFile} {calls : List SinkCall} {result : Except Problem Summary}

/-- A file that is taken first. -/
theorem cons (h : HandedOver files calls result) (file : SourceFile) (outcome : Outcome) :
    HandedOver (file :: files) (⟨file, .ok outcome⟩ :: calls) result := by
  cases h with
  | all hfiles htaken =>
    exact .all (congrArg (file :: ·) hfiles)
      (List.forall_mem_cons.mpr ⟨SinkCall.taken_ok file outcome, htaken⟩)
  | stopped taken hfiles htaken =>
    exact .stopped (⟨file, .ok outcome⟩ :: taken) (congrArg (file :: ·) hfiles)
      (List.forall_mem_cons.mpr ⟨SinkCall.taken_ok file outcome, htaken⟩)

/-- The pass succeeds exactly if every file that is handed over is taken. -/
theorem succeeds_iff (h : HandedOver files calls result) :
    (∃ summary, result = .ok summary) ↔ ∀ call ∈ calls, call.Taken := by
  cases h with
  | all hfiles htaken => exact ⟨fun _ => htaken, fun _ => ⟨_, rfl⟩⟩
  | @stopped _ file _ problem hfiles htaken =>
    refine ⟨?_, fun hall => ?_⟩
    · rintro ⟨summary, hok⟩
      cases hok
    have hlast := hall ⟨file, .error problem⟩ (List.mem_append_right _ List.mem_cons_self)
    exact absurd hlast (SinkCall.not_taken_error file problem)

/-- If the pass succeeds, the paths of the written and of the unchanged files are those of all
files, each kind in order. -/
theorem paths {summary : Summary} (h : HandedOver files calls (.ok summary)) :
    (calls.filterMap (SinkCall.path? .written)).Sublist (files.map SourceFile.relativePath) ∧
    (calls.filterMap (SinkCall.path? .unchanged)).Sublist (files.map SourceFile.relativePath) ∧
    (calls.filterMap (SinkCall.path? .written) ++
      calls.filterMap (SinkCall.path? .unchanged)).Perm (files.map SourceFile.relativePath) := by
  cases h with
  | all hfiles htaken =>
    have hpaths : (calls.map fun call => call.file.relativePath) =
        files.map SourceFile.relativePath := by
      rw [← hfiles, List.map_map]
      rfl
    rw [← hpaths]
    exact ⟨SinkCall.sublist_paths _ _, SinkCall.sublist_paths _ _, SinkCall.perm_paths htaken⟩

end HandedOver

variable {σ : Type}

/-- Handing files over is calling the sink for one after the other.  The calls that the watched
sink keeps are the ones that the sink has answered, and the summary grows by the files that were
taken. -/
theorem emitAll_watched (sink : Sink σ) (files : List SourceFile) (before : Summary) (state : σ)
    (earlier : List SinkCall) :
    ∃ last calls result,
      emitAll sink before files state = (last, result) ∧
      emitAll sink.watched before files (state, earlier) = ((last, earlier ++ calls), result) ∧
      sink.Serves state calls last ∧ HandedOver files calls result ∧
      ∀ summary, result = .ok summary →
        summary.written = before.written ++ calls.filterMap (SinkCall.path? .written) ∧
        summary.unchanged = before.unchanged ++ calls.filterMap (SinkCall.path? .unchanged) := by
  induction files generalizing before state earlier with
  | nil =>
    refine ⟨state, [], .ok before, rfl, ?_, .nothing state, .all rfl (by simp), ?_⟩
    · rw [emitAll, List.append_nil]
    · rintro summary ⟨⟩
      simp only [List.filterMap_nil, List.append_nil, and_self]
  | cons file rest ih =>
    rcases hcall : sink.emit state file with ⟨next, problem | outcome⟩
    · -- a call that fails is the last one
      refine ⟨next, [⟨file, .error problem⟩], .error problem, ?_, ?_, .call hcall (.nothing next),
        .stopped [] rfl (by simp), fun summary h => by cases h⟩
      · rw [emitAll, hcall]
      · rw [emitAll, Sink.watched_emit hcall]
    · -- a file that is taken stands in the log and in the summary before the rest is handed over
      obtain ⟨last, calls, result, hrun, hwatched, hserves, hhanded, hsummary⟩ :=
        ih (before.add file.relativePath outcome) next (earlier ++ [⟨file, .ok outcome⟩])
      refine ⟨last, ⟨file, .ok outcome⟩ :: calls, result, ?_, ?_, .call hcall hserves,
        hhanded.cons file outcome, fun summary h => ?_⟩
      · rw [emitAll, hcall]
        exact hrun
      · rw [List.append_cons, emitAll, Sink.watched_emit hcall]
        exact hwatched
      · obtain ⟨hwritten, hunchanged⟩ := hsummary summary h
        rw [hwritten, hunchanged]
        cases outcome with
        | written => exact ⟨(List.append_cons ..).symm, rfl⟩
        | unchanged => exact ⟨rfl, (List.append_cons ..).symm⟩

/-! ### Passes -/

/-- Compiling fails with the first misuse, and with no other. -/
theorem compile_eq_error_iff {settings : Settings} {properties : List Property} {misuse : Misuse} :
    compile settings properties = .error misuse ↔ FirstMisuse settings properties misuse := by
  rw [← injectorsOf_eq_error_iff]
  unfold compile
  cases injectorsOf settings properties with
  | error fault => simp only [Except.error.injEq]
  | ok injectors => simp only [reduceCtorEq]

/-- Compiling fails if any property may not be injected, and if any owner starves one of its
properties. -/
theorem compile_fails_iff {settings : Settings} {properties : List Property} :
    (∃ misuse, compile settings properties = .error misuse) ↔
      (∃ property ∈ properties, ¬ property.Eligible) ∨
        ∃ owner ∈ ownersOf properties, owner.Starves settings properties := by
  simp only [compile_eq_error_iff]
  rw [exists_firstMisuse_iff]
  constructor
  · rintro (hrefused | ⟨-, hstarves⟩)
    · exact .inl hrefused
    · exact .inr hstarves
  · rintro (hrefused | hstarves)
    · exact .inl hrefused
    · -- a starved property only counts when none is refused
      by_cases hrefused : ∃ property ∈ properties, ¬ property.Eligible
      · exact .inl hrefused
      · push Not at hrefused
        exact .inr ⟨hrefused, hstarves⟩

/-- **A pass hands over all files, all up to a failing call, or none.**  If the source has a
problem, or compiling fails for any property, that ends the pass, and the sink is not called.
Otherwise the sink is called for the files in order, once for each, up to the first call that fails.
The pass succeeds exactly if no call fails, and then the written and the unchanged paths are those
of the files that the sink took as written and as unchanged, in order, together one for each
owner. -/
theorem run_all_or_nothing (settings : Settings) (source : PropertySource) (sink : Sink σ)
    (state : σ) :
    ∃ last calls result,
      run settings source sink state = (last, result) ∧
      run settings source sink.watched (state, []) = ((last, calls), result) ∧
      sink.Serves state calls last ∧
      (∀ problem, source.discover settings.symbols.marker = .error problem →
        calls = [] ∧ result = .error problem) ∧
      ∀ properties, source.discover settings.symbols.marker = .ok properties →
        ((∃ misuse, compile settings properties = .error misuse) ↔
          (∃ property ∈ properties, ¬ property.Eligible) ∨
            ∃ owner ∈ ownersOf properties, owner.Starves settings properties) ∧
        (∀ misuse, compile settings properties = .error misuse →
          calls = [] ∧ result = .error (.misuse misuse)) ∧
        ∀ files, compile settings properties = .ok files →
          HandedOver files calls result ∧
          ((∃ summary, result = .ok summary) ↔ ∀ call ∈ calls, call.Taken) ∧
          ∀ summary, result = .ok summary →
            summary.written = calls.filterMap (SinkCall.path? .written) ∧
            summary.unchanged = calls.filterMap (SinkCall.path? .unchanged) ∧
            summary.written.Sublist (files.map SourceFile.relativePath) ∧
            summary.unchanged.Sublist (files.map SourceFile.relativePath) ∧
            (summary.written ++ summary.unchanged).Perm (files.map SourceFile.relativePath) ∧
            summary.total = (ownerNames properties).length := by
  cases hdiscover : source.discover settings.symbols.marker with
  | error problem =>
    have hfiles : filesOf settings source = .error problem := by rw [filesOf, hdiscover]
    refine ⟨state, [], .error problem, by rw [run, hfiles], by rw [run, hfiles], .nothing state,
      fun other h => ?_, fun properties h => ?_⟩
    · exact ⟨rfl, congrArg Except.error (Except.error.inj h)⟩
    · cases h
  | ok properties =>
    cases hcompile : compile settings properties with
    | error misuse =>
      have hfiles : filesOf settings source = .error (.misuse misuse) := by
        rw [filesOf, hdiscover]
        simp only [hcompile]
      refine ⟨state, [], .error (.misuse misuse), by rw [run, hfiles], by rw [run, hfiles],
        .nothing state, fun problem h => (by cases h), fun others h => ?_⟩
      obtain rfl := Except.ok.inj h
      refine ⟨compile_fails_iff, fun other hother => ?_, fun files hok => ?_⟩
      · obtain rfl := Except.error.inj (hcompile.symm.trans hother)
        exact ⟨rfl, rfl⟩
      · rw [hcompile] at hok
        cases hok
    | ok files =>
      have hfiles : filesOf settings source = .ok files := by
        rw [filesOf, hdiscover]
        simp only [hcompile]
      obtain ⟨last, calls, result, hrun, hwatched, hserves, hhanded, hsummary⟩ :=
        emitAll_watched sink files .empty state []
      refine ⟨last, calls, result, by rw [run, hfiles]; exact hrun, ?_, hserves,
        fun problem h => (by cases h), fun others h => ?_⟩
      · rw [run, hfiles]
        exact hwatched
      obtain rfl := Except.ok.inj h
      refine ⟨compile_fails_iff, fun misuse hmisuse => ?_, fun others hok => ?_⟩
      · rw [hcompile] at hmisuse
        cases hmisuse
      obtain rfl := Except.ok.inj (hcompile.symm.trans hok)
      refine ⟨hhanded, hhanded.succeeds_iff, ?_⟩
      rintro summary rfl
      obtain ⟨hwritten, hunchanged⟩ := hsummary summary rfl
      rw [Summary.empty, List.nil_append] at hwritten hunchanged
      obtain ⟨hpathsWritten, hpathsUnchanged, hperm⟩ := hhanded.paths
      rw [← hwritten] at hpathsWritten hperm
      rw [← hunchanged] at hpathsUnchanged hperm
      refine ⟨hwritten, hunchanged, hpathsWritten, hpathsUnchanged, hperm, ?_⟩
      rw [Summary.total, ← List.length_append, hperm.length_eq, List.length_map,
        (forall₂_compile hcompile).length_eq]

end Wiring
