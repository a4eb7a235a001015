import Wiring.Proofs.IndexText

/-!
# Sessions with an output folder

A session takes files and writes the index in any order, some of it with success and some not.
After every call the index and the disk are in step: what the index says was taken is what the
disk holds.

## Main definitions

* `FolderCall`, `Session` — calls of an output folder, and what they have come to.
* `Session.InStep` — the index and the disk are in step.

## Main results

* `Session.filled_run` — every session fills the disk with the files it has taken.
* `Session.inStep_run` — after every session the index and the disk are in step.
-/

namespace Wiring

/-- A call of an output folder. -/
inductive FolderCall where
  /-- It should take a file. -/
  | emit (file : SourceFile)
  /-- It should write its index. -/
  | writeIndex
  deriving Repr, DecidableEq, Inhabited

/-- An output folder, and the files it has taken, in order. -/
structure Session where
  /-- The folder. -/
  folder : OutputFolder
  /-- The files that it was given and took. -/
  taken : List SourceFile
  deriving Inhabited

namespace Session

open OutputFolder

/-- The session with a folder that has taken no file. -/
def fresh (disk : Disk) (root : Path) : Session := ⟨.fresh disk root, []⟩

/-- One more call.  A file is taken if there is no problem. -/
def call (session : Session) : FolderCall → Session
  | .emit file =>
      match session.folder.emit file with
      | (folder, .ok _) => ⟨folder, session.taken ++ [file]⟩
      | (folder, .error _) => { session with folder }
  | .writeIndex => { session with folder := session.folder.writeIndex.1 }

/-- Calls one after the other. -/
def run (session : Session) (calls : List FolderCall) : Session := calls.foldl call session

variable {disk : Disk} {root : Path}

/-- A call that should take a file takes it, or nothing but folders is made. -/
theorem call_emit_cases (session : Session) (file : SourceFile) :
    (∃ done outcome, session.folder.emit file = (done, .ok outcome) ∧
      session.call (.emit file) = ⟨done, session.taken ++ [file]⟩) ∨
    ∃ left problem, session.folder.emit file = (left, .error problem) ∧
      session.call (.emit file) = ⟨left, session.taken⟩ := by
  rcases hemit : session.folder.emit file with ⟨done, result⟩
  unfold call
  cases result with
  | ok outcome => exact .inl ⟨done, outcome, rfl, by simp only [hemit]⟩
  | error problem => exact .inr ⟨done, problem, rfl, by simp only [hemit]⟩

/-- One call keeps what has become of the disk in line with the files that were taken. -/
theorem filled_call {session : Session} (h : Filled disk root session.taken session.folder)
    (next : FolderCall) :
    Filled disk root (session.call next).taken (session.call next).folder := by
  cases next with
  | emit file =>
    rcases session.call_emit_cases file with
      ⟨done, outcome, hemit, hcall⟩ | ⟨left, problem, hemit, hcall⟩
    · rw [hcall]
      exact h.emit hemit
    · obtain ⟨hroot, hindex, hseries⟩ := emit_error hemit
      rw [hcall]
      exact h.quiet hroot hindex hseries fun _ hfalse => hfalse.elim
  | writeIndex =>
    rcases hwrite : session.folder.writeIndex with ⟨done, result⟩
    have hcall : session.call .writeIndex = ⟨done, session.taken⟩ := by
      unfold call
      simp only [hwrite]
    rw [hcall]
    cases result with
    | error problem =>
      obtain ⟨hroot, hindex, hseries⟩ := writeIndex_error hwrite
      exact h.quiet hroot hindex hseries fun _ hfalse => hfalse.elim
    | ok path => exact (h.writeIndex hwrite).toFilled

/-- Only files that were given are taken. -/
theorem taken_call {session : Session} {next : FolderCall} {file : SourceFile}
    (h : file ∈ (session.call next).taken) : file ∈ session.taken ∨ next = .emit file := by
  cases next with
  | emit given =>
    rcases session.call_emit_cases given with ⟨done, outcome, -, hcall⟩ | ⟨left, problem, -, hcall⟩
    · rw [hcall] at h
      rcases List.mem_append.mp h with h | h
      · exact .inl h
      · rw [List.mem_singleton.mp h]
        exact .inr rfl
    · rw [hcall] at h
      exact .inl h
  | writeIndex => exact .inl h

/-- **What has become of the disk** after any calls: it has the files that were taken. -/
theorem filled_run (disk : Disk) (root : Path) (calls : List FolderCall) :
    Filled disk root ((fresh disk root).run calls).taken ((fresh disk root).run calls).folder := by
  induction calls using List.reverseRecOn with
  | nil => exact filled_fresh disk root
  | append_singleton calls next ih =>
    rw [run, List.foldl_append]
    exact filled_call ih next

theorem taken_run {calls : List FolderCall} {file : SourceFile}
    (h : file ∈ ((fresh disk root).run calls).taken) : .emit file ∈ calls := by
  induction calls using List.reverseRecOn with
  | nil => exact absurd h List.not_mem_nil
  | append_singleton calls next ih =>
    rw [run, List.foldl_append] at h
    rcases taken_call h with h | rfl
    · exact List.mem_append_left _ (ih h)
    · simp

/-- **The index and the disk are in step.** -/
structure InStep (start : Disk) (root : Path) (session : Session) : Prop where
  /-- The keys of the index increase, so there is one entry for each. -/
  increasing : Json.Increasing session.folder.index
  /-- The index has the paths of the files that were taken, and no others, each with the source of
  the last file with that path. -/
  index : ∀ path source, session.folder.index.lookup path = some source ↔
    ∃ file, LastWith (fun file => file.relativePath.text = path) session.taken file ∧
      file.source = source
  /-- The path of a file that was taken leads to a file with the text of the last such file. -/
  holds : ∀ path file, LastWith (fun file => file.relativePath = path) session.taken file →
    session.folder.disk.readBytes (root.push path.text) = .ok file.code.toUTF8
  /-- Every other file, but for that of the index, is as it was at the start. -/
  others : ∀ place,
    (∀ file ∈ session.taken,
      session.folder.disk.locate (root.push file.relativePath.text) ≠ .ok place) →
    session.folder.disk.locate (root.push Provenance.fileName) ≠ .ok place →
    session.folder.disk.tree.bytesAt? place = start.tree.bytesAt? place
  /-- A file that is not taken leaves all files and the index as they are. -/
  failed : ∀ file left problem, session.folder.emit file = (left, .error problem) →
    left.index = session.folder.index ∧
      ∀ place, left.disk.tree.bytesAt? place = session.folder.disk.tree.bytesAt? place
  /-- A file is left alone exactly if its path leads to a file with its text. -/
  unchanged : ∀ file, (session.folder.emit file).2 = .ok .unchanged ↔
    session.folder.disk.readBytes (root.push file.relativePath.text) = .ok file.code.toUTF8
  /-- The index, once written, is read back from its file as it is. -/
  written : ∀ left path, session.folder.writeIndex = (left, .ok path) →
    path = root.push Provenance.fileName ∧ left.index = session.folder.index ∧
      ∃ text, left.disk.readText path = .ok text ∧ Provenance.ofText? text = some left.index

/-- **After any calls with plain files, successful or not, the index and the disk are in step.** -/
theorem inStep_run (disk : Disk) (root : Path) (calls : List FolderCall)
    (hplain : ∀ file, .emit file ∈ calls → file.Plain) :
    InStep disk root ((fresh disk root).run calls) := by
  have hfilled := filled_run disk root calls
  have htaken : ∀ file ∈ ((fresh disk root).run calls).taken, file.Plain :=
    fun file hmem => hplain file (taken_run hmem)
  generalize (fresh disk root).run calls = session at hfilled htaken
  have hincreasing : Json.Increasing session.folder.index := by
    rw [hfilled.index]
    exact Provenance.increasing_foldl_record session.taken
  have hpath : ∀ file, session.folder.pathOf file = root.push file.relativePath.text := by
    intro file
    rw [pathOf, hfilled.root]
  have hindexPath : session.folder.indexPath = root.push Provenance.fileName := by
    rw [indexPath, hfilled.root]
  constructor
  case increasing => exact hincreasing
  case index =>
    intro path source
    rw [hfilled.index, Provenance.lookup_foldl_record]
    refine exists_congr fun file => and_congr_left fun _ => lastWith_congr fun other hother => ?_
    rw [(htaken other hother).key]
  case holds =>
    intro path file hlast
    obtain ⟨place, hplace⟩ := hfilled.located file hlast.mem
    have hslashless : ∀ other ∈ session.taken, other.Slashless :=
      fun other hother => (htaken other hother).1
    have hbytes := hfilled.holds place file (lastWith_leadsTo hslashless hplace hlast)
    rw [← hlast.prop, ← hpath]
    exact Disk.readBytes_eq_ok_iff.mpr ⟨place, hplace, hbytes⟩
  case others =>
    intro place hfiles hindex
    refine hfilled.bytesAt?_start (fun file hmem => ?_) ?_
    · rw [LeadsTo, hpath]
      exact hfiles file hmem
    · rw [IndexAt, hindexPath]
      exact hindex
  case failed =>
    intro file left problem hemit
    obtain ⟨-, hindex, hseries⟩ := emit_error hemit
    exact ⟨hindex, fun place => hseries.bytesAt? id⟩
  case unchanged =>
    intro file
    rw [emit_unchanged_iff, hpath]
  case written =>
    intro left path hwrite
    obtain ⟨rfl, -, hindex, place, hplace, hbytes, -⟩ := writeIndex_ok hwrite
    refine ⟨hindexPath, hindex, session.folder.index.text, ?_, ?_⟩
    · exact Disk.readText_eq_ok_iff.mpr (Disk.readBytes_eq_ok_iff.mpr ⟨place, hplace, hbytes⟩)
    · rw [hindex]
      exact Provenance.ofText?_text hincreasing

/-- A file of the package and class of this name. -/
def namedFile (name code : String) (source : Option String) : SourceFile :=
  ⟨name, name, code, source, []⟩

/-- A disk on which a file stands where the folder of a package would be needed. -/
def blockedDisk : Disk := ⟨.folder [("out", .folder [("b", .file .empty)])], []⟩

/-- A file is taken, one is refused, and the first one is taken again with another text. -/
def takenTwice : List FolderCall :=
  [.emit (namedFile "a" "first" none), .emit (namedFile "b" "" none), .writeIndex,
    .emit (namedFile "a" "second" (some "A.kt"))]

/-- The file that was taken twice holds its second text and has its second source; the other one
is not in the index. -/
theorem inStep_takenTwice :
    (∀ file, .emit file ∈ takenTwice → file.Plain) ∧
    ((fresh blockedDisk ⟨"out"⟩).run takenTwice).folder.disk.readBytes ⟨"out/a/a.kt"⟩ =
      .ok "second".toUTF8 ∧
    ((fresh blockedDisk ⟨"out"⟩).run takenTwice).folder.index.lookup "a/a.kt" =
      some (some "A.kt") ∧
    ((fresh blockedDisk ⟨"out"⟩).run takenTwice).folder.index.lookup "b/b.kt" = none := by
  have hplain : ∀ file, .emit file ∈ takenTwice → file.Plain := by
    intro file hmem
    simp only [takenTwice, List.mem_cons, FolderCall.emit.injEq, reduceCtorEq, List.not_mem_nil,
      or_false, false_or] at hmem
    rcases hmem with rfl | rfl | rfl <;> decide
  have htaken : ((fresh blockedDisk ⟨"out"⟩).run takenTwice).taken =
      [namedFile "a" "first" none, namedFile "a" "second" (some "A.kt")] := by
    decide +kernel
  have hstep := inStep_run blockedDisk ⟨"out"⟩ takenTwice hplain
  generalize (fresh blockedDisk ⟨"out"⟩).run takenTwice = session at htaken hstep
  refine ⟨hplain, ?_, ?_, ?_⟩
  · refine hstep.holds ⟨"a/a.kt"⟩ (namedFile "a" "second" (some "A.kt")) ?_
    rw [htaken]
    exact ⟨[_], [], rfl, by decide, by simp⟩
  · refine (hstep.index _ _).mpr ⟨namedFile "a" "second" (some "A.kt"), ?_, rfl⟩
    rw [htaken]
    exact ⟨[_], [], rfl, by decide, by simp⟩
  · cases hlookup : session.folder.index.lookup "b/b.kt" with
    | none => rfl
    | some source =>
      obtain ⟨file, hlast, -⟩ := (hstep.index _ _).mp hlookup
      have hmem := hlast.mem
      rw [htaken] at hmem
      have hpath := hlast.prop
      simp only [List.mem_cons, List.not_mem_nil, or_false] at hmem
      rcases hmem with rfl | rfl <;> exact absurd hpath (by decide)

end Session

end Wiring
