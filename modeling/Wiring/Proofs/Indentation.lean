import Wiring.Proofs.Layout

/-!
# Indentation

Writing statements opens blocks and closes them again, and all of this goes through one counter of
the buffer.  The counter is never lowered below zero, which would hide a block that is closed too
often; so the writer is compared with one that refuses to lower it there.  It is never refused, and
the lines of the statements depend on the buffer only through the depth at which they start.

## Main definitions

* `LineStep`, `SourceText.take` — the whole lines that writing consists of.
* `SourceText.takeAll?` — taking steps with a dedent that is refused at depth zero.
* `Dialect.steps`, `Dialect.stepsAll` — the steps of statements.
* `Dialect.linesAt` — the lines of statements at a depth.
* `openFunction` — the buffer at the start of the body of the generated function.

## Main results

* `takeAll?_steps`, `takeAll?_stepsAll` — no dedent is refused.
* `writeAll_eq_linesAt` — writing statements adds their lines and changes nothing else.
* `linesAt_succ` — one level deeper, each line has four more blanks.
* `writeAll_indented` — all of this, and that **the body of the generated function is the statements
  of the injector, written at depth two**.
-/

namespace Wiring

/-! ### Steps of writing -/

/-- A whole line, and what it does to the depth of indentation. -/
inductive LineStep where
  /-- Keeps the depth. -/
  | plain (text : String)
  /-- Raises the depth for what follows. -/
  | opening (text : String)
  /-- Lowers the depth. -/
  | closing (text : String)
  /-- Lowers the depth for this line only. -/
  | reopening (text : String)
  deriving Repr, DecidableEq, Inhabited

/-- The step lowers the depth, at least for its own line. -/
def LineStep.lowers : LineStep → Bool
  | plain _ => false
  | opening _ => false
  | closing _ => true
  | reopening _ => true

namespace SourceText

/-- Adds the line of a step. -/
def take (out : SourceText) : LineStep → SourceText
  | .plain text => out.line text
  | .opening text => out.openBlock text
  | .closing text => out.closeBlock text
  | .reopening text => out.reopenBlock text

/-- Adds the lines of steps, as long as none of them lowers the depth at zero. -/
def takeAll? : List LineStep → SourceText → Option SourceText
  | [], out => some out
  | step :: rest, out =>
      if step.lowers && out.depth = 0 then none else takeAll? rest (out.take step)

@[simp] theorem line_depth (out : SourceText) (text : String) :
    (out.line text).depth = out.depth := rfl

@[simp] theorem openBlock_depth (out : SourceText) (text : String) :
    (out.openBlock text).depth = out.depth + 1 := rfl

@[simp] theorem closeBlock_depth (out : SourceText) (text : String) :
    (out.closeBlock text).depth = out.depth - 1 := rfl

@[simp] theorem reopenBlock_depth (out : SourceText) (text : String) :
    (out.reopenBlock text).depth = out.depth - 1 + 1 := rfl

@[simp] theorem takeAll?_nil (out : SourceText) : takeAll? [] out = some out := rfl

@[simp] theorem takeAll?_plain (text : String) (rest : List LineStep) (out : SourceText) :
    takeAll? (.plain text :: rest) out = takeAll? rest (out.line text) := rfl

@[simp] theorem takeAll?_opening (text : String) (rest : List LineStep) (out : SourceText) :
    takeAll? (.opening text :: rest) out = takeAll? rest (out.openBlock text) := rfl

/-- Above depth zero no step is refused. -/
theorem takeAll?_of_pos {out : SourceText} (h : 0 < out.depth) (step : LineStep)
    (rest : List LineStep) : takeAll? (step :: rest) out = takeAll? rest (out.take step) := by
  rw [takeAll?, if_neg]
  simp [Nat.ne_of_gt h]

/-- A line that closes a block, on a fresh buffer. -/
theorem closeBlock_fresh {out : SourceText} (h : out.current = "") (text : String) :
    out.closeBlock text =
      { out with lines := out.lines ++ [indentation (out.depth - 1) ++ text],
                 depth := out.depth - 1 } := by
  rw [closeBlock, line_fresh (by exact h)]

theorem takeAll?_append (first second : List LineStep) (out : SourceText) :
    takeAll? (first ++ second) out = (takeAll? first out).bind (takeAll? second) := by
  induction first generalizing out with
  | nil => rfl
  | cons step rest ih =>
    rw [List.cons_append, takeAll?, takeAll?]
    split
    · rfl
    · exact ih _

end SourceText

namespace Kotlin

open SourceText

namespace Dialect

mutual

/-- The steps of a statement. -/
def steps (d : Dialect) : Statement → List LineStep
  | .resolveDeserializer => [.plain d.resolveLine]
  | .bindTarget owner message => [.plain (d.bindLine owner message)]
  | .assign field value =>
      [.plain (boundTarget ++ "." ++ identifier field ++ " = " ++ d.expression value)]
  | .declare name value => [.plain ("val " ++ identifier name ++ " = " ++ d.expression value)]
  | .whenPresent subject body =>
      .opening (d.expression subject ++ "?.let \x7b") :: d.stepsAll body ++ [.closing "\x7d"]
  | .ifThen condition yes no =>
      .opening (ifLine condition) :: d.stepsAll yes ++ (d.stepsElse no ++ [.closing "\x7d"])
  | .require field failure =>
      [.opening (ifLine (.fieldIsNull field)), .plain (d.failureLine failure), .closing "\x7d"]
  | .log message => [.plain (d.logCall message)]

/-- The steps of statements, one after the other. -/
def stepsAll (d : Dialect) : List Statement → List LineStep
  | [] => []
  | statement :: rest => d.steps statement ++ d.stepsAll rest

/-- The steps of an else branch, if there is one. -/
def stepsElse (d : Dialect) : Option (List Statement) → List LineStep
  | none => []
  | some statements => .reopening "\x7d else \x7b" :: d.stepsAll statements

end

mutual

/-- A statement ends at the depth at which it starts. -/
theorem write_depth (d : Dialect) : ∀ (statement : Statement) (out : SourceText),
    (d.write statement out).depth = out.depth
  | .resolveDeserializer, _ => rfl
  | .bindTarget _ _, _ => rfl
  | .assign _ _, _ => rfl
  | .declare _ _, _ => rfl
  | .whenPresent subject body, out => by
      rw [write, closeBlock_depth, writeAll_depth d body, openBlock_depth, Nat.add_sub_cancel]
  | .ifThen condition yes no, out => by
      have hyes := writeAll_depth d yes (out.openBlock (ifLine condition))
      rw [write, closeBlock_depth, writeElse_depth d no (by rw [hyes]; exact Nat.succ_pos _), hyes,
        openBlock_depth, Nat.add_sub_cancel]
  | .require _ _, _ => rfl
  | .log _, _ => rfl

theorem writeAll_depth (d : Dialect) : ∀ (statements : List Statement) (out : SourceText),
    (d.writeAll statements out).depth = out.depth
  | [], _ => by rw [writeAll]
  | statement :: rest, out => by rw [writeAll, writeAll_depth d rest, write_depth d statement]

/-- An else branch ends at the depth of the branch before it. -/
theorem writeElse_depth (d : Dialect) : ∀ (no : Option (List Statement)) {out : SourceText},
    0 < out.depth → (d.writeElse no out).depth = out.depth
  | none, _, _ => by rw [writeElse]
  | some statements, out, h => by
      rw [writeElse, writeAll_depth d statements, reopenBlock_depth, Nat.sub_add_cancel h]

end

mutual

/-- Writing a statement takes its steps, and no dedent is refused. -/
theorem takeAll?_steps (d : Dialect) : ∀ (statement : Statement) (out : SourceText),
    takeAll? (d.steps statement) out = some (d.write statement out)
  | .resolveDeserializer, _ => by rw [steps, write, takeAll?_plain, takeAll?_nil]
  | .bindTarget _ _, _ => by rw [steps, write, takeAll?_plain, takeAll?_nil]
  | .assign _ _, _ => by rw [steps, write, takeAll?_plain, takeAll?_nil]
  | .declare _ _, _ => by rw [steps, write, takeAll?_plain, takeAll?_nil]
  | .whenPresent subject body, out => by
      have hdepth := writeAll_depth d body (out.openBlock (d.expression subject ++ "?.let \x7b"))
      rw [steps, write, List.cons_append, takeAll?_opening, takeAll?_append,
        takeAll?_stepsAll d body, Option.bind_some, takeAll?_of_pos, takeAll?_nil, take]
      rw [hdepth]
      exact Nat.succ_pos _
  | .ifThen condition yes no, out => by
      have hyes := writeAll_depth d yes (out.openBlock (ifLine condition))
      have hpos : 0 < (d.writeAll yes (out.openBlock (ifLine condition))).depth := by
        rw [hyes]
        exact Nat.succ_pos _
      rw [steps, write, List.cons_append, takeAll?_opening, takeAll?_append,
        takeAll?_stepsAll d yes, Option.bind_some, takeAll?_append, takeAll?_stepsElse d no hpos,
        Option.bind_some, takeAll?_of_pos, takeAll?_nil, take]
      rwa [writeElse_depth d no hpos]
  | .require field failure, out => by
      rw [steps, write, takeAll?_opening, takeAll?_plain, takeAll?_of_pos, takeAll?_nil, take]
      exact Nat.succ_pos _
  | .log _, _ => by rw [steps, write, takeAll?_plain, takeAll?_nil]

/-- Writing statements takes their steps, and no dedent is refused. -/
theorem takeAll?_stepsAll (d : Dialect) : ∀ (statements : List Statement) (out : SourceText),
    takeAll? (d.stepsAll statements) out = some (d.writeAll statements out)
  | [], _ => by rw [stepsAll, writeAll, takeAll?_nil]
  | statement :: rest, out => by
      rw [stepsAll, writeAll, takeAll?_append, takeAll?_steps d statement, Option.bind_some,
        takeAll?_stepsAll d rest]

/-- Inside a block an else branch may be written. -/
theorem takeAll?_stepsElse (d : Dialect) : ∀ (no : Option (List Statement)) {out : SourceText},
    0 < out.depth → takeAll? (d.stepsElse no) out = some (d.writeElse no out)
  | none, _, _ => by rw [stepsElse, writeElse, takeAll?_nil]
  | some statements, out, h => by
      rw [stepsElse, writeElse, takeAll?_of_pos h, take, takeAll?_stepsAll d statements]

end

/-! ### Lines at a depth -/

/-- The lines of statements at a depth. -/
def linesAt (d : Dialect) (depth : Nat) (statements : List Statement) : List String :=
  (d.writeAll statements { SourceText.empty with depth }).lines

theorem linesAt_eq (d : Dialect) (depth : Nat) (statements : List Statement) :
    d.linesAt depth statements =
      (statementLinesAll d.symbols depth statements).map (Line.spell d.short) := by
  rw [linesAt, writeAll_eq d statements _ rfl]
  rfl

/-- Writing statements on a fresh buffer adds the lines of its depth and changes nothing else. -/
theorem writeAll_eq_linesAt (d : Dialect) (statements : List Statement) {out : SourceText}
    (h : out.current = "") :
    d.writeAll statements out =
      { out with lines := out.lines ++ d.linesAt out.depth statements } := by
  rw [writeAll_eq d statements out h, linesAt_eq]
  rfl

theorem writeAll_append (d : Dialect) (first second : List Statement) (out : SourceText) :
    d.writeAll (first ++ second) out = d.writeAll second (d.writeAll first out) := by
  induction first generalizing out with
  | nil => rw [List.nil_append, writeAll]
  | cons statement rest ih => rw [List.cons_append, writeAll, writeAll, ih]

end Dialect

/-- The line one level deeper. -/
def Line.deeper (line : Line) : Line := { line with depth := line.depth + 1 }

theorem Line.spell_deeper (short : NameSet) (line : Line) :
    line.deeper.spell short = "    " ++ line.spell short := by
  have hblanks : SourceText.indentation (line.depth + 1) =
      "    " ++ SourceText.indentation line.depth := by
    rw [← String.toList_inj]
    simp [SourceText.indentation, String.toList_append, Nat.mul_add, Nat.add_comm,
      List.replicate_add]
  rw [Line.spell, Line.spell, Line.deeper, hblanks, String.append_assoc]

mutual

/-- The lines of a statement one level deeper. -/
theorem statementLines_succ (symbols : Symbols) (depth : Nat) : ∀ statement : Statement,
    statementLines symbols (depth + 1) statement =
      (statementLines symbols depth statement).map Line.deeper
  | .resolveDeserializer => rfl
  | .bindTarget _ _ => rfl
  | .assign _ _ => rfl
  | .declare _ _ => rfl
  | .whenPresent subject body => by
      rw [statementLines, statementLines, statementLinesAll_succ symbols (depth + 1) body]
      simp [Line.deeper]
  | .ifThen condition yes no => by
      rw [statementLines, statementLines, statementLinesAll_succ symbols (depth + 1) yes,
        statementLinesElse_succ symbols depth no]
      simp [Line.deeper]
  | .require _ _ => rfl
  | .log _ => rfl

theorem statementLinesAll_succ (symbols : Symbols) (depth : Nat) :
    ∀ statements : List Statement,
      statementLinesAll symbols (depth + 1) statements =
        (statementLinesAll symbols depth statements).map Line.deeper
  | [] => rfl
  | statement :: rest => by
      rw [statementLinesAll, statementLinesAll, statementLines_succ symbols depth statement,
        statementLinesAll_succ symbols depth rest, List.map_append]

theorem statementLinesElse_succ (symbols : Symbols) (depth : Nat) :
    ∀ no : Option (List Statement),
      statementLinesElse symbols (depth + 1) no =
        (statementLinesElse symbols depth no).map Line.deeper
  | none => rfl
  | some statements => by
      rw [statementLinesElse, statementLinesElse,
        statementLinesAll_succ symbols (depth + 1) statements, List.map_cons]
      rfl

end

/-- **One level deeper each line has four more blanks.** -/
theorem Dialect.linesAt_succ (d : Dialect) (depth : Nat) (statements : List Statement) :
    d.linesAt (depth + 1) statements = (d.linesAt depth statements).map ("    " ++ ·) := by
  rw [linesAt_eq, linesAt_eq, statementLinesAll_succ, List.map_map, List.map_map]
  exact List.map_congr_left fun line _ => Line.spell_deeper d.short line

/-! ### The body of the generated function -/

/-- The steps that close the function and the class. -/
def closingSteps : List LineStep := [.closing "\x7d", .closing "\x7d"]

/-- How a unit is written. -/
def dialectOf (settings : Settings) (injector : Injector) : Dialect :=
  ⟨settings.symbols, injector.simpleNames⟩

/-- The buffer at the start of the body of the generated function. -/
def openFunction (settings : Settings) (injector : Injector) : SourceText :=
  let d := dialectOf settings injector
  ((((writeHead settings injector .empty).openBlock (classLine d injector)).line
    (memberLine d)).newline).openBlock functionLine

section

variable (settings : Settings) (injector : Injector)

theorem openFunction_eq :
    openFunction settings injector =
      addLines injector.simpleNames .empty
        (headLines settings injector ++ frameLines settings.symbols injector) 2 := by
  unfold openFunction
  dsimp only
  rw [writeHead_eq injector.simpleNames,
    writeFrame_eq (dialectOf settings injector) injector rfl rfl]
  exact addLines_addLines _ _ _ _ _

theorem openFunction_depth : (openFunction settings injector).depth = 2 := by
  rw [openFunction_eq, addLines_depth]

theorem openFunction_current : (openFunction settings injector).current = "" := by
  rw [openFunction_eq]
  rfl

/-- The body starts below the opening line of the function. -/
theorem getLast?_lines_openFunction :
    (openFunction settings injector).lines.getLast? = some ("    " ++ functionLine) := by
  have hline : Line.spell injector.simpleNames ⟨1, [.text functionLine]⟩ =
      "    " ++ functionLine := by
    rw [Line.spell, spellPieces_cons, spellPieces_nil, String.append_empty, Piece.spell]
    rfl
  rw [openFunction_eq, addLines, frameLines, ← hline]
  simp

/-- The lines of an injector are those above the body, the body at depth two, and two braces. -/
theorem lines_writeInjector :
    (writeInjector settings injector).lines =
      (openFunction settings injector).lines ++
        (dialectOf settings injector).linesAt 2 injector.statements ++ ["    \x7d", "\x7d"] := by
  have hclosing : [⟨1, [.text "\x7d"]⟩, ⟨0, [.text "\x7d"]⟩].map
      (Line.spell injector.simpleNames) = ["    \x7d", "\x7d"] := by rfl
  rw [writeInjector_eq, openFunction_eq, Dialect.linesAt_eq, injectorLines, List.map_append,
    hclosing, List.map_append]
  rfl

/-- An injector is written by the steps of all its statements and two more; its marks apart. -/
theorem takeAll?_body :
    takeAll? ((dialectOf settings injector).stepsAll injector.statements ++ closingSteps)
        (openFunction settings injector) =
      some { writeInjector settings injector with marks := [] } := by
  have hfresh := openFunction_current settings injector
  have hdepth := openFunction_depth settings injector
  have hmarks : (openFunction settings injector).marks = [] := by
    rw [openFunction_eq]
    rfl
  have hwritten : { writeInjector settings injector with marks := [] } =
      (⟨(openFunction settings injector).lines ++
        (dialectOf settings injector).linesAt 2 injector.statements ++ ["    \x7d", "\x7d"],
        "", 0, []⟩ : SourceText) := by
    rw [← lines_writeInjector, writeInjector_eq]
  -- the body leaves the depth at two, so both braces may lower it
  rw [takeAll?_append, Dialect.takeAll?_stepsAll, Option.bind_some,
    Dialect.writeAll_eq_linesAt _ _ hfresh, hdepth, closingSteps,
    takeAll?_of_pos (by exact Nat.two_pos), take, closeBlock_fresh (by exact hfresh),
    takeAll?_of_pos (by exact Nat.one_pos), take,
    closeBlock_fresh (by exact hfresh), takeAll?_nil, hwritten]
  simp only [hfresh, hmarks, List.append_assoc]
  rfl

end

/-- **The body of the generated function is the statements of the injector, written at depth two.**
On a buffer at the start of a line, statements are written without a dedent at depth zero; they add
their lines and change nothing else, and these depend on the depth only: one level deeper each has
four more blanks.  Lists of statements are written one after the other.  The function is opened at
depth two, and closing it and the class leads back to depth zero. -/
theorem writeAll_indented (d : Dialect) (first second : List Statement) (out : SourceText)
    (h : out.current = "") :
    takeAll? (d.stepsAll first) out = some (d.writeAll first out) ∧
    d.writeAll first out = { out with lines := out.lines ++ d.linesAt out.depth first } ∧
    (∀ depth, d.linesAt (depth + 1) first = (d.linesAt depth first).map ("    " ++ ·)) ∧
    d.writeAll (first ++ second) out = d.writeAll second (d.writeAll first out) ∧
    ∀ settings injector,
      (openFunction settings injector).depth = 2 ∧
      (openFunction settings injector).current = "" ∧
      (openFunction settings injector).lines.getLast? = some ("    " ++ functionLine) ∧
      takeAll? ((dialectOf settings injector).stepsAll injector.statements ++ closingSteps)
          (openFunction settings injector) =
        some { writeInjector settings injector with marks := [] } ∧
      (writeInjector settings injector).depth = 0 ∧
      (SourceFile.ofInjector settings injector).code =
        Text.unlines ((openFunction settings injector).lines ++
          (dialectOf settings injector).linesAt 2 injector.statements ++
            ["    \x7d", "\x7d"]) ++ "\n" := by
  refine ⟨d.takeAll?_stepsAll first out, d.writeAll_eq_linesAt first h,
    fun depth => d.linesAt_succ depth first, d.writeAll_append first second out,
    fun settings injector => ⟨openFunction_depth settings injector,
      openFunction_current settings injector, getLast?_lines_openFunction settings injector,
      takeAll?_body settings injector, ?_, ?_⟩⟩
  · rw [writeInjector_eq]
  · rw [← lines_writeInjector, SourceFile.ofInjector, writeInjector_eq]
    rfl

/-- A test with two branches, the second of which has a block of its own. -/
def nestedTest : List Statement :=
  [.ifThen (.fieldIsNull "a") [.assign "a" .bound]
    (some [.whenPresent .bound [.assign "b" .bound]])]

/-- Its lines at depth one. -/
def nestedLines : List String :=
  ["    if (substitute.a == null) \x7b", "        substitute.a = it", "    \x7d else \x7b",
    "        it?.let \x7b", "            substitute.b = it", "        \x7d", "    \x7d"]

/-- A buffer at depth one that has a line and a mark. -/
def begunText : SourceText := ⟨["class A \x7b"], "", 1, [⟨0, "a"⟩]⟩

/-- Blocks inside branches are all closed again. -/
theorem writeAll_indented_nestedTest :
    begunText.current = "" ∧
    takeAll? (Dialect.stepsAll ⟨{}, .empty⟩ nestedTest) begunText =
      some ⟨"class A \x7b" :: nestedLines, "", 1, [⟨0, "a"⟩]⟩ ∧
    Dialect.linesAt ⟨{}, .empty⟩ 2 nestedTest = nestedLines.map ("    " ++ ·) := by
  obtain ⟨htaken, hwritten, hdeeper, -⟩ :=
    writeAll_indented ⟨{}, .empty⟩ nestedTest [] begunText rfl
  have hlines : Dialect.linesAt ⟨{}, .empty⟩ 1 nestedTest = nestedLines := by decide +kernel
  refine ⟨rfl, ?_, ?_⟩
  · rw [htaken, hwritten, begunText, hlines]
    rfl
  · rw [hdeeper 1, hlines]

end Kotlin

end Wiring
