import Wiring.Text.Lines

/-!
# Source text with indentation

A buffer for generated source text.  It holds the finished lines, the line being written and
the depth of indentation; a line is indented when its first text arrives, so an empty line
stays empty.  Fields can be marked with the number of the line that comes next.

## Main definitions

* `FieldMark` — a field and the line its statements start at.
* `SourceText` — the buffer.
* `SourceText.line`, `SourceText.openBlock`, `SourceText.closeBlock`, `SourceText.reopenBlock`
  — whole lines.
* `SourceText.finish` — the written text and the marks.

## Main results

* `SourceText.line_fresh` — a whole line on a fresh buffer.
-/

namespace Wiring

/-- A field and the number of the line its statements start at, counted from zero. -/
structure FieldMark where
  /-- The line. -/
  line : Nat
  /-- The name of the field. -/
  field : String
  deriving Repr, DecidableEq, Inhabited

/-- A buffer for generated source text. -/
structure SourceText where
  /-- The finished lines. -/
  lines : List String
  /-- The line being written. -/
  current : String
  /-- The depth of indentation. -/
  depth : Nat
  /-- The marks, in order. -/
  marks : List FieldMark
  deriving Repr, DecidableEq, Inhabited

namespace SourceText

/-- The buffer at the start. -/
def empty : SourceText := ⟨[], "", 0, []⟩

/-- The blanks before a line at a depth. -/
def indentation (depth : Nat) : String := String.ofList (List.replicate (4 * depth) ' ')

/-- Adds text to the line being written, and indentation before the first of it. -/
def push (out : SourceText) (text : String) : SourceText :=
  let before := if out.current = "" then indentation out.depth else out.current
  { out with current := before ++ text }

/-- Finishes the line being written. -/
def newline (out : SourceText) : SourceText :=
  { out with lines := out.lines ++ [out.current], current := "" }

/-- Adds a whole line. -/
def line (out : SourceText) (text : String) : SourceText := (out.push text).newline

/-- Adds a line and indents what follows. -/
def openBlock (out : SourceText) (text : String) : SourceText :=
  let written := out.line text
  { written with depth := written.depth + 1 }

/-- Ends the indentation and adds a line. -/
def closeBlock (out : SourceText) (text : String) : SourceText :=
  { out with depth := out.depth - 1 }.line text

/-- Ends the indentation for one line. -/
def reopenBlock (out : SourceText) (text : String) : SourceText :=
  let written := out.closeBlock text
  { written with depth := written.depth + 1 }

/-- Marks the next line as the first one of a field. -/
def markField (out : SourceText) (field : String) : SourceText :=
  { out with marks := out.marks ++ [⟨out.lines.length, field⟩] }

/-- The text written so far, each line ended by a line feed, and the marks.  A text without
lines is one empty line. -/
def finish (out : SourceText) : String × List FieldMark :=
  let done := if out.current = "" then out else out.newline
  (Text.unlines done.lines ++ "\n", done.marks)

/-- A whole line on a fresh buffer is the text after the indentation. -/
theorem line_fresh {out : SourceText} (h : out.current = "") (text : String) :
    out.line text = { out with lines := out.lines ++ [indentation out.depth ++ text] } := by
  cases out
  subst h
  simp [line, push, newline]

end SourceText

end Wiring
