import Mathlib.Data.List.Basic
import Wiring.Problem

/-!
# Colour codes in reports

On a terminal a report is coloured: codes are put into its text, each of them an escape character,
a bracket and what follows up to the letter `m`.  A coloured text shows a plain one if taking its
codes away leaves the plain text, whatever stands after it; then texts put together show what
their parts show.  A text without escape characters shows itself and a code shows nothing, so a
coloured report shows the plain report of the same problem, line by line.

## Main definitions

* `Text.withoutCodes` — a text without its colour codes.
* `Text.Shows` — a coloured text and the plain text that it shows.
* `Problem.texts` — the texts that a problem is reported with.

## Main results

* `Text.Shows.append`, `Text.shows_self`, `Text.shows_code` — what a coloured text is made of.
* `Misuse.shows_report`, `Problem.shows_lineReport` — the two kinds of report.
* `Problem.withoutCodes_report` — **a report without its colours is the plain report.**
-/

namespace Wiring

namespace Text

/-! ### Taking codes away -/

mutual

/-- The text without its colour codes: an escape character and a bracket start a code. -/
def withoutCodes : List Char → List Char
  | [] => []
  | '\x1b' :: '[' :: rest => withoutRestOfCode rest
  | c :: rest => c :: withoutCodes rest

/-- The same from inside a code, which goes up to the next letter `m`. -/
def withoutRestOfCode : List Char → List Char
  | [] => []
  | 'm' :: rest => withoutCodes rest
  | _ :: rest => withoutRestOfCode rest

end

/-- The text has no escape character. -/
def EscapeFree (text : String) : Prop := '\x1b' ∉ text.toList

/-- A fixed text is given by its characters, so that only these have to be looked at. -/
theorem escapeFree_ofList {cs : List Char} (h : '\x1b' ∉ cs) : EscapeFree (String.ofList cs) := by
  rwa [EscapeFree, String.toList_ofList]

theorem EscapeFree.append {first second : String} (hfirst : EscapeFree first)
    (hsecond : EscapeFree second) : EscapeFree (first ++ second) := by
  rw [EscapeFree, String.toList_append, List.mem_append, not_or]
  exact ⟨hfirst, hsecond⟩

theorem escapeFree_join {texts : List String} (h : ∀ text ∈ texts, EscapeFree text) :
    EscapeFree (String.join texts) := by
  induction texts with
  | nil => exact escapeFree_ofList (by decide)
  | cons text rest ih =>
    rw [List.forall_mem_cons] at h
    rw [String.join_cons]
    exact h.1.append (ih h.2)

/-- The coloured text without its codes is the plain one, whatever comes after it, and the plain one
has no escape character. -/
structure Shows (coloured plain : String) : Prop where
  /-- Taking the codes away leaves the plain text, and goes on behind the coloured one. -/
  without : ∀ rest, withoutCodes (coloured.toList ++ rest) = plain.toList ++ withoutCodes rest
  /-- The plain text has no codes. -/
  plain : EscapeFree plain

theorem Shows.eq {coloured plain : String} (h : Shows coloured plain) :
    withoutCodes coloured.toList = plain.toList := by
  have hall := h.without []
  rwa [List.append_nil, withoutCodes, List.append_nil] at hall

/-- Texts put together show what their parts show. -/
theorem Shows.append {first second plain more : String} (hfirst : Shows first plain)
    (hsecond : Shows second more) : Shows (first ++ second) (plain ++ more) where
  without rest := by
    rw [String.toList_append, String.toList_append, List.append_assoc, List.append_assoc,
      hfirst.without, hsecond.without]
  plain := hfirst.plain.append hsecond.plain

/-- A text without escape characters shows itself. -/
theorem shows_self {text : String} (h : EscapeFree text) : Shows text text where
  without rest := by
    have hall : ∀ cs : List Char, '\x1b' ∉ cs →
        withoutCodes (cs ++ rest) = cs ++ withoutCodes rest := by
      intro cs hcs
      induction cs with
      | nil => rfl
      | cons c cs ih =>
        rw [List.mem_cons, not_or] at hcs
        rw [List.cons_append, withoutCodes, ih hcs.2]
        · rfl
        · exact fun _ hc _ => hcs.1 hc.symm
    exact hall text.toList h
  plain := h

theorem shows_ofList {cs : List Char} (h : '\x1b' ∉ cs) :
    Shows (String.ofList cs) (String.ofList cs) :=
  shows_self (escapeFree_ofList h)

/-- A colour code shows nothing. -/
theorem shows_code (code : String) (h : 'm' ∉ code.toList) :
    Shows ("\x1b[" ++ code ++ "m") "" where
  without rest := by
    have hall : ∀ cs : List Char, 'm' ∉ cs →
        withoutRestOfCode (cs ++ 'm' :: rest) = withoutCodes rest := by
      intro cs hcs
      induction cs with
      | nil => rfl
      | cons c cs ih =>
        rw [List.mem_cons, not_or] at hcs
        rw [List.cons_append, withoutRestOfCode, ih hcs.2]
        exact fun hc => hcs.1 hc.symm
    rw [String.toList_append, String.toList_append, List.append_assoc, List.append_assoc]
    exact hall code.toList h
  plain := escapeFree_ofList (by decide)

theorem EscapeFree.of_mem_linesOf {text line : String} (h : EscapeFree text)
    (hline : line ∈ linesOf text) : EscapeFree line :=
  fun hmem => h (mem_of_mem_linesOf hline hmem).1

end Text

open Text

/-! ### The report of a misuse -/

/-- Each colour of a terminal is a code. -/
theorem Palette.shows_of :
    Shows (of true).error (of false).error ∧ Shows (of true).place (of false).place ∧
      Shows (of true).help (of false).help ∧ Shows (of true).reset (of false).reset :=
  ⟨shows_code "1;31" (by decide), shows_code "2" (by decide), shows_code "1;38;5;73" (by decide),
    shows_code "0" (by decide)⟩

namespace Misuse

/-- The texts that a misuse is reported with. -/
def texts (misuse : Misuse) : List String :=
  misuse.message :: misuse.field ::
    (misuse.owner.toList ++ misuse.sourceFile.toList ++ misuse.help.toList)

variable {misuse : Misuse}

theorem escapeFree_location (h : ∀ text ∈ misuse.texts, EscapeFree text) :
    EscapeFree misuse.location := by
  have hfield : EscapeFree misuse.field := h _ (by simp [texts])
  unfold location
  split
  · next owner howner =>
    have hown : EscapeFree owner := h _ (by simp [texts, howner])
    exact (hown.append (escapeFree_ofList (by decide))).append hfield
  · exact hfield

theorem shows_placeLine (h : ∀ text ∈ misuse.texts, EscapeFree text) :
    Shows (misuse.placeLine (.of true)) (misuse.placeLine (.of false)) := by
  obtain ⟨-, hplace, -, hreset⟩ := Palette.shows_of
  have hlocation := shows_self (escapeFree_location h)
  have hspace : Shows " " " " := shows_ofList (by decide)
  have hat : Shows "at:" "at:" := shows_ofList (by decide)
  have hfront :=
    ((((hspace.append hplace).append hat).append hreset).append hspace).append hlocation
  unfold placeLine
  refine (hfront.append (shows_self ?_)).append (shows_ofList (by decide))
  -- what follows is the file, if it is known
  split
  · next file hfile =>
    have hfree : EscapeFree file := h _ (by simp [texts, hfile])
    exact ((escapeFree_ofList (by decide)).append hfree).append (escapeFree_ofList (by decide))
  · exact escapeFree_ofList (by decide)

theorem shows_errorLine (h : ∀ text ∈ misuse.texts, EscapeFree text) :
    Shows (misuse.errorLine (.of true)) (misuse.errorLine (.of false)) := by
  obtain ⟨herror, -, -, hreset⟩ := Palette.shows_of
  have htitle : EscapeFree misuse.kind.title := by
    cases misuse.kind <;> exact escapeFree_ofList (by decide)
  have hmessage : EscapeFree misuse.message := h _ (by simp [texts])
  have hword : Shows "error:" "error:" := shows_ofList (by decide)
  have hspace : Shows " " " " := shows_ofList (by decide)
  have hcolon : Shows ": " ": " := shows_ofList (by decide)
  have hfront := ((herror.append hword).append hreset).append hspace
  exact (((hfront.append (shows_self htitle)).append hcolon).append (shows_self hmessage)).append
    (shows_ofList (by decide))

theorem shows_helpLines {lines : List String} (h : ∀ line ∈ lines, EscapeFree line) :
    Shows (helpLines (.of true) lines) (helpLines (.of false) lines) := by
  obtain ⟨-, -, hhelp, hreset⟩ := Palette.shows_of
  cases lines with
  | nil => exact shows_ofList (by decide)
  | cons first rest =>
    rw [List.forall_mem_cons] at h
    -- only the first line is coloured
    have hrest : EscapeFree (String.join (rest.map fun line => "       " ++ line ++ "\n")) := by
      refine escapeFree_join fun text htext => ?_
      obtain ⟨line, hline, rfl⟩ := List.mem_map.mp htext
      exact ((escapeFree_ofList (by decide)).append (h.2 line hline)).append
        (escapeFree_ofList (by decide))
    have hspace : Shows " " " " := shows_ofList (by decide)
    have hword : Shows "help:" "help:" := shows_ofList (by decide)
    have hfront := (((hspace.append hhelp).append hword).append hreset).append hspace
    exact ((hfront.append (shows_self h.1)).append (shows_ofList (by decide))).append
      (shows_self hrest)

/-- A coloured report shows the plain report of the same misuse. -/
theorem shows_report (h : ∀ text ∈ misuse.texts, EscapeFree text) :
    Shows (misuse.report true) (misuse.report false) := by
  have hhelp : Shows (misuse.helpBlock (.of true)) (misuse.helpBlock (.of false)) := by
    unfold helpBlock
    split
    · next help hhelp =>
      have hfree : EscapeFree help := h _ (by simp [texts, hhelp])
      exact (shows_ofList (by decide)).append (shows_helpLines fun line => hfree.of_mem_linesOf)
    · exact shows_ofList (by decide)
  exact ((((shows_ofList (by decide)).append (shows_placeLine h)).append (shows_errorLine h)).append
    hhelp).append (shows_ofList (by decide))

end Misuse

/-! ### The report of any problem -/

namespace Problem

/-- The texts that a problem is reported with; a fault of the disk is worded by its kind alone. -/
def texts : Problem → List String
  | .misuse fault => fault.texts
  | .noStrategy _ field => [field]
  | .unreadable place fault => [place, fault.message]
  | .untyped origin symbol => [origin, symbol]
  | .disk path _ => [path.text]
  | .setting fault => [fault.report]
  | .settingsFile path => [path.text]

/-- The message of a problem has no escape character if its texts have none. -/
theorem escapeFree_message {problem : Problem} (h : ∀ text ∈ problem.texts, EscapeFree text) :
    EscapeFree problem.message := by
  cases problem with
  | misuse fault =>
    have hmessage : EscapeFree fault.message := h _ List.mem_cons_self
    exact hmessage
  | noStrategy category field =>
    have htitle : EscapeFree category.title := by
      cases category <;> exact escapeFree_ofList (by decide)
    have hfield : EscapeFree field := h _ List.mem_cons_self
    exact ((((escapeFree_ofList (by decide)).append htitle).append
      (escapeFree_ofList (by decide))).append hfield).append (escapeFree_ofList (by decide))
  | unreadable place fault =>
    have hplace : EscapeFree place := h _ List.mem_cons_self
    have hfault : EscapeFree fault.message := h _ (List.mem_cons_of_mem _ List.mem_cons_self)
    exact (((escapeFree_ofList (by decide)).append hplace).append
      (escapeFree_ofList (by decide))).append hfault
  | untyped origin symbol =>
    have horigin : EscapeFree origin := h _ List.mem_cons_self
    have hsymbol : EscapeFree symbol := h _ (List.mem_cons_of_mem _ List.mem_cons_self)
    exact ((((escapeFree_ofList (by decide)).append hsymbol).append
      (escapeFree_ofList (by decide))).append horigin).append (escapeFree_ofList (by decide))
  | disk path fault =>
    have hpath : EscapeFree path.text := h _ List.mem_cons_self
    have hfault : EscapeFree fault.message := by
      cases fault <;> exact escapeFree_ofList (by decide)
    exact (((escapeFree_ofList (by decide)).append hpath).append
      (escapeFree_ofList (by decide))).append hfault
  | setting fault =>
    have hfault : EscapeFree fault.report := h _ List.mem_cons_self
    exact (escapeFree_ofList (by decide)).append hfault
  | settingsFile path =>
    have hpath : EscapeFree path.text := h _ List.mem_cons_self
    exact ((escapeFree_ofList (by decide)).append hpath).append (escapeFree_ofList (by decide))

/-- A coloured report of one line shows the plain one, whatever its message says. -/
theorem shows_lineReport {message : String} (h : EscapeFree message) :
    Shows (lineReport message true) (lineReport message false) := by
  have hred := shows_code "1;31" (by decide)
  have hbold := shows_code "1" (by decide)
  have hreset := shows_code "0" (by decide)
  have hword : Shows "error" "error" := shows_ofList (by decide)
  have hcolon : Shows ": " ": " := shows_ofList (by decide)
  have hend : Shows "\n" "\n" := shows_ofList (by decide)
  have hhead := (((hred.append hword).append hreset).append hcolon).append hbold
  exact (hhead.append (shows_self h)).append (hreset.append hend)

/-- A coloured report shows the plain report of the same problem. -/
theorem shows_report {problem : Problem} (h : ∀ text ∈ problem.texts, EscapeFree text) :
    Shows (problem.report true) (problem.report false) := by
  cases problem with
  | misuse fault => exact Misuse.shows_report h
  | _ => exact shows_lineReport (escapeFree_message h)

theorem escape_mem_report (problem : Problem) : '\x1b' ∈ (problem.report true).toList := by
  cases problem with
  | misuse fault =>
    simp [report, Misuse.report, Misuse.placeLine, Palette.of]
  | _ => simp [report, lineReport]

/-- **A report without its colours is the plain report.**  If the texts of a problem have no escape
character, then taking the colour codes out of its coloured report leaves exactly the plain report;
the coloured one does have codes, and the plain one has none.  The same holds of a report of one
line with any other message. -/
theorem withoutCodes_report {problem : Problem} (h : ∀ text ∈ problem.texts, EscapeFree text)
    {message : String} (hmessage : EscapeFree message) :
    (withoutCodes (problem.report true).toList = (problem.report false).toList ∧
      '\x1b' ∈ (problem.report true).toList ∧ '\x1b' ∉ (problem.report false).toList) ∧
    withoutCodes (lineReport message true).toList = (lineReport message false).toList :=
  ⟨⟨(shows_report h).eq, escape_mem_report problem, (shows_report h).plain⟩,
    (shows_lineReport hmessage).eq⟩

/-- A private field of a class in a known file, with two lines of help. -/
def privateToken : Problem :=
  .misuse
    { kind := .privateField
      message := "no access"
      field := "token"
      owner := some "x.Main"
      sourceFile := some "Main.kt"
      help := some "drop the modifier\nor the marker" }

theorem withoutCodes_report_privateToken :
    (∀ text ∈ privateToken.texts, EscapeFree text) ∧ EscapeFree "the disk is full" ∧
      (withoutCodes (privateToken.report true).toList = (privateToken.report false).toList ∧
        '\x1b' ∈ (privateToken.report true).toList ∧
        '\x1b' ∉ (privateToken.report false).toList) ∧
      withoutCodes (lineReport "the disk is full" true).toList =
        (lineReport "the disk is full" false).toList := by
  have htexts : ∀ text ∈ privateToken.texts, EscapeFree text := by
    simp only [privateToken, texts, Misuse.texts, Option.toList_some, List.cons_append,
      List.nil_append, List.forall_mem_cons]
    refine ⟨?_, ?_, ?_, ?_, ?_, fun _ hnone => absurd hnone List.not_mem_nil⟩
    all_goals exact escapeFree_ofList (by decide)
  have hmessage : EscapeFree "the disk is full" := escapeFree_ofList (by decide)
  exact ⟨htexts, hmessage, withoutCodes_report htexts hmessage⟩

end Problem

end Wiring
