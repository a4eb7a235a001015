import Wiring.Property
import Wiring.Text.Lines

/-!
# Misuse of the marker

A marker on a property that cannot be injected ends the whole pass.  The report names the
property, its owner and source file where known, says what is wrong and how to mend it; for a
terminal it is coloured.

## Main definitions

* `MisuseKind`, `Misuse` — a misuse and its kind.
* `Misuse.missingOwner`, `Misuse.privateField`, `Misuse.unsupportedRole` — the three cases.
* `Palette` — the colour codes of a report.
* `Misuse.report` — the report as a block of lines.
-/

namespace Wiring

/-- The kinds of misuse. -/
inductive MisuseKind where
  /-- The property is private. -/
  | privateField
  /-- The property is declared outside a class body. -/
  | missingOwner
  /-- The owner receives no arguments. -/
  | unsupportedRole
  deriving Repr, DecidableEq, Inhabited

/-- The heading of a kind of misuse. -/
def MisuseKind.title : MisuseKind → String
  | .privateField => "Private injected field"
  | .missingOwner => "Property without owning class"
  | .unsupportedRole => "Unsupported owner role"

/-- A misuse of the marker. -/
structure Misuse where
  /-- The kind of misuse. -/
  kind : MisuseKind
  /-- What is wrong. -/
  message : String
  /-- The name of the property. -/
  field : String
  /-- The qualified name of the owner, if there is one. -/
  owner : Option String
  /-- The file the owner was declared in, if known. -/
  sourceFile : Option String
  /-- How to mend it. -/
  help : Option String
  deriving Repr, DecidableEq, Inhabited

/-- The colour codes of a report; all empty for a plain one. -/
structure Palette where
  /-- Before the word that announces the error. -/
  error : String
  /-- Before the word that announces the place. -/
  place : String
  /-- Before the word that announces the help. -/
  help : String
  /-- Back to plain text. -/
  reset : String
  deriving Repr, DecidableEq, Inhabited

/-- The colours of a terminal, or none. -/
def Palette.of (color : Bool) : Palette :=
  if color then ⟨"\x1b[1;31m", "\x1b[2m", "\x1b[1;38;5;73m", "\x1b[0m"⟩ else ⟨"", "", "", ""⟩

namespace Misuse

/-- The property is declared outside a class body. -/
def missingOwner (property : Property) : Misuse where
  kind := .missingOwner
  message := "Property [" ++ property.name ++
    "] annotated with @Autowired must be declared inside a class!"
  field := property.name
  owner := none
  sourceFile := none
  help := some "move the property into the activity, fragment or service that uses it"

/-- The property of the owner is private. -/
def privateField (property : Property) (owner : Owner) : Misuse where
  kind := .privateField
  message := "The inject fields CAN NOT BE 'private'!!! please check field [" ++ property.name ++
    "] in class [" ++ owner.name ++ "]"
  field := property.name
  owner := some owner.name
  sourceFile := owner.sourceFile
  help := some
    "generated injectors assign fields from outside the class; drop the `private` modifier"

/-- The property needs arguments, and its owner receives none. -/
def unsupportedRole (property : Property) (owner : Owner) : Misuse where
  kind := .unsupportedRole
  message := "The field [" ++ property.name ++
    "] need autowired from intent, its parent must be activity or fragment!"
  field := property.name
  owner := some owner.name
  sourceFile := owner.sourceFile
  help := some ("owner role is " ++ owner.role.title ++
    "; only service providers can be injected outside screens")

/-- The place of the property: its owner and name. -/
def location (misuse : Misuse) : String :=
  match misuse.owner with
  | some owner => owner ++ "." ++ misuse.field
  | none => misuse.field

/-- The line that says where the property is. -/
def placeLine (misuse : Misuse) (palette : Palette) : String :=
  " " ++ palette.place ++ "at:" ++ palette.reset ++ " " ++ misuse.location ++
    (match misuse.sourceFile with
      | some file => " (" ++ file ++ ")"
      | none => "") ++ "\n"

/-- The line that says what is wrong. -/
def errorLine (misuse : Misuse) (palette : Palette) : String :=
  palette.error ++ "error:" ++ palette.reset ++ " " ++ misuse.kind.title ++ ": " ++
    misuse.message ++ "\n"

/-- The lines of the help: the first one announces it, the others line up below. -/
def helpLines (palette : Palette) : List String → String
  | [] => ""
  | first :: rest =>
      " " ++ palette.help ++ "help:" ++ palette.reset ++ " " ++ first ++ "\n" ++
        String.join (rest.map fun line => "       " ++ line ++ "\n")

/-- The help with a blank line before it, if there is any. -/
def helpBlock (misuse : Misuse) (palette : Palette) : String :=
  match misuse.help with
  | some help => "\n" ++ helpLines palette (Text.linesOf help)
  | none => ""

/-- The report as a block of lines, with a blank line before and after. -/
def report (misuse : Misuse) (color : Bool) : String :=
  let palette := Palette.of color
  "\n" ++ misuse.placeLine palette ++ misuse.errorLine palette ++ misuse.helpBlock palette ++ "\n"

end Misuse

end Wiring
