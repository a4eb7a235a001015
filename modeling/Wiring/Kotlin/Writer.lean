import Wiring.Injector
import Wiring.Kotlin.Identifier
import Wiring.Kotlin.Literal
import Wiring.Kotlin.Spelling
import Wiring.SourceText

/-!
# Injectors as Kotlin source

The only place that knows how statements are spelled.  A written injector starts with its
package line and its imports, both followed by a blank line when present, and a comment with
the header; then comes the class with one function, whose body is the prelude and the fields.
The line at which each field starts is marked.

## Main definitions

* `Dialect` — what the spelling of a unit depends on.
* `Dialect.expression`, `Dialect.condition` — values and tests.
* `Dialect.write`, `Dialect.writeAll` — statements.
* `writeInjector` — a whole injector.
-/

namespace Wiring.Kotlin

/-- What the spelling of a unit depends on. -/
structure Dialect where
  /-- The runtime symbols. -/
  symbols : Symbols
  /-- The names that are spelled short. -/
  short : NameSet

/-- The parameter of the generated function. -/
def targetName : String := "target"

/-- The local variable that holds the target after the cast. -/
def boundTarget : String := "substitute"

/-- The member that holds the service that builds objects from text. -/
def deserializerName : String := "serializationService"

/-- The generated function. -/
def injectName : String := "inject"

/-- The argument bundle of a source. -/
def bundleText : BundleSource → String
  | .intentExtras => "substitute.intent?.extras"
  | .arguments => "substitute.arguments"

/-- The function that does a typed read. -/
def getterText : Getter → String
  | .boolean => "getBoolean"
  | .byte => "getByte"
  | .short => "getShort"
  | .int => "getInt"
  | .long => "getLong"
  | .char => "getChar"
  | .float => "getFloat"
  | .double => "getDouble"
  | .string => "getString"

/-- The read of a serializable value from a source. -/
def serializableRead : BundleSource → String
  | .intentExtras => "intent?.getSerializableExtra"
  | .arguments => "arguments?.getSerializable"

/-- The read of a parcelable value from a source. -/
def parcelableRead : BundleSource → String
  | .intentExtras => "intent?.getParcelableExtra"
  | .arguments => "arguments?.getParcelable"

/-- The test of a condition. -/
def conditionText : Condition → String
  | .containsKey key => "it.containsKey(" ++ stringLiteral key ++ ")"
  | .notNullOrEmpty name => "!" ++ identifier name ++ ".isNullOrEmpty()"
  | .deserializerAvailable => deserializerName ++ " != null"
  | .fieldIsNull field => boundTarget ++ "." ++ identifier field ++ " == null"

namespace Dialect

/-- A qualified name in the unit. -/
def name (d : Dialect) (qualified : String) : String := spellName d.short qualified

/-- A type in the unit. -/
def type (d : Dialect) (t : DeclaredType) : String := spellType d.short t

/-- The call that yields the service registry. -/
def registry (d : Dialect) : String := d.name d.symbols.registry ++ ".getInstance()"

/-- The call that writes a message to the log. -/
def logCall (d : Dialect) (message : String) : String :=
  d.name d.symbols.logFacility ++ ".e(" ++ stringLiteral d.symbols.logTag ++ ", " ++
    stringLiteral message ++ ")"

/-- A value. -/
def expression (d : Dialect) : Expression → String
  | .bound => "it"
  | .bundle source => bundleText source
  | .read getter key none => "it." ++ getterText getter ++ "(" ++ stringLiteral key ++ ")"
  | .read getter key (some field) =>
      "it." ++ getterText getter ++ "(" ++ stringLiteral key ++ ", " ++ boundTarget ++ "." ++
        identifier field ++ ")"
  | .readString source key => bundleText source ++ "?.getString(" ++ stringLiteral key ++ ")"
  | .readSerializable source key type =>
      "(" ++ boundTarget ++ "." ++ serializableRead source ++ "(" ++ stringLiteral key ++
        ") as? " ++ d.type type ++ ")"
  | .readParcelable source key type =>
      boundTarget ++ "." ++ parcelableRead source ++ "<" ++ d.type type ++ ">(" ++
        stringLiteral key ++ ")"
  -- a class literal cannot carry type arguments
  | .serviceByType type => d.registry ++ ".navigation(" ++ d.name type.name ++ "::class.java)"
  | .serviceByName key type nullable =>
      d.registry ++ ".build(" ++ stringLiteral key ++ ").navigation() " ++
        (if nullable then "as?" else "as") ++ " " ++ d.type type
  | .deserialize raw type =>
      deserializerName ++ "?.parseObject<" ++ d.type type ++ ">(" ++ identifier raw ++
        ", (object : " ++ d.name d.symbols.typeWrapper ++ "<" ++ d.type type ++
        ">() \x7b\x7d).type)"

/-- The line that looks up the service that builds objects. -/
def resolveLine (d : Dialect) : String :=
  deserializerName ++ " = " ++ d.registry ++ ".navigation(" ++
    d.name d.symbols.serializationService ++ "::class.java)"

/-- The line that casts the target to the owner's type. -/
def bindLine (d : Dialect) (owner : DeclaredType) (message : String) : String :=
  "val " ++ boundTarget ++ " = (" ++ targetName ++ " as? " ++ d.type owner ++
    ") ?: throw IllegalStateException(" ++ stringLiteral message ++ ")"

/-- The line inside a check that has failed. -/
def failureLine (d : Dialect) : Failure → String
  | .fatal message => "throw RuntimeException(" ++ stringLiteral message ++ ")"
  | .diagnostic message => d.logCall message

/-- The opening line of a test. -/
def ifLine (condition : Condition) : String := "if (" ++ conditionText condition ++ ") \x7b"

mutual

/-- Writes a statement. -/
def write (d : Dialect) : Statement → SourceText → SourceText
  | .resolveDeserializer, out => out.line d.resolveLine
  | .bindTarget owner message, out => out.line (d.bindLine owner message)
  | .assign field value, out =>
      out.line (boundTarget ++ "." ++ identifier field ++ " = " ++ d.expression value)
  | .declare name value, out => out.line ("val " ++ identifier name ++ " = " ++ d.expression value)
  | .whenPresent subject body, out =>
      (d.writeAll body (out.openBlock (d.expression subject ++ "?.let \x7b"))).closeBlock "\x7d"
  | .ifThen condition yes no, out =>
      (d.writeElse no (d.writeAll yes (out.openBlock (ifLine condition)))).closeBlock "\x7d"
  | .require field failure, out =>
      ((out.openBlock (ifLine (.fieldIsNull field))).line (d.failureLine failure)).closeBlock "\x7d"
  | .log message, out => out.line (d.logCall message)

/-- Writes statements one after the other. -/
def writeAll (d : Dialect) : List Statement → SourceText → SourceText
  | [], out => out
  | statement :: rest, out => d.writeAll rest (d.write statement out)

/-- Writes an else branch, if there is one. -/
def writeElse (d : Dialect) : Option (List Statement) → SourceText → SourceText
  | none, out => out
  | some statements, out => d.writeAll statements (out.reopenBlock "\x7d else \x7b")

end

/-- Writes the statements of a field and its check, and marks their first line. -/
def writeField (d : Dialect) (out : SourceText) (plan : FieldPlan) : SourceText :=
  d.writeAll plan.check.toList (d.writeAll plan.statements (out.markField plan.field))

end Dialect

/-- Writes each text as a line. -/
def writeLines (texts : List String) (out : SourceText) : SourceText :=
  texts.foldl SourceText.line out

/-- Writes the package line, the imports and the header. -/
def writeHead (settings : Settings) (injector : Injector) (out : SourceText) : SourceText :=
  let package := injector.owner.package
  let afterPackage := if package = "" then out else (out.line ("package " ++ package)).newline
  let imports := injector.imports.toList
  let afterImports :=
    if imports.isEmpty then afterPackage
    else (writeLines (imports.map ("import " ++ ·)) afterPackage).newline
  (writeLines ((Text.linesOf settings.naming.header).map (" * " ++ ·))
    (afterImports.line "/**")).line " */"

/-- The opening line of the class. -/
def classLine (d : Dialect) (injector : Injector) : String :=
  "public class " ++ identifier injector.className ++ " : " ++ d.name d.symbols.injectorInterface ++
    " \x7b"

/-- The member that holds the service that builds objects. -/
def memberLine (d : Dialect) : String :=
  "private var " ++ deserializerName ++ ": " ++ d.name d.symbols.serializationService ++
    "? = null"

/-- The opening line of the function. -/
def functionLine : String :=
  "override fun " ++ injectName ++ "(" ++ targetName ++ ": Any?) \x7b"

/-- Writes a whole injector. -/
def writeInjector (settings : Settings) (injector : Injector) : SourceText :=
  let d : Dialect := ⟨settings.symbols, injector.simpleNames⟩
  let head := writeHead settings injector .empty
  let opened :=
    (((head.openBlock (classLine d injector)).line (memberLine d)).newline).openBlock functionLine
  let body := injector.fields.foldl d.writeField (d.writeAll injector.prelude opened)
  (body.closeBlock "\x7d").closeBlock "\x7d"

end Wiring.Kotlin
