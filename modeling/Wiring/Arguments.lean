/-!
# Arguments of the command line

The only command is `generate`.  Its options may stand in any order around the manifest; a
value follows its option as the next argument or after an equals sign.  After two hyphens
everything is a manifest.

## Main definitions

* `Arguments` — what the command line asks for.
* `ArgumentFault` — why a command line is refused.
* `Arguments.parse` — reading a command line.
-/

namespace Wiring

/-- What the command line asks for. -/
structure Arguments where
  /-- The manifest or folder of manifests. -/
  file : Option String := none
  /-- The manifest is read from the standard input. -/
  stdin : Bool := false
  /-- Generated files are printed as JSON. -/
  json : Bool := false
  /-- The output folder; none stands for the default one. -/
  out : Option String := none
  /-- The settings file; none stands for the default one. -/
  config : Option String := none
  /-- More is logged. -/
  verbose : Bool := false
  deriving Repr, DecidableEq, Inhabited

/-- Why a command line is not carried out. -/
inductive ArgumentFault where
  /-- It asks for help. -/
  | help
  /-- No command is given, or one that is unknown. -/
  | noCommand
  /-- An option is unknown. -/
  | unknownOption (name : String)
  /-- An option is given twice. -/
  | repeated (name : String)
  /-- An option lacks its value, or has an empty one. -/
  | noValue (name : String)
  /-- An option that takes no value has one. -/
  | unexpectedValue (name : String)
  /-- A second manifest. -/
  | secondFile (file : String)
  /-- No manifest, and none on the standard input. -/
  | noFile
  deriving Repr, DecidableEq, Inhabited

namespace ArgumentFault

/-- The exit code: asking for help is no failure. -/
def exitCode : ArgumentFault → Nat
  | help => 0
  | _ => 2

/-- The wording of a fault. -/
def message : ArgumentFault → String
  | help => "usage: autowire generate [FILE] [--stdin] [--json] [--out DIR] [--config FILE] [-v]"
  | noCommand => "error: a command is needed, such as 'generate'"
  | unknownOption name => "error: unexpected argument '" ++ name ++ "' found"
  | repeated name => "error: the argument '" ++ name ++ "' cannot be used multiple times"
  | noValue name => "error: a value is required for '" ++ name ++ "' but none was supplied"
  | unexpectedValue name => "error: unexpected value for '" ++ name ++ "'"
  | secondFile file => "error: unexpected argument '" ++ file ++ "' found"
  | noFile => "error: a manifest, a folder of manifests or '--stdin' is needed"

end ArgumentFault

namespace Arguments

/-- The folder that files are written to if none is named. -/
def defaultOut : String := "build/generated/autowire"

/-- The three options without a value. -/
inductive Switch where
  /-- The manifest is read from the standard input. -/
  | stdin
  /-- Generated files are printed as JSON. -/
  | json
  /-- More is logged. -/
  | verbose
  deriving Repr, DecidableEq, Inhabited

/-- The two options with a value. -/
inductive Setting where
  /-- The output folder. -/
  | out
  /-- The settings file. -/
  | config
  deriving Repr, DecidableEq, Inhabited

/-- An argument by its form. -/
inductive Form where
  /-- Everything after it is a manifest. -/
  | separator
  /-- A request for help. -/
  | help
  /-- Options without values, in one argument, and possibly a request for help after them. -/
  | switches (all : List Switch) (asksHelp : Bool)
  /-- An option with a value, which may stand in the same argument. -/
  | setting (name : Setting) (value : Option String)
  /-- An argument that is no option. -/
  | plain
  /-- An option that is refused. -/
  | refused (fault : ArgumentFault)
  deriving Repr, DecidableEq, Inhabited

/-- The form of a long option without its hyphens. -/
def longForm (text : String) (name : List Char) (value : Option String) : Form :=
  let switch (s : Switch) : Form :=
    if value.isSome then .refused (.unexpectedValue text) else .switches [s] false
  match String.ofList name with
  | "stdin" => switch .stdin
  | "json" => switch .json
  | "verbose" => switch .verbose
  | "help" => if value.isSome then .refused (.unexpectedValue text) else .help
  | "out" => .setting .out value
  | "config" => .setting .config value
  | _ => .refused (.unknownOption text)

/-- The form of short options in one argument, which take effect one after the other. -/
def shortForm (text : String) (before : List Switch) : List Char → Form
  | [] => .switches before false
  | 'v' :: rest => shortForm text (before ++ [.verbose]) rest
  | 'h' :: _ => .switches before true
  | _ => .refused (.unknownOption text)

/-- The form of an argument. -/
def formOf (text : String) : Form :=
  match text.toList with
  | ['-', '-'] => .separator
  | '-' :: '-' :: rest =>
      match rest.span (· ≠ '=') with
      | (name, []) => longForm text name none
      | (name, _ :: value) => longForm text name (some (String.ofList value))
  | '-' :: c :: rest => shortForm text [] (c :: rest)
  | _ => .plain

/-- Turns a switch on, once. -/
def turnOn (arguments : Arguments) : Switch → Except ArgumentFault Arguments
  | .stdin =>
      if arguments.stdin then .error (.repeated "--stdin") else .ok { arguments with stdin := true }
  | .json =>
      if arguments.json then .error (.repeated "--json") else .ok { arguments with json := true }
  | .verbose =>
      if arguments.verbose then .error (.repeated "--verbose")
      else .ok { arguments with verbose := true }

/-- Sets the value of an option, once; the value is not empty. -/
def set (arguments : Arguments) (value : String) : Setting → Except ArgumentFault Arguments
  | .out =>
      if arguments.out.isSome then .error (.repeated "--out")
      else if value = "" then .error (.noValue "--out")
      else .ok { arguments with out := some value }
  | .config =>
      if arguments.config.isSome then .error (.repeated "--config")
      else if value = "" then .error (.noValue "--config")
      else .ok { arguments with config := some value }

/-- Takes a manifest; there is only one, and its name is not empty. -/
def take (arguments : Arguments) (file : String) : Except ArgumentFault Arguments :=
  if arguments.file.isSome then .error (.secondFile file)
  else if file = "" then .error (.noValue "[FILE]")
  else .ok { arguments with file := some file }

/-- Takes arguments that are all manifests. -/
def takeAll (arguments : Arguments) : List String → Except ArgumentFault Arguments
  | [] => .ok arguments
  | file :: rest =>
      match arguments.take file with
      | .error fault => .error fault
      | .ok taken => takeAll taken rest

/-- The name of an option with a value. -/
def Setting.text : Setting → String
  | out => "--out"
  | config => "--config"

/-- Reads arguments; `pending` is an option whose value comes next. -/
def parseRest (arguments : Arguments) (pending : Option Setting) :
    List String → Except ArgumentFault Arguments
  | [] =>
      match pending with
      | some setting => .error (.noValue setting.text)
      | none => .ok arguments
  | text :: rest =>
      match pending, formOf text with
      | some setting, .plain =>
          match arguments.set text setting with
          | .error fault => .error fault
          | .ok filled => parseRest filled none rest
      | some setting, _ => .error (.noValue setting.text)
      | none, .separator => arguments.takeAll rest
      | none, .help => .error .help
      | none, .refused fault => .error fault
      | none, .switches all asksHelp =>
          match all.foldlM turnOn arguments with
          | .error fault => .error fault
          | .ok turned => if asksHelp then .error .help else parseRest turned none rest
      | none, .setting setting none => parseRest arguments (some setting) rest
      | none, .setting setting (some value) =>
          match arguments.set value setting with
          | .error fault => .error fault
          | .ok filled => parseRest filled none rest
      | none, .plain =>
          match arguments.take text with
          | .error fault => .error fault
          | .ok taken => parseRest taken none rest

/-- A manifest is needed unless it comes from the standard input. -/
def check (arguments : Arguments) : Except ArgumentFault Arguments :=
  if arguments.file.isNone && !arguments.stdin then .error .noFile else .ok arguments

/-- Reads a command line. -/
def parse : List String → Except ArgumentFault Arguments
  | "generate" :: rest =>
      match parseRest {} none rest with
      | .error fault => .error fault
      | .ok arguments => arguments.check
  | ["help"] | ["help", "help"] | ["help", "generate"] => .error .help
  | first :: _ =>
      match formOf first with
      | .help | .switches [] true => .error .help
      | _ => .error .noCommand
  | [] => .error .noCommand

end Arguments

end Wiring
