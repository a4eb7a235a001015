import Wiring.Toml.Lexeme

/-!
# TOML documents

A document is a list of lines: headers, assignments, comments and empty lines.  Arrays and
strings may go on over several lines.

## Main definitions

* `Toml.readPlain`, `Toml.readValue` — values.
* `Toml.parse` — a whole document.
-/

namespace Wiring.Toml

/-- The text after a comment, if there is one; a comment has no control characters. -/
def skipComment : List Char → Option (List Char)
  | '#' :: rest =>
      let after := rest.dropWhile isPlain
      if after.isEmpty || (lineEnd? after).isSome then some after else none
  | cs => some cs

/-- The text after blanks, comments and line ends; each round takes at least one character. -/
def skipLines : Nat → List Char → Option (List Char)
  | 0, cs => some cs
  | rounds + 1, cs =>
      match skipComment (cs.dropWhile isBlank) with
      | none => none
      | some rest =>
          match lineEnd? rest with
          | some next => skipLines rounds next
          | none => some rest

/-- The character may stand in a truth value or number. -/
def isWordChar (c : Char) : Bool := c.isAlphanum || c = '+' || c = '-' || c = '.' || c = '_'

/-- Reads a value that is one word, or a date or time: those have colons in them, and a blank may
stand in the middle. -/
def readPlain (cs : List Char) : Result Value :=
  match readDateTime cs with
  | some (moment, after) => some (.dateTime moment, after)
  | none =>
      let (word, after) := cs.span isWordChar
      (scalar? word).map fun value => (value, after)

mutual

/-- Reads a value in which at most `room` arrays and tables may lie inside one another. -/
def readValue : Nat → Nat → List Char → Result Value
  | 0, _, _ => none
  | fuel + 1, room, cs =>
      match cs with
      | '[' :: rest =>
          match room with
          | 0 => none
          | room + 1 => (readItems fuel room rest).map fun (items, after) => (.array items, after)
      | '\x7b' :: rest =>
          match room with
          | 0 => none
          | room + 1 =>
              match rest.dropWhile isBlank with
              | '\x7d' :: after => some (.table [], after)
              | inside =>
                  (readPairs fuel room [] inside).map fun (table, after) =>
                    (.table table.finished, after)
      | '"' :: _ => (readString cs).map fun (text, after) => (.string (String.ofList text), after)
      | '\'' :: _ => (readString cs).map fun (text, after) => (.string (String.ofList text), after)
      | _ => readPlain cs

/-- Reads the items of an array up to its bracket; a comma may come last. -/
def readItems : Nat → Nat → List Char → Result (List Value)
  | 0, _, _ => none
  | fuel + 1, room, cs =>
      match skipLines cs.length cs with
      | none => none
      | some (']' :: after) => some ([], after)
      | some inside =>
          match readValue fuel room inside with
          | none => none
          | some (item, rest) =>
              match skipLines rest.length rest with
              | some (']' :: after) => some ([item], after)
              | some (',' :: more) =>
                  (readItems fuel room more).map fun (items, after) => (item :: items, after)
              | _ => none

/-- Reads the assignments of a table on one line up to its brace. -/
def readPairs : Nat → Nat → Table → List Char → Result Table
  | 0, _, _, _ => none
  | fuel + 1, room, table, cs =>
      match readKey cs with
      | some ((path, key), '=' :: rest) =>
          match readValue fuel room (rest.dropWhile isBlank) with
          | none => none
          | some (value, rest) =>
              match table.assign path key value, rest.dropWhile isBlank with
              | some filled, '\x7d' :: after => some (filled, after)
              | some filled, ',' :: more => readPairs fuel room filled more
              | _, _ => none
      | _ => none

end

/-- A document in the making. -/
structure Draft where
  /-- The members of the document. -/
  table : Table
  /-- The path of the last header. -/
  path : List String
  deriving Inhabited

namespace Draft

/-- Adds an assignment to the table of the last header. -/
def assign (draft : Draft) (path : List String) (key : String) (value : Value) : Option Draft :=
  (draft.table.change .implied (fun _ table => table.assign path key value) draft.path .header).map
    fun table => { draft with table }

/-- Opens the table of a header. -/
def openTable (draft : Draft) (path : List String) (key : String) : Option Draft :=
  (draft.table.openTable path key).map fun table => ⟨table, path ++ [key]⟩

/-- Opens an item of the array of a header. -/
def openItem (draft : Draft) (path : List String) (key : String) : Option Draft :=
  (draft.table.openItem path key).map fun table => ⟨table, path ++ [key]⟩

end Draft

/-- Reads a header or an assignment. -/
def readLine (draft : Draft) : List Char → Result Draft
  | '[' :: '[' :: rest =>
      match readKey rest with
      | some ((path, key), ']' :: ']' :: after) =>
          (draft.openItem path key).map fun next => (next, after)
      | _ => none
  | '[' :: rest =>
      match readKey rest with
      | some ((path, key), ']' :: after) =>
          (draft.openTable path key).map fun next => (next, after)
      | _ => none
  | cs =>
      match readKey cs with
      | some ((path, key), '=' :: rest) =>
          match readValue (2 * rest.length + 2) depthLimit (rest.dropWhile isBlank) with
          | none => none
          | some (value, after) => (draft.assign path key value).map fun next => (next, after)
      | _ => none

/-- Reads lines up to the end of the text; each takes at least one character. -/
def readLines : Nat → Draft → List Char → Option Draft
  | 0, draft, _ => some draft
  | count + 1, draft, cs =>
      match skipLines cs.length cs with
      | none => none
      | some [] => some draft
      | some inside =>
          match readLine draft inside with
          | none => none
          | some (next, rest) =>
              match skipComment (rest.dropWhile isBlank) with
              | none => none
              | some [] => some next
              | some after =>
                  match lineEnd? after with
                  | none => none
                  | some more => readLines count next more

/-- The text without a byte order mark at its start. -/
def withoutMark : List Char → List Char
  | '\ufeff' :: rest => rest
  | cs => cs

/-- The members of a document; none if the text is no TOML. -/
def parse (text : String) : Option (List (String × Value)) :=
  let cs := withoutMark text.toList
  (readLines (cs.length + 1) ⟨[], []⟩ cs).map fun draft => draft.table.finished

end Wiring.Toml
