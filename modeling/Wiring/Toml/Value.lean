import Wiring.Toml.DateTime

/-!
# TOML values and tables

The values of a settings file, and the tables that its lines fill one by one.  A table opens by a
header of its own, or because a longer header or a dotted key leads through it; how it was opened
decides which later lines may still add to it.

## Main definitions

* `Toml.Value` — finished values.
* `Toml.Node`, `Toml.Opening` — tables in the making.
* `Toml.Table.assign` — a line with a key and a value.
* `Toml.Table.openTable`, `Toml.Table.openItem` — headers of tables and of items of arrays.
* `Toml.Table.finished` — the values of a table.
-/

namespace Wiring.Toml

/-- A TOML value. -/
inductive Value where
  /-- A string. -/
  | string (s : String)
  /-- A whole number. -/
  | integer (n : Int)
  /-- A float. -/
  | float (x : Float)
  /-- A truth value. -/
  | bool (b : Bool)
  /-- A date or time. -/
  | dateTime (moment : DateTime)
  /-- An array. -/
  | array (items : List Value)
  /-- A table. -/
  | table (members : List (String × Value))
  deriving Repr, Inhabited

/-- How a table was opened. -/
inductive Opening where
  /-- By a header of its own. -/
  | header
  /-- By a longer header. -/
  | implied
  /-- By a dotted key. -/
  | dotted
  deriving Repr, DecidableEq, Inhabited

/-- A value or a table in the making. -/
inductive Node where
  /-- A value. -/
  | value (v : Value)
  /-- A table. -/
  | table (opening : Opening) (members : List (String × Node))
  /-- An array of tables, which headers add to. -/
  | tables (all : List Node)
  deriving Inhabited

/-- The members of a table in the making. -/
abbrev Table : Type := List (String × Node)

namespace Table

/-- Sets a member that may be there already. -/
def set (key : String) (node : Node) : Table → Table
  | [] => [(key, node)]
  | (other, old) :: rest =>
      if other = key then (key, node) :: rest else (other, old) :: set key node rest

/-- Changes the table that a path of keys leads to.  Tables that are not there are opened on the
way; from an array of tables the way leads into the last one.  A dotted key does not lead
through a table with a header of its own, and nothing leads through a value. -/
def change (opened : Opening) (edit : Opening → Table → Option Table) :
    List String → Opening → Table → Option Table
  | [], opening, table => edit opening table
  | key :: path, _, table =>
      match table.lookup key with
      | none =>
          match change opened edit path opened [] with
          | none => none
          | some inner => some (table ++ [(key, .table opened inner)])
      | some (.table opening inner) =>
          if opened = .dotted && opening = .header then none
          else
            match change opened edit path opening inner with
            | none => none
            | some changed => some (table.set key (.table opening changed))
      | some (.tables all) =>
          match all.getLast? with
          | some (.table opening inner) =>
              match change opened edit path opening inner with
              | none => none
              | some changed =>
                  some (table.set key (.tables (all.dropLast ++ [.table opening changed])))
          | _ => none
      | some (.value _) => none

/-- Adds a member that must not be there yet.  A dotted key adds only to a table that dotted
keys have opened. -/
def add (key : String) (value : Value) (dotted : Bool) (opening : Opening) (table : Table) :
    Option Table :=
  if dotted && opening ≠ .dotted then none
  else
    match table.lookup key with
    | some _ => none
    | none => some (table ++ [(key, .value value)])

/-- Assigns a value to a key, whose parts before the last one lead to the table it is added
to. -/
def assign (path : List String) (key : String) (value : Value) (table : Table) : Option Table :=
  change .dotted (add key value !path.isEmpty) path .header table

/-- Opens a table by its header.  One that a longer header led through may be opened once. -/
def openTable (path : List String) (key : String) (table : Table) : Option Table :=
  change .implied (fun _ parent =>
    match parent.lookup key with
    | none => some (parent ++ [(key, .table .header [])])
    | some (.table .implied inner) => some (parent.set key (.table .header inner))
    | some _ => none) path .header table

/-- Opens a further item of an array of tables by its header. -/
def openItem (path : List String) (key : String) (table : Table) : Option Table :=
  change .implied (fun _ parent =>
    match parent.lookup key with
    | none => some (parent ++ [(key, .tables [.table .header []])])
    | some (.tables all) => some (parent.set key (.tables (all ++ [.table .header []])))
    | some _ => none) path .header table

end Table

mutual

/-- The value of a node. -/
def Node.finished : Node → Value
  | .value v => v
  | .table _ members => .table (Node.finishedMembers members)
  | .tables all => .array (Node.finishedAll all)

/-- The values of the tables of an array. -/
def Node.finishedAll : List Node → List Value
  | [] => []
  | node :: rest => node.finished :: Node.finishedAll rest

/-- The values of the members of a table. -/
def Node.finishedMembers : List (String × Node) → List (String × Value)
  | [] => []
  | (key, node) :: rest => (key, node.finished) :: Node.finishedMembers rest

end

/-- The values of the members of a table. -/
def Table.finished (table : Table) : List (String × Value) := Node.finishedMembers table

end Wiring.Toml
