import Classpath.Toml.Value

/-!
# Building the tables of a TOML document

While a document is read, its tables are still open: a later header or a dotted key may add to them.
What may be added depends on how a table came about. A table that a header names is complete once
the next header is met, except for tables inside it; one that dotted keys made is extended by dotted
keys only; one that exists because a header names a table inside it may get a header of its own.

* `Classpath.Toml.Node` – a value that may still be open.
* `Classpath.Toml.put`, `Classpath.Toml.openTable`, `Classpath.Toml.openElement` – the changes that a
  document can ask for, `none` where it must not.
* `Classpath.Toml.closeAll` – the table when all is read.
-/

namespace Classpath.Toml

/-- How a table came about. -/
inductive Origin where
  /-- A header names it. -/
  | header
  /-- A header names a table inside it. -/
  | parent
  /-- Dotted keys lead through it. -/
  | dotted
  deriving DecidableEq, Repr

/-- A value that may still be open. -/
inductive Node where
  | value (v : Value)
  | table (origin : Origin) (entries : List (String × Node))
  /-- An array of tables, of which only the last is open. -/
  | tables (earlier : List Value) (last : List (String × Node))

/-- The entries of an open table. -/
abbrev Entries := List (String × Node)

mutual

/-- The value when nothing more is added. -/
def Node.close : Node → Value
  | .value v => v
  | .table _ entries => .table (closeAll entries)
  | .tables earlier last => .array (earlier ++ [.table (closeAll last)])

/-- The table when nothing more is added. -/
def closeAll : Entries → Table
  | [] => []
  | (key, node) :: rest => (key, node.close) :: closeAll rest

end

/-- The entries with another node under a key that is there. -/
def replace (key : String) (node : Node) (es : Entries) : Entries :=
  es.map fun e => if e.1 = key then (key, node) else e

/-- A change of the table to which a path leads; tables that are missing on the way are made. A path
leads into the last table of an array and never into a value, and a path of dotted keys does not
lead into a table that has a header. -/
def update (dotted : Bool) (change : Origin → Entries → Option Entries) :
    List String → Origin → Entries → Option Entries
  | [], origin, es => change origin es
  | key :: path, _, es =>
    match es.lookup key with
    | none =>
      let origin := if dotted then .dotted else .parent
      (update dotted change path origin []).map fun inner => es ++ [(key, .table origin inner)]
    | some (.value _) => none
    | some (.tables earlier last) =>
      (update dotted change path .header last).map fun last =>
        replace key (.tables earlier last) es
    | some (.table origin inner) =>
      if dotted && origin = .header then none
      else
        (update dotted change path origin inner).map fun inner =>
          replace key (.table origin inner) es

/-- A new entry in the table that a path of dotted keys leads to. Only dotted keys add to a table
that they made, and they add to no other. -/
def put (path : List String) (key : String) (v : Value) : Origin → Entries → Option Entries :=
  update true
    (fun origin es =>
      if origin = .dotted ↔ path = [] then none
      else if (es.lookup key).isSome then none
      else some (es ++ [(key, .value v)]))
    path

/-- The table of a header is opened. It may exist only because tables inside it do, and then it moves
to the end. -/
def openTable (path : List String) (key : String) : Entries → Option Entries :=
  update false
    (fun _ es =>
      match es.lookup key with
      | none => some (es ++ [(key, .table .header [])])
      | some (.table .parent inner) =>
        some (es.filter (·.1 ≠ key) ++ [(key, .table .header inner)])
      | _ => none)
    path .header

/-- A new table is opened at the end of the array of a header. -/
def openElement (path : List String) (key : String) : Entries → Option Entries :=
  update false
    (fun _ es =>
      match es.lookup key with
      | none => some (es ++ [(key, .tables [] [])])
      | some (.tables earlier last) =>
        some (replace key (.tables (earlier ++ [.table (closeAll last)]) []) es)
      | _ => none)
    path .header

end Classpath.Toml
