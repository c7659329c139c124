import TagLayers.Text

/-!
# Trees of TOML

A document is a tree of tables. How a table came about decides how it may be extended:

* a table of a header may be given entries, but no second header;
* a table that a header only passes through may get a header of its own later;
* a table that a dotted key passes through may be extended by further dotted keys next to it;
* a table written between braces is complete.

The tree holds strings, whole numbers, lists and tables. Of other values, which no part of a
configuration can use, it only says that they are there.
-/

namespace TagLayers.Toml

/-- How a table came about. -/
inductive TableKind where
  /-- By a header of its own. -/
  | header
  /-- By a header of one of its tables. -/
  | implied
  /-- By a dotted key. -/
  | dotted
  /-- By braces. -/
  | closed
deriving DecidableEq, Repr

/-- A node of the tree. -/
inductive Node where
  | text (value : String)
  /-- A whole number. -/
  | number (value : Int)
  /-- A truth value or a number with a fraction or an exponent. -/
  | other
  | list (items : List Node)
  /-- A table with its rows in the order of the document. -/
  | table (kind : TableKind) (rows : List (String × Node))

/-- The rows of a table. -/
abbrev Rows := List (String × Node)

namespace Rows

/-- The node of a key. -/
def get? (rows : Rows) (key : String) : Option Node := (rows.find? (·.1 == key)).map (·.2)

/-- The rows with a node put in place of the one of a key, or at the end. -/
def set (rows : Rows) (key : String) (node : Node) : Rows :=
  match rows with
  | [] => [(key, node)]
  | row :: rest => if row.1 = key then (key, node) :: rest else row :: set rest key node

/-- A table that a dotted key may pass through on its way to the last table `path` names. -/
def mayPass (kind : TableKind) (path : List String) : Bool :=
  kind == .dotted || (kind == .implied && !path.isEmpty)

/-- Adds an entry whose key has the parts `path` and `key`. The last table passed through must
be one of dotted keys, and the key must be new. -/
def addEntry (node : Node) (key : String) : List String → Rows → Option Rows
  | [], rows => if (rows.get? key).isSome then none else some (rows.set key node)
  | part :: path, rows =>
      match rows.get? part with
      | none => (addEntry node key path []).map fun inner => rows.set part (.table .dotted inner)
      | some (.table kind inner) =>
          if mayPass kind path then
            (addEntry node key path inner).map fun inner => rows.set part (.table kind inner)
          else none
      | some _ => none

/-- Opens the table of a header. It must not have a header yet, nor have come about by dotted
keys or braces. -/
def openTable : List String → Rows → Option Rows
  | [], _ => none
  | [part], rows =>
      match rows.get? part with
      | none => some (rows.set part (.table .header []))
      | some (.table .implied inner) => some (rows.set part (.table .header inner))
      | some _ => none
  | part :: path, rows =>
      match rows.get? part with
      | none => (openTable path []).map fun inner => rows.set part (.table .implied inner)
      | some (.table kind inner) =>
          if kind = .closed then none
          else (openTable path inner).map fun inner => rows.set part (.table kind inner)
      | some _ => none

/-- Changes the rows of the table at a path. -/
def within (change : Rows → Option Rows) : List String → Rows → Option Rows
  | [], rows => change rows
  | part :: path, rows =>
      match rows.get? part with
      | some (.table kind inner) =>
          (within change path inner).map fun inner => rows.set part (.table kind inner)
      | _ => none

end Rows

end TagLayers.Toml
