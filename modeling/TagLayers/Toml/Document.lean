import TagLayers.Toml.Value

/-!
# Documents of TOML

A document is a row of statements, each on a line of its own: headers of tables, and entries of a
key and a value. The statements are carried out one after the other on the tree.

Headers of lists of tables are refused, since no part of a configuration can hold such a list.
-/

namespace TagLayers.Toml

/-- A statement of a document. -/
inductive Statement where
  /-- A header: the path of a table. -/
  | header (path : List String)
  /-- An entry: its key and its value. -/
  | entry (key : Key) (node : Node)

/-- One statement of a document with at most `size` characters. -/
def readStatement (size : Nat) : Reader Statement
  | '[' :: rest => do
      let (key, rest) ← readKey rest
      return (.header key.parts, ← past? [']'] rest)
  | text => do
      let ((key, node), rest) ← readEntry (readValue size) text
      return (.entry key node, rest)

/-- The statements of a document with at most `size` characters, of which at most a number are
left. Each of them ends at the end of a line. -/
def readStatements (size : Nat) : Nat → Text → Option (List Statement)
  | 0, _ => none
  | left + 1, text =>
      match dropSpace text with
      | [] => some []
      | start => do
          let (statement, rest) ← readStatement size start
          return statement :: (← readStatements size left (← pastLine? rest))

/-- A tree that is being built: its rows and the path of the last header. -/
structure Draft where
  /-- The rows of the whole document. -/
  rows : Rows := []
  /-- The path of the table that entries go to. -/
  path : List String := []

/-- Carries out one statement. -/
def Draft.apply (d : Draft) : Statement → Option Draft
  | .header path => (d.rows.openTable path).map fun rows => ⟨rows, path⟩
  | .entry key node =>
      (d.rows.within (Rows.addEntry node key.name key.path) d.path).map fun rows =>
        { d with rows }

/-- The text without a byte order mark at its start. -/
def dropByteOrderMark : Text → Text
  | '\ufeff' :: rest => rest
  | rest => rest

/-- Reads a document. Every statement and every item of a list or table takes at least one
character. -/
def read? (text : Text) : Option Rows := do
  let text := dropByteOrderMark (unifyNewlines text)
  let size := text.length + 1
  let statements ← readStatements size size text
  return (← statements.foldlM Draft.apply {}).rows

end TagLayers.Toml
