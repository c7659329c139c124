import TagLayers.Toml.Scalar

/-!
# Keys and values of TOML

A key is a row of parts with points between them. Lists may run over several lines, with comments
and with a comma after the last item; tables between braces stand on one line. Lists and tables
may be nested, and keys may have parts, only up to a limit.
-/

namespace TagLayers.Toml

/-! ## Keys -/

/-- A key: the parts before the last, and the last. -/
structure Key where
  /-- The parts before the last. -/
  path : List String
  /-- The last part. -/
  name : String

namespace Key

/-- All parts. -/
def parts (k : Key) : List String := k.path ++ [k.name]

/-- A key has fewer parts than this, and a value fewer lists and tables one in the other. -/
def limit : Nat := 80

end Key

/-- A character of a part without quotes. -/
def isBare (c : Char) : Bool := c.isAlphanum || c == '_' || c == '-'

/-- One part of a key. -/
def readPart (text : Text) : Option (String × Text) :=
  match readQuoted text with
  | some (part, rest) => some (String.ofList part, rest)
  | none =>
      let part := text.takeWhile isBare
      if part.isEmpty then none else some (String.ofList part, text.dropWhile isBare)

/-- The parts of a key, at most a number of them, with blanks around each. -/
def readParts : Nat → Reader Key
  | 0, _ => none
  | n + 1, text => do
      let (part, rest) ← readPart (dropBlanks text)
      match dropBlanks rest with
      | '.' :: rest =>
          let (key, rest) ← readParts n rest
          return ({ key with path := part :: key.path }, rest)
      | rest => return (⟨[], part⟩, rest)

/-- A key with blanks around it. -/
def readKey : Reader Key := readParts (Key.limit - 1)

/-! ## Values

The readers of lists and tables are given a number that their items do not exceed: the length of
the document. -/

/-- The items of a list after its opening bracket or a comma. -/
def readItems (readItem : Reader Node) : Nat → Reader (List Node)
  | 0, _ => none
  | size + 1, text =>
      match dropSpace text with
      | ']' :: rest => some ([], rest)
      | start => do
          let (item, rest) ← readItem start
          match dropSpace rest with
          | ']' :: rest => return ([item], rest)
          | ',' :: rest =>
              let (items, rest) ← readItems readItem size rest
              return (item :: items, rest)
          | _ => none

/-- An entry: a key, an equals sign and a value, with blanks around it. -/
def readEntry (readItem : Reader Node) : Reader (Key × Node) := fun text => do
  let (key, rest) ← readKey text
  let (node, rest) ← readItem (dropBlanks (← past? ['='] rest))
  return ((key, node), dropBlanks rest)

/-- The entries of a table after its opening brace or a comma, added to the rows before. -/
def readEntries (readItem : Reader Node) : Nat → Rows → Reader Rows
  | 0, _, _ => none
  | size + 1, rows, text => do
      let ((key, node), rest) ← readEntry readItem text
      let rows ← Rows.addEntry node key.name key.path rows
      match rest with
      | '\x7d' :: rest => return (rows, rest)
      | ',' :: rest => readEntries readItem size rows rest
      | _ => none

/-- A table after its opening brace. -/
def readTable (readItem : Reader Node) (size : Nat) : Reader Rows := fun text =>
  match dropBlanks text with
  | '\x7d' :: rest => some ([], rest)
  | _ => readEntries readItem size [] text

/-- A value with at most a number of lists and tables one in the other. -/
def readNested (size : Nat) : Nat → Reader Node
  | 0 => readScalar
  | levels + 1 => fun text =>
      match text with
      | '[' :: rest => do
          let (items, rest) ← readItems (readNested size levels) size rest
          return (.list items, rest)
      | '\x7b' :: rest => do
          let (rows, rest) ← readTable (readNested size levels) size rest
          return (.table .closed rows, rest)
      | text => readScalar text

/-- A value. -/
def readValue (size : Nat) : Reader Node := readNested size (Key.limit - 1)

end TagLayers.Toml
