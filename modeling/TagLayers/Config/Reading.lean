import TagLayers.Config.Basic
import TagLayers.Toml.Document

/-!
# Reading configurations

A configuration is a document whose tables have known keys with values of known types. A table
with fixed keys may also be written as a list of its values in the order of its keys, and values
that follow in such a list do not count. Anything else is malformed.
-/

namespace TagLayers.Config

open Toml

/-! ## Values of known types -/

/-- A string. -/
def readText : Node → Option String
  | .text s => some s
  | _ => none

/-- A string of exactly one character. -/
def readChar (node : Node) : Option Char := do
  match (← readText node).toList with
  | [c] => return c
  | _ => none

/-- An id: a whole number below 2³². -/
def readId : Node → Option TagValue
  | .number n => if 0 ≤ n ∧ n < 4294967296 then some n.toNat else none
  | _ => none

/-- A list of values of one type. -/
def readList {α : Type} (read : Node → Option α) : Node → Option (List α)
  | .list items => items.mapM read
  | _ => none

/-- A table of values of one type, in the order of its keys. -/
def readTable {α : Type} (read : Node → Option α) : Node → Option (NameTable α)
  | .table _ rows =>
      rows.foldlM (fun t row => (read row.2).map fun value => t.insert row.1 value) {}
  | _ => none

/-- The rows of a table with fixed keys. -/
def readRows (keys : List String) : Node → Option Rows
  | .table _ rows => if rows.all fun row => keys.contains row.1 then some rows else none
  | .list items => some (keys.zip items)
  | _ => none

/-- A value that need not be there. -/
def readField {α : Type} (rows : Rows) (key : String) (read : Node → Option α) :
    Option (Option α) :=
  match rows.get? key with
  | some node => (read node).map some
  | none => some none

/-! ## Sections -/

/-- A pair of two strings, which are the first two values of a list. -/
def readPair : Node → Option (String × String)
  | .list (opener :: closer :: _) => do return (← readText opener, ← readText closer)
  | _ => none

/-- An id with an expression. -/
def readSymbol (node : Node) : Option (TagValue × String) := do
  let rows ← readRows ["id", "pattern"] node
  return (← readId (← rows.get? "id"), ← readText (← rows.get? "pattern"))

/-- The keys of a lexicon in order. -/
def sectionKeys : List String :=
  ["quote", "escape", "line_comment", "block_comment", "keywords", "reserved", "patterns",
   "macros", "pairs"]

/-- A lexicon. -/
def readSection (node : Node) : Option LexiconSection := do
  let rows ← readRows sectionKeys node
  return {
    quote := ← readField rows "quote" readChar
    escape := ← readField rows "escape" readChar
    lineComment := ← readField rows "line_comment" readText
    blockComment := ← readField rows "block_comment" (readList readText)
    keywords := (← readField rows "keywords" (readTable readId)).getD {}
    reserved := (← readField rows "reserved" (readTable readId)).getD {}
    patterns := (← readField rows "patterns" (readTable readSymbol)).getD {}
    directives := (← readField rows "macros" (readTable readId)).getD {}
    pairs := (← readField rows "pairs" (readList readPair)).getD [] }

/-- A whole configuration. -/
def readConfig (rows : Rows) : Option Config := do
  let rows ← readRows ["lexicon", "colors"] (.table .header rows)
  return {
    lexicon := ← readField rows "lexicon" readSection
    colors := (← readField rows "colors" (readTable readText)).getD {} }

/-- Reads a configuration and checks it. -/
def ofText (text : Text) : Except ConfigError Config := do
  match (Toml.read? text).bind readConfig with
  | none => throw .malformed
  | some config =>
      config.validate
      return config

end TagLayers.Config
