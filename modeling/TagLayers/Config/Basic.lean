import TagLayers.Color.Map
import TagLayers.Lexicon.Tokenizer
import TagLayers.NameTable
import TagLayers.Source.File

/-!
# Configurations

A configuration may replace the lexicon and the colors of the lexical categories. What can be
read and still cannot be used is refused: unknown categories and colors, a comment with other
than two marks, a quote that is its own escape, and a symbol that is listed twice.
-/

namespace TagLayers

/-- Why a configuration cannot be used. -/
inductive ConfigError where
  /-- The file cannot be read. -/
  | file (cause : FileError)
  /-- The text is not a configuration. -/
  | malformed
  /-- A color is given to something that is not a category. -/
  | unknownCategory (name : String)
  /-- A category is given something that is not a color. -/
  | unknownColor (name : String)
  /-- The marks of longer comments are not a pair. -/
  | blockCommentShape
  /-- Quote and escape are the same. -/
  | quoteIsEscape
  /-- A symbol has an entry as reserved and one with an expression. -/
  | symbolTwice (symbol : String)
  /-- The lexicon cannot be used. -/
  | lexicon (cause : LexiconError)
deriving DecidableEq, Repr

namespace ConfigError

/-- The wording of an error. -/
def message : ConfigError → String
  | file cause => s!"failed to read configuration: {cause.message}"
  | malformed => "failed to parse configuration"
  | unknownCategory name => s!"validation error: unknown category '{name}' in [colors]"
  | unknownColor name => s!"validation error: unknown color '{name}'"
  | blockCommentShape => "validation error: lexicon.block_comment must be [open, close] or []"
  | quoteIsEscape => "validation error: lexicon.quote and lexicon.escape must differ"
  | symbolTwice symbol =>
      s!"validation error: reserved symbol '{symbol}' is listed in both reserved and patterns"
  | lexicon cause => s!"invalid lexicon: {cause.message}"

end ConfigError

/-- The categories by their names in configurations. -/
def Category.named : List (String × Category) :=
  [("generic", .generic), ("keyword", .keyword), ("comment", .comment), ("string", .string),
   ("reserved", .reserved), ("whitespace", .whitespace), ("macro", .directive)]

/-- The category of a name. -/
def Category.ofName? (name : String) : Option Category :=
  (Category.named.find? (·.1 == name)).map (·.2)

/-- A lexicon as a configuration gives it. What is not given is left at its default. -/
structure LexiconSection where
  /-- The character at both ends of a string. -/
  quote : Option Char := none
  /-- The character that takes the meaning from the next one. -/
  escape : Option Char := none
  /-- The mark of a comment to the end of the line; an empty one switches them off. -/
  lineComment : Option String := none
  /-- The marks of longer comments; an empty list switches them off. -/
  blockComment : Option (List String) := none
  /-- Ids of keywords. -/
  keywords : NameTable TagValue := {}
  /-- Ids of reserved symbols. -/
  reserved : NameTable TagValue := {}
  /-- Ids and expressions of further reserved symbols. -/
  patterns : NameTable (TagValue × String) := {}
  /-- Ids of directive marks. -/
  directives : NameTable TagValue := {}
  /-- Symbols that open and close a group. -/
  pairs : List (String × String) := []

namespace LexiconSection

/-- The marks of longer comments are a pair of texts that are not empty, or nothing. -/
def blockCommentOk (s : LexiconSection) : Bool :=
  match s.blockComment with
  | none => true
  | some [] => true
  | some [opener, closer] => !opener.isEmpty && !closer.isEmpty
  | some _ => false

/-- Checks the section; the first fault is the error. -/
def validate (s : LexiconSection) : Except ConfigError Unit := do
  if !s.blockCommentOk then throw .blockCommentShape
  if s.quote.isSome && s.quote == s.escape then throw .quoteIsEscape
  if let some symbol := s.patterns.names.find? s.reserved.contains then
    throw (.symbolTwice symbol)

/-- The lexicon of the section. Tables are in the order of their keys; symbols with an
expression follow the others. -/
def toLexicon (s : LexiconSection) : Lexicon :=
  let base : Lexicon := {}
  { quote := s.quote.getD base.quote
    escape := s.escape.getD base.escape
    lineComment :=
      match s.lineComment with
      | none => base.lineComment
      | some mark => if mark.isEmpty then none else some mark
    blockComment :=
      match s.blockComment with
      | none => base.blockComment
      | some [opener, closer] => some (opener, closer)
      | some _ => none
    keywords := s.keywords.rows
    reserved :=
      s.reserved.rows.map (fun r => { symbol := r.1, id := r.2 })
        ++ s.patterns.rows.map fun r => { symbol := r.1, id := r.2.1, pattern := some r.2.2 }
    directives := s.directives.rows
    pairs := s.pairs }

/-- The tokenizer of the section. -/
def toTokenizer (s : LexiconSection) (engine : Engine := .standard) :
    Except ConfigError Tokenizer :=
  (Tokenizer.ofLexicon s.toLexicon engine).mapError .lexicon

end LexiconSection

/-- A configuration. -/
structure Config where
  /-- The lexicon, if one is given. -/
  lexicon : Option LexiconSection := none
  /-- Color names by category names. -/
  colors : NameTable String := {}

namespace Config

/-- The color of a name. -/
def colorOf (name : String) : Except ConfigError Color :=
  match Color.ofName? name with
  | some color => .ok color
  | none => .error (.unknownColor name)

/-- The entry of a color map for a row of the color table; the category is checked first. -/
def colorEntry (row : String × String) : Except ConfigError (Tag × Color) :=
  match Category.ofName? row.1 with
  | none => .error (.unknownCategory row.1)
  | some category => do return (Tag.ofCategory category, ← colorOf row.2)

/-- The configured colors, and below them those of the lexical categories. -/
def colorMap (c : Config) : Except ConfigError ColorMap := do
  let entries ← c.colors.rows.mapM colorEntry
  return (ColorMap.mk entries).extend ColorMap.lexical

/-- Checks the colors and then the lexicon. -/
def validate (c : Config) : Except ConfigError Unit := do
  let _ ← c.colorMap
  match c.lexicon with
  | some s => s.validate
  | none => return

end Config

end TagLayers
